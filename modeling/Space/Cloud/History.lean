import Space.Cloud.MetadataInvariant
import Space.Data.Forest

/-! # Version history

    The rows of the version map form a forest along `parent_version_id`, and
    every tree of it belongs to one file. A commit moves the current version
    of a file to the version committed, whatever the two have to do with
    each other.

    The main result says exactly when a commit moves a file back to a
    version that the current one was built on: the committed version is a
    candidate, and a proper ancestor of the current one. The store does not
    rule that out; a client that builds only on committed versions does. -/

namespace Space

open Rust Outcome Data Effects MetaOp

namespace Inner

/-- `p` is the parent of `v`. -/
def Parent (g : Inner) (p v : VersionId) : Prop :=
  ∃ row, g.versions.lookup v = some row ∧ row.parentVersionId = some p

/-- `a` is a proper ancestor of `v`. -/
def Ancestor (g : Inner) : VersionId → VersionId → Prop :=
  Relation.TransGen g.Parent

/-- The current version of a file. -/
def current (g : Inner) (fileId : FileId) : Option VersionId :=
  (g.files.lookup fileId).bind File.currentVersionId

/-- `v` is stored and not committed. -/
def IsCandidate (g : Inner) (v : VersionId) : Prop :=
  ∃ row, g.versions.lookup v = some row ∧ row.state = .candidate

/-! ## Section 1: The history is a forest -/

theorem current_eq_some {g : Inner} {fileId : FileId} {v : VersionId} :
    g.current fileId = some v ↔
      ∃ file, g.files.lookup fileId = some file ∧ file.currentVersionId = some v := by
  simp [current, Option.bind_eq_some_iff]

/-- Rows never change their parent, so edges are only added with new rows. -/
theorem parent_addVersion {g : Inner} {v : Version} {a b : VersionId}
    (h : (g.addVersion v).Parent a b) :
    g.Parent a b ∨ (b = v.versionId ∧ v.parentVersionId = some a) := by
  obtain ⟨row, hrow, hparent⟩ := h
  simp only [addVersion, Table.lookup_insert_ite] at hrow
  split at hrow
  · rename_i hb
    cases hrow
    exact .inr ⟨hb, hparent⟩
  · exact .inl ⟨row, hrow, hparent⟩

theorem versions_setCurrent (g : Inner) (now : DateTime) (fileId : FileId) (v : VersionId) :
    (g.setCurrent now fileId v).versions = g.versions := by
  unfold setCurrent
  cases g.files.lookup fileId <;> rfl

theorem versions_commit {g : Inner} {env : Env} {v : VersionId} {row : Version} :
    (g.commit env v row).versions = g.versions.insert v { row with state := .committed } :=
  versions_setCurrent _ _ _ _

/-- A commit leaves the forest as it is. -/
theorem parent_commit {g : Inner} {env : Env} {v : VersionId} {row : Version}
    (hl : g.versions.lookup v = some row) {a b : VersionId} :
    (g.commit env v row).Parent a b ↔ g.Parent a b := by
  unfold Parent
  rw [versions_commit]
  by_cases hb : b = v
  · subst hb
    simp [hl]
  · simp [hb]

theorem ancestor_commit {g : Inner} {env : Env} {v : VersionId} {row : Version}
    (hl : g.versions.lookup v = some row) {a b : VersionId} :
    (g.commit env v row).Ancestor a b ↔ g.Ancestor a b := by
  have heq : (g.commit env v row).Parent = g.Parent :=
    funext fun _ => funext fun _ => propext (parent_commit hl)
  unfold Ancestor
  rw [heq]

end Inner

/-- A write keeps the history ranked: a new version goes below a row that is
    there before it. -/
theorem writes_ranked {env : Env} {g g' : Inner} {op : MetaOp} {a : op.Value}
    (hinv : MetaInv g) (hw : Writes env g op a g') (h : Ranked g.Parent) : Ranked g'.Parent := by
  cases hw with
  | file hname hkey => exact h
  | chunk hwf hl => exact h
  | manifest hvalid hreg hl => exact h
  | @version fileId versionId parent manifestId hrefs hl =>
    -- the id is not stored yet, so it has no parent and is no parent
    have hout : ∀ b, ¬ g.Parent versionId b := by
      intro b ⟨row, hrow, hparent⟩
      obtain ⟨_, hp, _⟩ := (hinv.versions b row hrow).parent versionId hparent
      rw [hl] at hp
      cases hp
    have hin : ∀ a, ¬ g.Parent a versionId := by
      intro a ⟨row, hrow, _⟩
      rw [hl] at hrow
      cases hrow
    -- nor is it its own parent: the parent must be stored
    have hne : parent ≠ some versionId := by
      intro hp
      obtain ⟨row, hrow, _⟩ := hrefs.parent versionId hp
      rw [hl] at hrow
      cases hrow
    exact h.leaf hout hin hne fun a b hab => Inner.parent_addVersion hab
  | commit hl hc => exact h.mono fun a b hab => (Inner.parent_commit hl).mp hab

theorem step_ranked {op : MetaOp} {g g' : Inner} {r : Res op.Value} (hinv : MetaInv g)
    (hs : MetaOp.Step op g r g') (h : Ranked g.Parent) : Ranked g'.Parent := by
  obtain ⟨env, _, hcall⟩ := hs.call
  cases hcall with
  | refused e => exact h
  | dangling _ => exact h
  | found _ => exact h
  | wrote hw => exact writes_ranked hinv hw h

/-- **The history has no cycles**, in any reachable state. -/
theorem reachable_ranked {g : Inner} (h : g.Reachable) : Ranked g.Parent := by
  induction h with
  | refl =>
    refine Ranked.of_empty fun a b hab => ?_
    obtain ⟨row, hrow, _⟩ := hab
    exact Table.allRows_empty (fun _ _ => False) b row hrow
  | tail hrun hstep ih =>
    obtain ⟨op, r, hs⟩ := hstep
    exact step_ranked (reachable_inv hrun) hs ih

/-- Ancestors belong to the same file. -/
theorem ancestor_fileId {g : Inner} (hinv : MetaInv g) {a v : VersionId} (h : g.Ancestor a v) :
    ∃ ra rv, g.versions.lookup a = some ra ∧ g.versions.lookup v = some rv ∧
      ra.fileId = rv.fileId := by
  have hedge : ∀ {p v}, g.Parent p v → ∃ rp rv, g.versions.lookup p = some rp ∧
      g.versions.lookup v = some rv ∧ rp.fileId = rv.fileId := by
    intro p v ⟨row, hrow, hparent⟩
    obtain ⟨rp, hrp, hok⟩ := (hinv.versions v row hrow).parent p hparent
    exact ⟨rp, row, hrp, hrow, (validateVersionParent_eq_ok.mp hok).2.symm⟩
  induction h with
  | single hp => exact hedge hp
  | tail _ hp ih =>
    obtain ⟨ra, rb, hra, hrb, hab⟩ := ih
    obtain ⟨rb', rc, hrb', hrc, hbc⟩ := hedge hp
    rw [hrb] at hrb'
    cases hrb'
    exact ⟨ra, rc, hra, hrc, hab.trans hbc⟩

/-! ## Section 2: What a commit does to the current version -/

theorem current_fileId {g : Inner} (hinv : MetaInv g) {fileId : FileId} {c : VersionId}
    (hc : g.current fileId = some c) :
    ∃ row, g.versions.lookup c = some row ∧ row.fileId = fileId := by
  obtain ⟨file, hfile, hcur⟩ := Inner.current_eq_some.mp hc
  have hok := hinv.files fileId file hfile
  obtain ⟨row, hrow, hv⟩ := hok.current c hcur
  exact ⟨row, hrow, (validateFileCurrentVersion_eq_ok.mp hv).2.1.trans hok.id⟩

/-- After a commit the version is the current one of its file, and the
    other files are as before. -/
theorem current_commit {g : Inner} {env : Env} (hinv : MetaInv g) {v : VersionId} {row : Version}
    (hl : g.versions.lookup v = some row) (fileId : FileId) :
    (g.commit env v row).current fileId =
      if fileId = row.fileId then some v else g.current fileId := by
  obtain ⟨file, hf⟩ := (hinv.versions v row hl).file
  rw [commit_eq hf]
  unfold Inner.current
  rw [Table.lookup_insert_ite]
  by_cases hid : fileId = row.fileId
  · rw [if_pos hid, if_pos hid]
    rfl
  · rw [if_neg hid, if_neg hid]

/-- A commit that returns `Ok` found the version committed, or commits it. -/
theorem commitVersion_ok {v : VersionId} {g g' : Inner} {r : Version}
    (hs : MetaOp.Step (.commitVersion v) g (ok r) g') :
    (¬ g.IsCandidate v ∧ g' = g) ∨
      ∃ env row, g.versions.lookup v = some row ∧ row.state = .candidate ∧
        g' = g.commit env v row := by
  obtain ⟨env, _, hcall⟩ := hs.call
  cases hcall with
  | found hholds =>
    obtain ⟨hl, hstate⟩ := hholds
    refine .inl ⟨?_, rfl⟩
    intro ⟨row, hrow, hc⟩
    rw [hl] at hrow
    cases hrow
    rw [hstate] at hc
    cases hc
  | wrote hw =>
    cases hw with
    | commit hl hc => exact .inr ⟨env, _, hl, hc, rfl⟩

/-- **When a commit moves a file back**: exactly when it commits a candidate
    that is a proper ancestor of the current version. -/
theorem commit_moves_back_iff {g g' : Inner} (hinv : MetaInv g) (hranked : Ranked g.Parent)
    {v : VersionId} {r : Version} (hs : MetaOp.Step (.commitVersion v) g (ok r) g')
    {fileId : FileId} {c : VersionId} (hc : g.current fileId = some c) :
    ∃ c', g'.current fileId = some c' ∧
      (g'.Ancestor c' c ↔ g.IsCandidate v ∧ g.Ancestor v c) := by
  rcases commitVersion_ok hs with ⟨hnot, rfl⟩ | ⟨env, row, hl, hcand, rfl⟩
  · refine ⟨c, hc, ?_⟩
    constructor
    · exact fun hself => absurd hself (hranked.irrefl c)
    · exact fun h => absurd h.1 hnot
  · rw [current_commit hinv hl]
    have hv : g.IsCandidate v := ⟨row, hl, hcand⟩
    by_cases hid : fileId = row.fileId
    · refine ⟨v, if_pos hid, ?_⟩
      rw [Inner.ancestor_commit hl]
      exact ⟨fun h => ⟨hv, h⟩, fun h => h.2⟩
    · refine ⟨c, (if_neg hid).trans hc, ?_⟩
      rw [Inner.ancestor_commit hl]
      constructor
      · exact fun hself => absurd hself (hranked.irrefl c)
      · -- an ancestor of `c` belongs to the file that `c` belongs to
        intro ⟨_, hanc⟩
        obtain ⟨rv, rc, hrv, hrc, hsame⟩ := ancestor_fileId hinv hanc
        obtain ⟨rc', hrc', hfile⟩ := current_fileId hinv hc
        rw [hl] at hrv
        rw [hrc] at hrc'
        cases hrv
        cases hrc'
        exact absurd (hsame.trans hfile).symm hid

/-! ## Section 3: Building on committed versions only -/

/-- The call does not create a version on a parent that is a candidate. -/
def MetaOp.BuildsOnCommitted (g : Inner) : MetaOp → Prop
  | .createVersion _ _ (some p) _ => ∀ row, g.versions.lookup p = some row → row.state = .committed
  | _ => True

/-- The states reached when every version is created on a committed parent. -/
def Inner.ReachableOnCommitted : Inner → Prop :=
  Relation.ReflTransGen (fun g g' => ∃ (op : MetaOp) (r : Res op.Value),
    op.BuildsOnCommitted g ∧ MetaOp.Step op g r g') Inner.new

theorem Inner.ReachableOnCommitted.reachable {g : Inner} (h : g.ReachableOnCommitted) :
    g.Reachable := by
  refine Relation.ReflTransGen.mono ?_ _ _ h
  intro _ _ ⟨op, r, _, hs⟩
  exact ⟨op, r, hs⟩

/-- Every parent is committed. -/
def Inner.CommittedParents (g : Inner) : Prop :=
  ∀ p v, g.Parent p v → ∃ row, g.versions.lookup p = some row ∧ row.state = .committed

theorem committedParents_step {op : MetaOp} {g g' : Inner} {r : Res op.Value} (hinv : MetaInv g)
    (hb : op.BuildsOnCommitted g) (hs : MetaOp.Step op g r g') (h : g.CommittedParents) :
    g'.CommittedParents := by
  have hext := (step_inv hinv hs).2
  -- a committed row stays as it is, so only the edges that are new matter
  have hkeep : ∀ p, (∃ row, g.versions.lookup p = some row ∧ row.state = .committed) →
      ∃ row, g'.versions.lookup p = some row ∧ row.state = .committed := by
    intro p ⟨row, hrow, hc⟩
    obtain ⟨row', hrow', hev⟩ := hext.versions p row hrow
    rw [hev.of_committed hc] at hrow'
    exact ⟨row, hrow', hc⟩
  intro p v hp
  refine hkeep p ?_
  obtain ⟨env, _, hcall⟩ := hs.call
  cases hcall with
  | refused e => exact h p v hp
  | dangling _ => exact h p v hp
  | found _ => exact h p v hp
  | wrote hw =>
    cases hw with
    | file hname hkey => exact h p v hp
    | chunk hwf hl => exact h p v hp
    | manifest hvalid hreg hl => exact h p v hp
    | commit hl hc => exact h p v ((Inner.parent_commit hl).mp hp)
    | version hrefs hl =>
      rcases Inner.parent_addVersion hp with hold | ⟨_, hparent⟩
      · exact h p v hold
      · have hparent' : _ = some p := hparent
        subst hparent'
        obtain ⟨row, hrow, _⟩ := hrefs.parent p rfl
        exact ⟨row, hrow, hb row hrow⟩

theorem reachableOnCommitted_committedParents {g : Inner} (h : g.ReachableOnCommitted) :
    g.CommittedParents := by
  induction h with
  | refl =>
    intro p v ⟨row, hrow, _⟩
    exact (Table.allRows_empty (fun _ _ => False) v row hrow).elim
  | tail hrun hstep ih =>
    obtain ⟨op, r, hb, hs⟩ := hstep
    exact committedParents_step (reachable_inv (Inner.ReachableOnCommitted.reachable hrun)) hb hs ih

theorem ancestor_committed {g : Inner} (h : g.CommittedParents) {a v : VersionId}
    (ha : g.Ancestor a v) : ¬ g.IsCandidate a := by
  intro ⟨row, hrow, hc⟩
  obtain ⟨b, hp, _⟩ := Relation.TransGen.head'_iff.mp ha
  obtain ⟨row', hrow', hcommitted⟩ := h a b hp
  rw [hrow] at hrow'
  cases hrow'
  rw [hc] at hcommitted
  cases hcommitted

/-- **A commit undoes a derived version exactly when it commits one of its
    candidate ancestors**; where every version was created on a committed
    parent, it never does. -/
theorem commit_undoes_iff {g g' : Inner} (h : g.Reachable) {v : VersionId} {r : Version}
    (hs : MetaOp.Step (.commitVersion v) g (ok r) g') {fileId : FileId} {c : VersionId}
    (hc : g.current fileId = some c) :
    ∃ c', g'.current fileId = some c' ∧
      (g'.Ancestor c' c ↔ g.IsCandidate v ∧ g.Ancestor v c) ∧
        (g.ReachableOnCommitted → ¬ g'.Ancestor c' c) := by
  obtain ⟨c', hc', hiff⟩ := commit_moves_back_iff (reachable_inv h) (reachable_ranked h) hs hc
  refine ⟨c', hc', hiff, fun hon hback => ?_⟩
  obtain ⟨hcand, hanc⟩ := hiff.mp hback
  exact ancestor_committed (reachableOnCommitted_committedParents hon) hanc hcand

/-- In the sample run `v2` is current and built on the candidate `v1`. -/
theorem commit_undoes_iff_sample :
    ∃ c', (MetaOp.exec (Env.sample 2 70) (.commitVersion Sample.v1)
        (Inner.new.runCalls Sample.calls)).2.current Sample.file = some c' ∧
      ((MetaOp.exec (Env.sample 2 70) (.commitVersion Sample.v1)
          (Inner.new.runCalls Sample.calls)).2.Ancestor c' Sample.v2 ↔
        (Inner.new.runCalls Sample.calls).IsCandidate Sample.v1 ∧
          (Inner.new.runCalls Sample.calls).Ancestor Sample.v1 Sample.v2) ∧
      ((Inner.new.runCalls Sample.calls).ReachableOnCommitted →
        ¬ (MetaOp.exec (Env.sample 2 70) (.commitVersion Sample.v1)
          (Inner.new.runCalls Sample.calls)).2.Ancestor c' Sample.v2) :=
  commit_undoes_iff (reachable_runCalls .refl Sample.calls_fresh)
    ⟨Env.sample 2 70, trivial, rfl⟩ (by decide)

/-- Committing `v1` after `v2` takes the file back to the version that its
    current one was built on. -/
theorem commit_undoes_derived :
    ¬ ∀ g : Inner, g.Reachable → ∀ (v : VersionId) (r : Version) (g' : Inner),
      MetaOp.Step (.commitVersion v) g (ok r) g' → ∀ (fileId : FileId) (c c' : VersionId),
        g.current fileId = some c → g'.current fileId = some c' → ¬ g'.Ancestor c' c := by
  intro h
  have hreach : (Inner.new.runCalls Sample.calls).Reachable :=
    reachable_runCalls .refl Sample.calls_fresh
  have hstep : MetaOp.Step (.commitVersion Sample.v1) (Inner.new.runCalls Sample.calls) (ok _) _ :=
    ⟨Env.sample 2 70, trivial, rfl⟩
  refine h _ hreach _ _ _ hstep Sample.file Sample.v2 Sample.v1 (by decide) (by decide) ?_
  exact .single ⟨_, rfl, by decide⟩

/-! ## Section 4: Following the parents -/

/-- Follow `parent_version_id` from `v` through the stored rows. There is no
    answer when a row is missing, or when `fuel` rows do not reach a version
    without a parent. -/
def Inner.lineage (g : Inner) (fuel : Nat) (v : VersionId) : Option (List Version) :=
  climb (fun id => g.versions.lookup id) Version.parentVersionId fuel v

/-- The parent of a stored version is stored. -/
theorem parent_stored {g : Inner} (hinv : MetaInv g) {p v : VersionId} (h : g.Parent p v) :
    ∃ row, g.versions.lookup p = some row := by
  obtain ⟨row, hrow, hparent⟩ := h
  obtain ⟨parent, hp, _⟩ := (hinv.versions v row hrow).parent p hparent
  exact ⟨parent, hp⟩

/-- Stored rows with different ids are at most as many as the table has keys. -/
theorem length_le_keys {g : Inner} {rows : List Version}
    (hstored : ∀ r ∈ rows, g.versions.lookup r.versionId = some r)
    (hnodup : (rows.map Version.versionId).Nodup) : rows.length ≤ g.versions.keys.card := by
  have hsub : (rows.map Version.versionId).toFinset ⊆ g.versions.keys := by
    intro id hid
    obtain ⟨r, hr, rfl⟩ := List.mem_map.mp (List.mem_toFinset.mp hid)
    rw [Finmap.mem_keys, Finmap.mem_iff]
    exact ⟨r, hstored r hr⟩
  calc rows.length = (rows.map Version.versionId).toFinset.card := by
        rw [List.toFinset_card_of_nodup hnodup, List.length_map]
    _ ≤ g.versions.keys.card := Finset.card_le_card hsub

/-- **The history is a finite forest.** From a stored version the parents
    lead, within as many rows as there are versions, to one without a parent.
    They are stored rows of the same file, and none comes twice. -/
theorem lineage_reaches_root {g : Inner} (h : g.Reachable) {v : VersionId} {row : Version}
    (hl : g.versions.lookup v = some row) :
    ∃ rows, g.lineage g.versions.keys.card v = some rows ∧ rows.head? = some row ∧
      (∀ r ∈ rows, g.versions.lookup r.versionId = some r ∧ r.fileId = row.fileId) ∧
      (rows.map Version.versionId).Nodup ∧
      ∃ root, rows.getLast? = some root ∧ root.parentVersionId = none := by
  have hinv := reachable_inv h
  have hranked : Ranked (Up (fun id => g.versions.lookup id) Version.parentVersionId) :=
    reachable_ranked h
  have hkey : ∀ (id : VersionId) (r : Version), g.versions.lookup id = some r → r.versionId = id :=
    fun id r hr => (hinv.versions id r hr).id
  obtain ⟨rows, hrows⟩ := Lineage.exists hranked (fun p w hp => parent_stored hinv hp) hl
  have hnodup := hrows.nodup hkey hranked
  have hstored : ∀ r ∈ rows, g.versions.lookup r.versionId = some r :=
    fun r hr => (hrows.mem hkey hr).1
  refine ⟨rows, hrows.climb_eq (length_le_keys hstored hnodup), hrows.head.trans hl, ?_, hnodup,
    hrows.getLast⟩
  intro r hr
  refine ⟨hstored r hr, ?_⟩
  -- `r` is the version itself or an ancestor of it
  have habove : Relation.ReflTransGen g.Parent r.versionId v := (hrows.mem hkey hr).2
  rcases Relation.reflTransGen_iff_eq_or_transGen.mp habove with heq | hanc
  · have hself := hstored r hr
    rw [← heq, hl] at hself
    cases hself
    rfl
  · obtain ⟨ra, rv, hra, hrv, hfile⟩ := ancestor_fileId hinv hanc
    rw [hstored r hr] at hra
    rw [hl] at hrv
    cases hra
    cases hrv
    exact hfile

/-- In the sample run `v2` leads to `v1`, which has no parent. -/
theorem lineage_reaches_root_sample :
    ∃ rows, (Inner.new.runCalls Sample.calls).lineage
        (Inner.new.runCalls Sample.calls).versions.keys.card Sample.v2 = some rows ∧
      rows.head? = some { Inner.freshVersion (Env.sample 2 50) Sample.file Sample.v2
        (some Sample.v1) Sample.manifest.manifestId with state := .committed } ∧
      (∀ r ∈ rows, (Inner.new.runCalls Sample.calls).versions.lookup r.versionId = some r ∧
        r.fileId = Sample.file) ∧
      (rows.map Version.versionId).Nodup ∧
      ∃ root, rows.getLast? = some root ∧ root.parentVersionId = none :=
  lineage_reaches_root (reachable_runCalls .refl Sample.calls_fresh) (by decide)

end Space
