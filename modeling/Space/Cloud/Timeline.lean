import Space.Cloud.History
import Space.Cloud.System

/-! # The times of the rows

    A row has the time at which it was created, and a file also the time of
    its last commit. The store reads the clock while it holds the lock, so
    when the clock does not go back the times follow the history.

    * `Timeline` is what holds of the times in one state: no version is
      older than its file or than the version it was built on, and no file
      older than its current version (`times_ordered`).
    * `Later` is what a run does to them: what is new is not older than the
      start of the run, and a file whose current version has changed shows
      so (`times_advance`). -/

namespace Space

open Rust Outcome Data Effects MetaOp

instance : Preorder DateTime where
  le t t' := t.nanos ≤ t'.nanos
  le_refl t := Int.le_refl t.nanos
  le_trans _ _ _ := Int.le_trans

/-! ## Section 1: What a write does to one row -/

section rows

variable {env : Env} {g g' : Inner} {op : MetaOp} {a : op.Value}

/-- The version is stored and committed. -/
def Inner.IsCommitted (g : Inner) (v : VersionId) : Prop :=
  ∃ row, g.versions.lookup v = some row ∧ row.state = .committed

theorem Inner.IsCommitted.mono {v : VersionId} (h : g.IsCommitted v) (he : g.Extends g') :
    g'.IsCommitted v := by
  obtain ⟨row, hrow, hstate⟩ := h
  obtain ⟨row', hrow', hev⟩ := he.versions v row hrow
  rw [hev.of_committed hstate] at hrow'
  exact ⟨row, hrow', hstate⟩

/-- A file row after a write, and what there was before it. -/
inductive FileMove (now : DateTime) (g : Inner) (id : FileId) (file : File) : Prop where
  | kept : g.files.lookup id = some file → FileMove now g id file
  | created : g.files.lookup id = none → file.createdAt = now → file.modifiedAt = now →
      file.currentVersionId = none → FileMove now g id file
  | committed {before : File} {v : VersionId} : g.files.lookup id = some before →
      ¬ g.IsCommitted v →
      file = { before with currentVersionId := some v, modifiedAt := now } →
      FileMove now g id file

theorem writes_file (h : MetaInv g) (hw : Writes env g op a g') (hfresh : op.Fresh env g)
    {id : FileId} {file : File} (hfile : g'.files.lookup id = some file) :
    FileMove env.now g id file := by
  cases hw with
  | @file parentId name key hname hkey =>
    rw [Inner.addFile, Table.lookup_insert_ite] at hfile
    by_cases hid : id = (Inner.freshFile env parentId name).fileId
    · rw [if_pos hid] at hfile
      cases hfile
      subst hid
      exact .created (hfresh hkey) rfl rfl rfl
    · rw [if_neg hid] at hfile
      exact .kept hfile
  | chunk _ _ => exact .kept hfile
  | manifest _ _ _ => exact .kept hfile
  | version _ _ => exact .kept hfile
  | @commit v row hl hc =>
    obtain ⟨before, hbefore⟩ := (h.versions v row hl).file
    rw [commit_eq hbefore] at hfile
    rw [Table.lookup_insert_ite] at hfile
    by_cases hid : id = row.fileId
    · rw [if_pos hid] at hfile
      cases hfile
      subst hid
      refine .committed hbefore ?_ rfl
      intro hcommitted
      obtain ⟨row', hrow', hstate⟩ := hcommitted
      rw [hl] at hrow'
      cases hrow'
      rw [hc] at hstate
      cases hstate
    · rw [if_neg hid] at hfile
      exact .kept hfile

/-- A version row after a write, and what there was before it. -/
inductive VersionMove (now : DateTime) (g : Inner) (v : VersionId) (row : Version) : Prop where
  | kept {before : Version} : g.versions.lookup v = some before → before.Evolves row →
      VersionMove now g v row
  | created : g.versions.lookup v = none → row.createdAt = now →
      g.Refs row.fileId row.parentVersionId row.manifestId → VersionMove now g v row

theorem writes_version (hw : Writes env g op a g') {v : VersionId} {row : Version}
    (hrow : g'.versions.lookup v = some row) : VersionMove env.now g v row := by
  cases hw with
  | file _ _ => exact .kept hrow (.refl row)
  | chunk _ _ => exact .kept hrow (.refl row)
  | manifest _ _ _ => exact .kept hrow (.refl row)
  | @version fileId versionId parent manifestId hrefs hl =>
    rw [Inner.addVersion, Table.lookup_insert_ite] at hrow
    by_cases hid : v = (Inner.freshVersion env fileId versionId parent manifestId).versionId
    · rw [if_pos hid] at hrow
      cases hrow
      subst hid
      exact .created hl rfl hrefs
    · rw [if_neg hid] at hrow
      exact .kept hrow (.refl row)
  | @commit versionId before hl hc =>
    rw [Inner.versions_commit, Table.lookup_insert_ite] at hrow
    by_cases hid : v = versionId
    · rw [if_pos hid] at hrow
      cases hrow
      subst hid
      exact .kept hl (.inr ⟨hc, rfl⟩)
    · rw [if_neg hid] at hrow
      exact .kept hrow (.refl row)

end rows

theorem Version.Evolves.createdAt {a b : Version} (h : a.Evolves b) :
    b.createdAt = a.createdAt := by
  rcases h with rfl | ⟨_, rfl⟩ <;> rfl

/-! ## Section 2: What holds of the times -/

/-- What the times say about the history, at the time `now`. -/
structure Timeline (g : Inner) (now : DateTime) : Prop where
  files : Table.AllRows (fun _ file => file.createdAt ≤ file.modifiedAt ∧ file.modifiedAt ≤ now)
    g.files
  versions : Table.AllRows (fun _ row => row.createdAt ≤ now) g.versions
  /-- No version is older than its file. -/
  origin : ∀ v row file, g.versions.lookup v = some row →
    g.files.lookup row.fileId = some file → file.createdAt ≤ row.createdAt
  /-- No version is older than the one it was built on. -/
  parent : ∀ v row p before, g.versions.lookup v = some row → row.parentVersionId = some p →
    g.versions.lookup p = some before → before.createdAt ≤ row.createdAt
  /-- The current version was there when the file was changed last. -/
  current : ∀ id file v row, g.files.lookup id = some file → file.currentVersionId = some v →
    g.versions.lookup v = some row → row.createdAt ≤ file.modifiedAt

theorem timeline_new (now : DateTime) : Timeline Inner.new now where
  files := Table.allRows_empty _
  versions := Table.allRows_empty _
  origin := fun _ _ _ h => by cases h
  parent := fun _ _ _ _ h => by cases h
  current := fun _ _ _ _ h => by cases h

section timeline

variable {g g' : Inner} {now now' : DateTime}

theorem Timeline.mono (h : Timeline g now) (hle : now ≤ now') : Timeline g now' where
  files := h.files.mono fun _ _ hfile => ⟨hfile.1, hfile.2.trans hle⟩
  versions := h.versions.mono fun _ _ hrow => hrow.trans hle
  origin := h.origin
  parent := h.parent
  current := h.current

/-- A write at the time `env.now`. -/
theorem Timeline.write {env : Env} {op : MetaOp} {a : op.Value} (h : Timeline g env.now)
    (hinv : MetaInv g) (hw : Writes env g op a g') (hfresh : op.Fresh env g) :
    Timeline g' env.now := by
  have hext := writes_extends hw hfresh
  -- a version that was there before keeps its time
  have hbefore : ∀ {v row row'}, g.versions.lookup v = some row →
      g'.versions.lookup v = some row' → row'.createdAt = row.createdAt := by
    intro v row row' hrow hrow'
    obtain ⟨row'', hrow'', hev⟩ := hext.versions v row hrow
    rw [hrow'] at hrow''
    cases hrow''
    exact hev.createdAt
  constructor
  · intro id file hfile
    cases writes_file hinv hw hfresh hfile with
    | kept hold => exact h.files id file hold
    | created _ hcreated hmodified _ => exact ⟨hcreated.trans_le hmodified.ge, hmodified.le⟩
    | committed hold _ heq =>
      subst heq
      exact ⟨(h.files id _ hold).1.trans (h.files id _ hold).2, le_rfl⟩
  · intro v row hrow
    cases writes_version hw hrow with
    | kept hold hev => exact hev.createdAt.trans_le (h.versions v _ hold)
    | created _ hcreated _ => exact hcreated.le
  · intro v row file hrow hfile
    cases writes_version hw hrow with
    | kept hold hev =>
      -- so was the file of such a version
      obtain ⟨file₀, hfile₀⟩ := (hinv.versions v _ hold).file
      obtain ⟨file', hfile', hfev⟩ := hext.files _ file₀ hfile₀
      rw [hev.fileId, hfile'] at hfile
      cases hfile
      rw [hfev.createdAt, hev.createdAt]
      exact h.origin v _ file₀ hold hfile₀
    | created _ hcreated hrefs =>
      obtain ⟨file₀, hfile₀⟩ := hrefs.file
      obtain ⟨file', hfile', hfev⟩ := hext.files _ file₀ hfile₀
      rw [hfile'] at hfile
      cases hfile
      rw [hfev.createdAt, hcreated]
      exact (h.files _ file₀ hfile₀).1.trans (h.files _ file₀ hfile₀).2
  · intro v row p before hrow hparent hp
    cases writes_version hw hrow with
    | kept hold hev =>
      rw [hev.parent] at hparent
      obtain ⟨before₀, hp₀, _⟩ := (hinv.versions v _ hold).parent p hparent
      rw [hbefore hp₀ hp, hev.createdAt]
      exact h.parent v _ p before₀ hold hparent hp₀
    | created _ hcreated hrefs =>
      obtain ⟨before₀, hp₀, _⟩ := hrefs.parent p hparent
      rw [hbefore hp₀ hp, hcreated]
      exact h.versions p before₀ hp₀
  · intro id file v row hfile hcurrent hrow
    cases writes_file hinv hw hfresh hfile with
    | kept hold =>
      obtain ⟨row₀, hrow₀, _⟩ := (hinv.files id file hold).current v hcurrent
      rw [hbefore hrow₀ hrow]
      exact h.current id file v row₀ hold hcurrent hrow₀
    | created _ _ _ hnone =>
      rw [hnone] at hcurrent
      cases hcurrent
    | committed hold _ heq =>
      -- the version committed is one of the rows, which are not newer than now
      subst heq
      cases writes_version hw hrow with
      | kept hold hev => exact hev.createdAt.trans_le (h.versions v _ hold)
      | created _ hcreated _ => exact hcreated.le

/-! ## Section 3: What a run does to the times -/

/-- The store has moved on from a state at the time `now`. -/
structure Later (now : DateTime) (g g' : Inner) : Prop where
  store : g.Extends g'
  file : ∀ id file, g'.files.lookup id = some file → g.files.lookup id = none →
    now ≤ file.createdAt
  version : ∀ v row, g'.versions.lookup v = some row → g.versions.lookup v = none →
    now ≤ row.createdAt
  changed : ∀ id before file, g.files.lookup id = some before →
    g'.files.lookup id = some file → file = before ∨ now ≤ file.modifiedAt ∧
      ∃ v, file.currentVersionId = some v ∧ ¬ g.IsCommitted v

theorem Later.refl (now : DateTime) (g : Inner) : Later now g g where
  store := .refl g
  file := fun id file hfile hnone => by
    rw [hfile] at hnone
    cases hnone
  version := fun v row hrow hnone => by
    rw [hrow] at hnone
    cases hnone
  changed := fun id before file hbefore hfile => by
    rw [hbefore] at hfile
    cases hfile
    exact .inl rfl

theorem Later.trans {g₁ g₂ g₃ : Inner} (h₁ : Later now g₁ g₂) (h₂ : Later now' g₂ g₃)
    (hle : now ≤ now') : Later now g₁ g₃ where
  store := h₁.store.trans h₂.store
  file := fun id file hfile hnone => by
    cases hmid : g₂.files.lookup id with
    | none => exact hle.trans (h₂.file id file hfile hmid)
    | some mid =>
      obtain ⟨file', hfile', hev⟩ := h₂.store.files id mid hmid
      rw [hfile] at hfile'
      cases hfile'
      rw [hev.createdAt]
      exact h₁.file id mid hmid hnone
  version := fun v row hrow hnone => by
    cases hmid : g₂.versions.lookup v with
    | none => exact hle.trans (h₂.version v row hrow hmid)
    | some mid =>
      obtain ⟨row', hrow', hev⟩ := h₂.store.versions v mid hmid
      rw [hrow] at hrow'
      cases hrow'
      rw [hev.createdAt]
      exact h₁.version v mid hmid hnone
  changed := fun id before file hbefore hfile => by
    obtain ⟨mid, hmid, _⟩ := h₁.store.files id before hbefore
    rcases h₂.changed id mid file hmid hfile with rfl | ⟨htime, v, hv, hnot⟩
    · exact h₁.changed id before file hbefore hmid
    · -- what was not committed then was not committed before
      exact .inr ⟨hle.trans htime, v, hv, fun hold => hnot (hold.mono h₁.store)⟩

/-- A write after the time `now`. -/
theorem Later.write {env : Env} {op : MetaOp} {a : op.Value} (hinv : MetaInv g)
    (hle : now ≤ env.now) (hw : Writes env g op a g') (hfresh : op.Fresh env g) :
    Later now g g' where
  store := writes_extends hw hfresh
  file := fun id file hfile hnone => by
    cases writes_file hinv hw hfresh hfile with
    | kept hold =>
      rw [hold] at hnone
      cases hnone
    | created _ hcreated _ _ => exact hle.trans_eq hcreated.symm
    | committed hold _ _ =>
      rw [hold] at hnone
      cases hnone
  version := fun v row hrow hnone => by
    cases writes_version hw hrow with
    | kept hold _ =>
      rw [hold] at hnone
      cases hnone
    | created _ hcreated _ => exact hle.trans_eq hcreated.symm
  changed := fun id before file hbefore hfile => by
    cases writes_file hinv hw hfresh hfile with
    | kept hold =>
      rw [hold] at hbefore
      cases hbefore
      exact .inl rfl
    | created hnone _ _ _ =>
      rw [hnone] at hbefore
      cases hbefore
    | committed hold hnot heq =>
      subst heq
      exact .inr ⟨hle, _, rfl, hnot⟩

end timeline

/-! ## Section 4: A server with a clock -/

/-- The stores, and the last time that was read from the clock. -/
structure Clocked where
  state : AppState
  time : DateTime

section clock

variable [Blake3] [UuidCrate]

/-- A call that reads the clock, when the clock does not go back. -/
def StoreOp.TimedStep : Sem StoreI Clocked := fun op c r c' =>
  ∃ env, op.Fresh env c.state ∧ op.exec env c.state = (r, c'.state) ∧ c.time ≤ env.now ∧
    c'.time = env.now

abbrev TimedServer := Pool StoreI Clocked Request (Res Response)

/-- Requests arrive and are handled as on the server. -/
abbrev TimedServer.Steps : TimedServer → TimedServer → Prop :=
  Pool.Steps Api.handle StoreOp.TimedStep

/-- A run from the empty stores, which starts at some time. -/
def TimedServer.Reachable (c : TimedServer) : Prop :=
  ∃ start, TimedServer.Steps ⟨⟨AppState.default, start⟩, []⟩ c

/-- What is kept at every time. -/
structure Clocked.Ok (c : Clocked) : Prop where
  inv : MetaInv c.state.metaStore
  timeline : Timeline c.state.metaStore c.time

/-- The order along which the stores move. -/
structure Clocked.Moves (c c' : Clocked) : Prop where
  time : c.time ≤ c'.time
  later : Later c.time c.state.metaStore c'.state.metaStore

omit [UuidCrate] in
theorem timedStep_ok {op : StoreOp} {c c' : Clocked} {r : Res op.Value} (h : c.Ok)
    (hs : StoreOp.TimedStep op c r c') : c'.Ok ∧ c.Moves c' := by
  obtain ⟨env, hfresh, hexec, hle, htime⟩ := hs
  have hkept : c'.state.metaStore = c.state.metaStore → c'.Ok ∧ c.Moves c' := by
    intro heq
    rw [← htime] at hle
    refine ⟨⟨?_, ?_⟩, hle, ?_⟩
    · rw [heq]
      exact h.inv
    · rw [heq]
      exact h.timeline.mono hle
    · rw [heq]
      exact .refl _ _
  cases op with
  | blobs op =>
    have hstate := congrArg (fun p => p.2.metaStore) hexec
    exact hkept hstate.symm
  | metadata op =>
    have hcall := exec_call env c.state.metaStore op
    have hreply : (op.exec env c.state.metaStore).1 = r := congrArg Prod.fst hexec
    have hstate : (op.exec env c.state.metaStore).2 = c'.state.metaStore :=
      congrArg (fun p => p.2.metaStore) hexec
    rw [hreply, hstate] at hcall
    generalize hg : c'.state.metaStore = g' at hcall hkept
    cases hcall with
    | refused e => exact hkept rfl
    | dangling _ => exact hkept rfl
    | found _ => exact hkept rfl
    | wrote hw =>
      refine ⟨⟨?_, ?_⟩, hle.trans_eq htime.symm, ?_⟩
      · rw [hg]
        exact writes_inv h.inv hw hfresh
      · rw [hg, htime]
        exact (h.timeline.mono hle).write h.inv hw hfresh
      · rw [hg]
        exact .write h.inv hle hw hfresh

theorem steps_ok {c c' : TimedServer} (h : c.store.Ok) (hs : c.Steps c') :
    c'.store.Ok ∧ c.store.Moves c'.store := by
  induction hs with
  | refl => exact ⟨h, le_rfl, .refl _ _⟩
  | tail _ hstep ih =>
    obtain ⟨hok, hmoves⟩ := ih
    cases hstep with
    | arrive req => exact ⟨hok, hmoves⟩
    | call i t op k r s' _ _ hcall =>
      obtain ⟨hok', hmoves'⟩ := timedStep_ok hok hcall
      exact ⟨hok', hmoves.time.trans hmoves'.time,
        hmoves.later.trans hmoves'.later hmoves.time⟩

theorem ok_reachable {c : TimedServer} (h : c.Reachable) : c.store.Ok := by
  obtain ⟨start, hs⟩ := h
  exact (steps_ok ⟨metaInv_new, timeline_new start⟩ hs).1

/-- A call at the time of `env`. -/
def StoreOp.timedExec (env : Env) (op : StoreOp) (c : Clocked) : Res op.Value × Clocked :=
  ((op.exec env c.state).1, ⟨(op.exec env c.state).2, env.now⟩)

/-- Serve the requests one after the other, each in its environment. -/
def TimedServer.serveAll (c : TimedServer) : List (Env × Request) → TimedServer
  | [] => c
  | (env, req) :: rest =>
    TimedServer.serveAll (c.serve Api.handle (StoreOp.timedExec env) req) rest

/-- Each request makes one call, with a fresh id, at a time from now on. -/
def TimedServer.Servable (c : TimedServer) : List (Env × Request) → Prop
  | [] => True
  | (env, req) :: rest => c.store.time ≤ env.now ∧
      (∃ call, Api.metaCall req = some (ok call) ∧ call.op.Fresh env c.store.state.metaStore) ∧
      TimedServer.Servable (c.serve Api.handle (StoreOp.timedExec env) req) rest

theorem TimedServer.steps_serveAll {c : TimedServer} {reqs : List (Env × Request)}
    (h : c.Servable reqs) : c.Steps (c.serveAll reqs) := by
  induction reqs generalizing c with
  | nil => exact .refl
  | cons request rest ih =>
    obtain ⟨env, req⟩ := request
    obtain ⟨hle, ⟨call, hreq, hfresh⟩, hrest⟩ := h
    refine (Pool.steps_serve c req ?_).trans (ih hrest)
    rw [Api.handle_of_metaCall hreq]
    refine ⟨⟨env, hfresh, rfl, hle, rfl⟩, ?_⟩
    generalize (StoreOp.timedExec env (.metadata call.op) c.store).1 = r
    cases r <;> exact trivial

end clock

/-! ### A sample run

    A file is created, and a version of it is committed. -/

namespace Sample

def noChunks : Manifest := ⟨⟨⟨1⟩⟩, 0, 0, [], []⟩

noncomputable def timedServer : TimedServer :=
  letI := blake3
  letI := uuidCrate
  TimedServer.serveAll ⟨⟨AppState.default, ⟨10⟩⟩, []⟩
    [(Env.sample 1 20, .createFile ⟨⟨⟨7⟩⟩, "a.txt", "k1"⟩),
      (Env.sample 2 30, .putManifest manifestPath ⟨noChunks⟩),
      (Env.sample 2 40, .createVersion filePath ⟨v1, none, noChunks.manifestId⟩)]

noncomputable def committedServer : TimedServer :=
  letI := blake3
  letI := uuidCrate
  timedServer.serveAll [(Env.sample 2 50, .commitVersion versionPath)]

theorem timedServer_reachable :
    letI := blake3
    letI := uuidCrate
    timedServer.Reachable := by
  let := blake3
  let := uuidCrate
  refine ⟨⟨10⟩, TimedServer.steps_serveAll ⟨?_, ⟨_, rfl, fun _ => rfl⟩, ?_, ⟨_, rfl, trivial⟩,
    ?_, ⟨_, rfl, trivial⟩, trivial⟩⟩
  · show (10 : Int) ≤ 20
    decide
  · show (20 : Int) ≤ 30
    decide
  · show (30 : Int) ≤ 40
    decide

theorem timedServer_commits :
    letI := blake3
    letI := uuidCrate
    timedServer.Steps committedServer := by
  let := blake3
  let := uuidCrate
  refine TimedServer.steps_serveAll ⟨?_, ⟨_, rfl, trivial⟩, trivial⟩
  show (40 : Int) ≤ 50
  decide

end Sample

/-! ## Section 5: The results -/

/-- **The times are ordered as the history is**, in every run whose clock
    does not go back: a version is not older than its file, its ancestors
    are not younger than it, and the current version of a file was there
    when the file was changed last. -/
theorem times_ordered [Blake3] [UuidCrate] {c : TimedServer} (h : c.Reachable) :
    Timeline c.store.state.metaStore c.store.time ∧
      ∀ a v ra rv, c.store.state.metaStore.Ancestor a v →
        c.store.state.metaStore.versions.lookup a = some ra →
          c.store.state.metaStore.versions.lookup v = some rv → ra.createdAt ≤ rv.createdAt := by
  obtain ⟨hinv, htimes⟩ := ok_reachable h
  refine ⟨htimes, fun a v ra rv hanc => ?_⟩
  induction hanc generalizing rv with
  | single hp =>
    intro hra hrv
    obtain ⟨row, hrow, hparent⟩ := hp
    rw [hrv] at hrow
    cases hrow
    exact htimes.parent _ rv a ra hrv hparent hra
  | @tail b v hab hp ih =>
    intro hra hrv
    obtain ⟨_, rb, _, hrb, _⟩ := ancestor_fileId hinv hab
    obtain ⟨row, hrow, hparent⟩ := hp
    rw [hrv] at hrow
    cases hrow
    exact (ih rb hra hrb).trans (htimes.parent v rv b rb hrv hparent hrb)

/-- The sample run, at its end. -/
theorem times_ordered_sample :
    Timeline Sample.committedServer.store.state.metaStore Sample.committedServer.store.time ∧
      ∀ a v ra rv, Sample.committedServer.store.state.metaStore.Ancestor a v →
        Sample.committedServer.store.state.metaStore.versions.lookup a = some ra →
          Sample.committedServer.store.state.metaStore.versions.lookup v = some rv →
            ra.createdAt ≤ rv.createdAt := by
  let := Sample.blake3
  let := Sample.uuidCrate
  obtain ⟨start, hs⟩ := Sample.timedServer_reachable
  exact times_ordered ⟨start, hs.trans Sample.timedServer_commits⟩

/-- **A change shows in the times.** Along a run whose clock does not go
    back, a new row is not older than what came before, and the row of a
    file is the same as before unless it has another current version; then
    it was changed no earlier than anything that was read before. -/
theorem times_advance [Blake3] [UuidCrate] {c c' : TimedServer} (h : c.Reachable)
    (hs : c.Steps c') :
    (∀ id file, c'.store.state.metaStore.files.lookup id = some file →
        c.store.state.metaStore.files.lookup id = none → c.store.time ≤ file.createdAt) ∧
      (∀ v row, c'.store.state.metaStore.versions.lookup v = some row →
        c.store.state.metaStore.versions.lookup v = none → c.store.time ≤ row.createdAt) ∧
      ∀ id before, c.store.state.metaStore.files.lookup id = some before →
        ∃ file, c'.store.state.metaStore.files.lookup id = some file ∧
          before.modifiedAt ≤ file.modifiedAt ∧
          (file.currentVersionId = before.currentVersionId → file = before) ∧
          (file.currentVersionId ≠ before.currentVersionId →
            c.store.time ≤ file.modifiedAt) := by
  obtain ⟨hinv, htimes⟩ := ok_reachable h
  have hlater := (steps_ok ⟨hinv, htimes⟩ hs).2.later
  refine ⟨hlater.file, hlater.version, fun id before hbefore => ?_⟩
  obtain ⟨file, hfile, _⟩ := hlater.store.files id before hbefore
  refine ⟨file, hfile, ?_⟩
  rcases hlater.changed id before file hbefore hfile with rfl | ⟨htime, v, hv, hnot⟩
  · exact ⟨le_rfl, fun _ => rfl, fun hne => absurd rfl hne⟩
  · refine ⟨(htimes.files id before hbefore).2.trans htime, fun heq => ?_, fun _ => htime⟩
    -- a version that was current before was committed before
    rw [hv] at heq
    obtain ⟨row, hrow, hok⟩ := (hinv.files id before hbefore).current v heq.symm
    exact absurd ⟨row, hrow, (validateFileCurrentVersion_eq_ok.mp hok).2.2⟩ hnot

/-- The commit of the sample run gives its file another current version. -/
theorem times_advance_sample :
    ∃ before file, Sample.timedServer.store.state.metaStore.files.lookup Sample.file =
        some before ∧
      Sample.committedServer.store.state.metaStore.files.lookup Sample.file = some file ∧
        before.modifiedAt ≤ file.modifiedAt ∧
          (file.currentVersionId = before.currentVersionId → file = before) ∧
            (file.currentVersionId ≠ before.currentVersionId →
              Sample.timedServer.store.time ≤ file.modifiedAt) := by
  let := Sample.blake3
  let := Sample.uuidCrate
  have hbefore : ∃ before,
      Sample.timedServer.store.state.metaStore.files.lookup Sample.file = some before :=
    Option.isSome_iff_exists.mp (by decide +kernel)
  obtain ⟨before, hbefore⟩ := hbefore
  obtain ⟨file, hfile, htimes⟩ :=
    (times_advance Sample.timedServer_reachable Sample.timedServer_commits).2.2 _ before hbefore
  exact ⟨before, file, hbefore, hfile, htimes⟩

end Space
