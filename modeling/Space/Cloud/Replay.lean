import Space.Cloud.MetadataInvariant

/-! # What a successful write returns

    Four operations can be repeated safely: `create_file` by its key, and
    `register_chunk`, `put_manifest` and `create_version` by the id of their
    object. Each finds out for itself whether the key or id is in use.

    Three of them compare what is stored with what is asked for, and refuse
    a key that stands for something else. `create_file` does not compare: it
    answers with the file that the key stands for, whatever its name and
    directory. -/

namespace Space

open Rust Outcome Data MetaOp

/-- The answer is the object that the call asked for. -/
def MetaOp.Describes (g' : Inner) : (op : MetaOp) → op.Value → Prop
  | .createFile parentId name _, file => file.parentId = parentId ∧ file.name = name
  | .registerChunk chunkId size, chunk => chunk = ⟨chunkId, size⟩
  | .putManifest m, m' => m' = m ∧ g'.getManifest m.manifestId = ok m
  | .createVersion fileId versionId parent manifestId, v =>
    v.fileId = fileId ∧ v.versionId = versionId ∧ v.parentVersionId = parent ∧
      v.manifestId = manifestId
  | _, _ => True

/-- The key or id of the call stands for other content already. -/
def MetaOp.StandsForOther (g : Inner) : MetaOp → Prop
  | .createFile parentId name key => ∃ id file, g.fileIdempotency.lookup key = some id ∧
      g.files.lookup id = some file ∧ ¬ (file.parentId = parentId ∧ file.name = name)
  | .registerChunk chunkId size => ∃ chunk, g.chunks.lookup chunkId = some chunk ∧
      chunk.size ≠ size
  | .putManifest m => ∃ m', g.manifests.lookup m.manifestId = some m' ∧ m' ≠ m
  | .createVersion fileId versionId parent manifestId => ∃ v,
      g.versions.lookup versionId = some v ∧
        ¬ (v.fileId = fileId ∧ v.parentVersionId = parent ∧ v.manifestId = manifestId)
  | _ => False

/-- What the answer to a call should be: the object that was asked for, and an
    error where the key or id stands for another one. -/
structure MetaOp.Faithful (g : Inner) (op : MetaOp) (x : Res op.Value) (g' : Inner) : Prop where
  describes : ∀ a, x = ok a → op.Describes g' a
  refuses : op.StandsForOther g → ∃ e, x = err e

/-- The key of the call, when it is in use already, stands for a file in this
    directory with this name. A call with an illegal name does not get as far
    as its key. -/
def MetaOp.KeyMatches (g : Inner) : MetaOp → Prop
  | .createFile parentId name key => Inner.illegalName name = false →
      ∀ id file, g.fileIdempotency.lookup key = some id → g.files.lookup id = some file →
        file.parentId = parentId ∧ file.name = name
  | _ => True

/-- What is written is what was asked for. -/
theorem describes_of_writes {env : Env} {g g' : Inner} {op : MetaOp} {a : op.Value}
    (hw : Writes env g op a g') : op.Describes g' a := by
  cases hw with
  | file hname hkey => exact ⟨rfl, rfl⟩
  | chunk hwf hl => rfl
  | @manifest m hvalid hreg hl =>
    have hnew : (g.addManifest m).manifests.lookup m.manifestId = some m := Finmap.lookup_insert _
    exact ⟨rfl, okOr_eq_ok.mpr hnew⟩
  | version hrefs hl => exact ⟨rfl, rfl, rfl, rfl⟩
  | commit hl hc => trivial

/-- What is found is what was asked for, provided that the key matches. -/
theorem describes_of_holds {env : Env} {g : Inner} {op : MetaOp} {a : op.Value} (hinv : MetaInv g)
    (h : op.Holds env g a) (hkey : op.KeyMatches g) : op.Describes g a := by
  cases op with
  | createFile parentId name key =>
    obtain ⟨hname, id, hid, hfile⟩ := h
    exact hkey hname id a hid hfile
  | registerChunk chunkId size =>
    obtain ⟨_, hl, hsize⟩ := h
    have hid : a.chunkId = chunkId := hinv.chunks chunkId a hl
    show a = ⟨chunkId, size⟩
    rw [← hid, ← hsize]
  | putManifest m =>
    obtain ⟨ha, _, _, hl⟩ := h
    exact ⟨ha, okOr_eq_ok.mpr hl⟩
  | createVersion fileId versionId parent manifestId =>
    obtain ⟨_, hl, hfile, hparent, hmanifest⟩ := h
    have hid : a.versionId = versionId := (hinv.versions versionId a hl).id
    exact ⟨hfile, hid, hparent, hmanifest⟩
  | _ => trivial

/-- A key or id that stands for something else is not written to. -/
theorem not_standsForOther_of_writes {env : Env} {g g' : Inner} {op : MetaOp} {a : op.Value}
    (hw : Writes env g op a g') : ¬ op.StandsForOther g := by
  intro hother
  cases hw with
  | file hname hkey =>
    obtain ⟨id, file, hid, _, _⟩ := hother
    rw [hkey] at hid
    cases hid
  | chunk hwf hl =>
    obtain ⟨chunk, hchunk, _⟩ := hother
    rw [hl] at hchunk
    cases hchunk
  | manifest hvalid hreg hl =>
    obtain ⟨m', hm', _⟩ := hother
    rw [hl] at hm'
    cases hm'
  | version hrefs hl =>
    obtain ⟨v, hv, _⟩ := hother
    rw [hl] at hv
    cases hv
  | commit hl hc => exact hother

/-- Nor is it answered with, provided that the key matches. -/
theorem not_standsForOther_of_holds {env : Env} {g : Inner} {op : MetaOp} {a : op.Value}
    (h : op.Holds env g a) (hkey : op.KeyMatches g) : ¬ op.StandsForOther g := by
  intro hother
  cases op with
  | createFile parentId name key =>
    obtain ⟨id, file, hid, hfile, hne⟩ := hother
    exact hne (hkey h.1 id file hid hfile)
  | registerChunk chunkId size =>
    obtain ⟨_, hl, hsize⟩ := h
    obtain ⟨chunk, hchunk, hne⟩ := hother
    rw [hl] at hchunk
    cases hchunk
    exact hne hsize
  | putManifest m =>
    obtain ⟨_, _, _, hl⟩ := h
    obtain ⟨m', hm', hne⟩ := hother
    rw [hl] at hm'
    cases hm'
    exact hne rfl
  | createVersion fileId versionId parent manifestId =>
    obtain ⟨_, hl, hsame⟩ := h
    obtain ⟨v, hv, hne⟩ := hother
    rw [hl] at hv
    cases hv
    exact hne hsame
  | _ => exact hother

/-- The only way not to find what was asked for. -/
theorem keyMatches_of_faithful {env : Env} {g : Inner} {op : MetaOp}
    (h : op.Faithful g (op.exec env g).1 (op.exec env g).2) : op.KeyMatches g := by
  cases op with
  | createFile parentId name key =>
    intro hname id file hid hfile
    -- the replay answers with this file
    have hholds : (MetaOp.createFile parentId name key).Holds env g file :=
      ⟨hname, id, hid, hfile⟩
    exact h.describes file (congrArg Prod.fst (exec_of_holds hholds))
  | _ => trivial

/-- **An idempotent write describes what was asked for when it succeeds, and
    refuses a key or id that stands for something else, exactly when** it is
    no `create_file` under the key of another file. -/
theorem write_describes_iff {g : Inner} (h : g.Reachable) (env : Env) (op : MetaOp) :
    op.Faithful g (op.exec env g).1 (op.exec env g).2 ↔ op.KeyMatches g := by
  constructor
  · exact keyMatches_of_faithful
  · intro hkey
    have hcall := exec_call env g op
    have hpanic := exec_ne_panic (reachable_inv h) env op
    generalize (op.exec env g).1 = x at hcall hpanic ⊢
    generalize (op.exec env g).2 = g' at hcall ⊢
    cases hcall with
    | refused e =>
      constructor
      · intro a ha
        cases ha
      · exact fun _ => ⟨e, rfl⟩
    | dangling => exact absurd rfl hpanic
    | found hholds =>
      constructor
      · intro a ha
        cases ha
        exact describes_of_holds (reachable_inv h) hholds hkey
      · exact fun hother => absurd hother (not_standsForOther_of_holds hholds hkey)
    | wrote hw =>
      constructor
      · intro a ha
        cases ha
        exact describes_of_writes hw
      · exact fun hother => absurd hother (not_standsForOther_of_writes hw)

/-- A `create_file` under the key that the sample run used for `a.txt`. -/
def Sample.reuse (name : String) : MetaOp := .createFile ⟨⟨7⟩⟩ name "k1"

/-- Under its own name the key answers with its file. -/
theorem write_describes_iff_sample :
    (Sample.reuse "a.txt").Faithful (Inner.new.runCalls Sample.calls)
      ((Sample.reuse "a.txt").exec (Env.sample 3 70) (Inner.new.runCalls Sample.calls)).1
      ((Sample.reuse "a.txt").exec (Env.sample 3 70) (Inner.new.runCalls Sample.calls)).2 ↔
      (Sample.reuse "a.txt").KeyMatches (Inner.new.runCalls Sample.calls) :=
  write_describes_iff (reachable_runCalls .refl Sample.calls_fresh) (Env.sample 3 70) _

/-- Under another name it answers with the same file, which is then not what
    was asked for. -/
theorem create_answers_with_other_file :
    ¬ ∀ g : Inner, g.Reachable → ∀ (env : Env) (op : MetaOp),
      op.Faithful g (op.exec env g).1 (op.exec env g).2 := by
  intro h
  have hreach : (Inner.new.runCalls Sample.calls).Reachable :=
    reachable_runCalls .refl Sample.calls_fresh
  have hkey : (Inner.new.runCalls Sample.calls).fileIdempotency.lookup "k1" =
      some Sample.file := by decide
  have hname : ((Inner.new.runCalls Sample.calls).files.lookup Sample.file).map File.name =
      some "a.txt" := by decide
  obtain ⟨file, hl⟩ := (reachable_inv hreach).keys "k1" Sample.file hkey
  have hholds : (Sample.reuse "b.txt").Holds (Env.sample 3 70)
      (Inner.new.runCalls Sample.calls) file := ⟨by decide, Sample.file, hkey, hl⟩
  have hdesc := (h _ hreach (Env.sample 3 70) (Sample.reuse "b.txt")).describes file
    (congrArg Prod.fst (exec_of_holds hholds))
  have hother : file.name = "b.txt" := hdesc.2
  rw [hl, Option.map_some, hother] at hname
  exact absurd hname (by decide)

end Space
