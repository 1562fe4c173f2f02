import Space.Cloud.Metadata

/-! # What a call of the metadata store can do

    `exec_call` is the one inversion lemma of the store: a call is refused
    and changes nothing, or it finds what it asks for, or it writes one new
    fact. There are five kinds of write. Every invariant in the files after
    this one is proved by cases on them.

    `Holds` is the other half of idempotency: it says when a call finds its
    object in place, and `exec_of_holds` that such a call only returns it. -/

namespace Space

open Rust Outcome Data

/-! ## Section 1: The ways a call can end -/

/-- The chunks of `m` are registered with the sizes `m` declares. -/
def Inner.Registered (g : Inner) (m : Manifest) : Prop :=
  ∀ c ∈ m.chunks, ∃ reg, g.chunks.lookup c.chunkId = some reg ∧ reg.size = c.size

/-- The objects a version of `fileId` refers to exist. -/
structure Inner.Refs (g : Inner) (fileId : FileId) (parent : Option VersionId)
    (manifestId : ManifestId) : Prop where
  file : ∃ f, g.files.lookup fileId = some f
  manifest : ∃ m, g.manifests.lookup manifestId = some m
  parent : ∀ p, parent = some p → ∃ row, g.versions.lookup p = some row ∧ row.fileId = fileId

namespace MetaOp

/-- The store holds what the call asks for, and the call returns `a`. -/
def Holds (env : Env) (g : Inner) : (op : MetaOp) → op.Value → Prop
  | createFile _ name key, file => Inner.illegalName name = false ∧
      ∃ id, g.fileIdempotency.lookup key = some id ∧ g.files.lookup id = some file
  | getFile fileId, file => g.files.lookup fileId = some file
  | listChildren dirId, files => files = g.listChildren env dirId
  | registerChunk chunkId size, chunk => chunkId.WellFormed ∧
      g.chunks.lookup chunkId = some chunk ∧ chunk.size = size
  | putManifest m, m' => m' = m ∧ validateManifest m = ok () ∧ g.Registered m ∧
      g.manifests.lookup m.manifestId = some m
  | getManifest manifestId, m => g.manifests.lookup manifestId = some m
  | createVersion fileId versionId parent manifestId, v => g.Refs fileId parent manifestId ∧
      g.versions.lookup versionId = some v ∧ v.fileId = fileId ∧ v.parentVersionId = parent ∧
        v.manifestId = manifestId
  | commitVersion versionId, v => g.versions.lookup versionId = some v ∧ v.state = .committed
  | getCurrentVersion versionId, v => g.versions.lookup versionId = some v ∧ v.state = .committed

/-- The five writes: the call, its reply, and the state after it. -/
inductive Writes (env : Env) (g : Inner) : (op : MetaOp) → op.Value → Inner → Prop where
  | file {parentId : DirectoryId} {name key : String} :
      Inner.illegalName name = false → g.fileIdempotency.lookup key = none →
      Writes env g (.createFile parentId name key) (Inner.freshFile env parentId name)
        (g.addFile key (Inner.freshFile env parentId name))
  | chunk {chunkId : ChunkId} {size : UInt64} :
      chunkId.WellFormed → g.chunks.lookup chunkId = none →
      Writes env g (.registerChunk chunkId size) ⟨chunkId, size⟩ (g.addChunk ⟨chunkId, size⟩)
  | manifest {m : Manifest} :
      validateManifest m = ok () → g.Registered m → g.manifests.lookup m.manifestId = none →
      Writes env g (.putManifest m) m (g.addManifest m)
  | version {fileId : FileId} {versionId : VersionId} {parent : Option VersionId}
      {manifestId : ManifestId} :
      g.Refs fileId parent manifestId → g.versions.lookup versionId = none →
      Writes env g (.createVersion fileId versionId parent manifestId)
        (Inner.freshVersion env fileId versionId parent manifestId)
        (g.addVersion (Inner.freshVersion env fileId versionId parent manifestId))
  | commit {versionId : VersionId} {version : Version} :
      g.versions.lookup versionId = some version → version.state = .candidate →
      Writes env g (.commitVersion versionId) { version with state := .committed }
        (g.commit env versionId version)

/-- The map index of `create_file` would panic: the key is known and its
    file is missing. -/
def Dangling (g : Inner) : MetaOp → Prop
  | createFile _ _ key => ∃ id, g.fileIdempotency.lookup key = some id ∧ g.files.lookup id = none
  | _ => False

/-- How a call can end. -/
inductive Call (env : Env) (g : Inner) (op : MetaOp) : Res op.Value → Inner → Prop where
  | refused (e : SpaceError) : Call env g op (err e) g
  | dangling : Dangling g op → Call env g op panic g
  | found {a : op.Value} : Holds env g op a → Call env g op (ok a) g
  | wrote {a : op.Value} {g' : Inner} : Writes env g op a g' → Call env g op (ok a) g'

end MetaOp

/-! ## Section 2: The checks of the store -/

namespace Inner

variable {g : Inner}

theorem checkRegistered_eq_ok {m : Manifest} : g.checkRegistered m = ok () ↔ g.Registered m := by
  unfold checkRegistered Registered
  rw [forM_eq_ok]
  refine forall₂_congr fun c _ => ?_
  cases g.chunks.lookup c.chunkId with
  | none => simp
  | some reg => simp

theorem checkManifest_eq_ok {m : Manifest} : g.checkManifest m = ok () ↔
    validateManifest m = ok () ∧ g.Registered m ∧
      (g.manifests.lookup m.manifestId = none ∨ g.manifests.lookup m.manifestId = some m) := by
  unfold checkManifest checkSameContent
  rw [seq_eq_ok, seq_eq_ok, checkRegistered_eq_ok]
  refine and_congr_right fun _ => and_congr_right fun _ => ?_
  cases g.manifests.lookup m.manifestId with
  | none => simp
  | some existing => simp

theorem checkManifest_checks (m : Manifest) : (g.checkManifest m).Checks SpaceError.Bare := by
  have hbare := SpaceError.bare_new
  refine Checks.bind (validateManifest_checks_of (fun _ => hbare _ _) m) fun _ => ?_
  refine Checks.bind (checks_forM fun c => ?_) fun _ => ?_
  · cases g.chunks.lookup c.chunkId with
    | none => exact checks_err.mpr (hbare _ _)
    | some reg => exact checks_rejectIf (hbare _ _)
  · unfold checkSameContent
    cases g.manifests.lookup m.manifestId with
    | none => exact checks_ok ()
    | some existing => exact checks_rejectIf (hbare _ _)

theorem checkParent_eq_ok {fileId : FileId} {parent : Option VersionId} :
    g.checkParent fileId parent = ok () ↔
      ∀ p, parent = some p → ∃ row, g.versions.lookup p = some row ∧ row.fileId = fileId := by
  unfold checkParent
  cases parent with
  | none => simp
  | some p =>
    cases hp : g.versions.lookup p with
    | none => simp [hp]
    | some row => simp [hp]

theorem checkRefs_eq_ok {fileId : FileId} {parent : Option VersionId} {manifestId : ManifestId} :
    g.checkRefs fileId parent manifestId = ok () ↔ g.Refs fileId parent manifestId := by
  unfold checkRefs
  rw [seq_eq_ok, seq_eq_ok, checkParent_eq_ok, rejectIf_eq_ok, rejectIf_eq_ok,
    Option.isNone_eq_false_iff, Option.isNone_eq_false_iff, Option.isSome_iff_exists,
    Option.isSome_iff_exists]
  exact ⟨fun ⟨hf, hm, hp⟩ => ⟨hf, hm, hp⟩, fun h => ⟨h.file, h.manifest, h.parent⟩⟩

theorem checkRefs_checks (fileId : FileId) (parent : Option VersionId) (manifestId : ManifestId) :
    (g.checkRefs fileId parent manifestId).Checks SpaceError.Bare := by
  have hbare := SpaceError.bare_new
  refine Checks.bind (checks_rejectIf (hbare _ _)) fun _ => ?_
  refine Checks.bind (checks_rejectIf (hbare _ _)) fun _ => ?_
  unfold checkParent
  cases parent with
  | none => exact checks_ok ()
  | some p =>
    dsimp only
    cases g.versions.lookup p with
    | none => exact checks_err.mpr (hbare _ _)
    | some row => exact checks_rejectIf (hbare _ _)

/-- A commit never blames its parameters. -/
theorem checkCommit_checks (version : Version) : (g.checkCommit version).Checks fun e =>
    e.Bare ∧ e.code ≠ .invalidParameter := by
  have hinvalid : ∀ msg, (invalid msg).Bare ∧ (invalid msg).code ≠ .invalidParameter :=
    fun msg => ⟨SpaceError.bare_new _ msg, by simp [invalid]⟩
  refine Checks.bind (checks_rejectIf (hinvalid _)) fun _ => ?_
  refine Checks.bind (checks_okOr ⟨SpaceError.bare_new _ _, by decide⟩) fun m => ?_
  exact validateManifest_checks_of hinvalid m

end Inner

/-! ## Section 3: One lemma per writing method -/

open MetaOp

theorem createFile_call (env : Env) (g : Inner) (parentId : DirectoryId) (name key : String) :
    Call env g (.createFile parentId name key) (g.createFile env parentId name key).1
      (g.createFile env parentId name key).2 := by
  unfold Inner.createFile
  cases hname : Inner.illegalName name with
  | true => exact .refused _
  | false =>
    cases hkey : g.fileIdempotency.lookup key with
    | none => exact .wrote (.file hname hkey)
    | some id =>
      cases hfile : g.files.lookup id with
      | none =>
        simp only [hfile, Bool.false_eq_true, if_false]
        exact .dangling ⟨id, hkey, hfile⟩
      | some file =>
        simp only [hfile, Bool.false_eq_true, if_false]
        exact .found ⟨hname, id, hkey, hfile⟩

theorem registerChunk_call (env : Env) (g : Inner) (chunkId : ChunkId) (size : UInt64) :
    Call env g (.registerChunk chunkId size) (g.registerChunk chunkId size).1
      (g.registerChunk chunkId size).2 := by
  unfold Inner.registerChunk
  rcases (ChunkId.checks_parse chunkId.str).tryAt_cases g _ with ⟨id, hid, heq⟩ | ⟨e, _, heq⟩
  · rw [heq]
    have hwf : chunkId.WellFormed := (ChunkId.parse_eq_ok.mp hid).2
    cases hl : g.chunks.lookup chunkId with
    | none => exact .wrote (.chunk hwf hl)
    | some existing =>
      by_cases hsize : existing.size = size
      · simp only [hsize, bne_self_eq_false, Bool.false_eq_true, if_false]
        exact .found ⟨hwf, hl, hsize⟩
      · simp only [bne_iff_ne, ne_eq, hsize, not_false_eq_true, if_true]
        exact .refused _
  · rw [heq]
    exact .refused e

theorem putManifest_call (env : Env) (g : Inner) (m : Manifest) :
    Call env g (.putManifest m) (g.putManifest m).1 (g.putManifest m).2 := by
  unfold Inner.putManifest
  rcases (Inner.checkManifest_checks m).tryAt_cases g _ with ⟨_, hok, heq⟩ | ⟨e, _, heq⟩
  · rw [heq]
    obtain ⟨hvalid, hreg, hnone | hsome⟩ := Inner.checkManifest_eq_ok.mp hok
    · exact .wrote (.manifest hvalid hreg hnone)
    · -- the insert puts back the row that is there
      have hself : g.addManifest m = g := by
        unfold Inner.addManifest
        rw [Table.insert_eq_self hsome]
      rw [hself]
      exact .found ⟨rfl, hvalid, hreg, hsome⟩
  · rw [heq]
    exact .refused e

theorem createVersion_call (env : Env) (g : Inner) (fileId : FileId) (versionId : VersionId)
    (parent : Option VersionId) (manifestId : ManifestId) :
    Call env g (.createVersion fileId versionId parent manifestId)
      (g.createVersion env fileId versionId parent manifestId).1
      (g.createVersion env fileId versionId parent manifestId).2 := by
  unfold Inner.createVersion
  rcases (Inner.checkRefs_checks fileId parent manifestId).tryAt_cases g _ with
    ⟨_, hok, heq⟩ | ⟨e, _, heq⟩
  · rw [heq]
    have hrefs := Inner.checkRefs_eq_ok.mp hok
    cases hl : g.versions.lookup versionId with
    | none => exact .wrote (.version hrefs hl)
    | some existing =>
      by_cases hsame : existing.fileId = fileId ∧ existing.parentVersionId = parent ∧
          existing.manifestId = manifestId
      · simp only [hsame, and_self, if_true]
        exact .found ⟨hrefs, hl, hsame⟩
      · simp only [hsame, if_false]
        exact .refused _
  · rw [heq]
    exact .refused e

theorem commitVersion_call (env : Env) (g : Inner) (versionId : VersionId) :
    Call env g (.commitVersion versionId) (g.commitVersion env versionId).1
      (g.commitVersion env versionId).2 := by
  unfold Inner.commitVersion
  cases hl : g.versions.lookup versionId with
  | none => exact .refused _
  | some version =>
    rw [okOr_some, tryAt_ok]
    by_cases hstate : version.state = .committed
    · rw [if_pos hstate]
      exact .found ⟨hl, hstate⟩
    · rw [if_neg hstate]
      rcases (Inner.checkCommit_checks version).tryAt_cases g _ with ⟨_, _, heq⟩ | ⟨e, _, heq⟩
      · rw [heq]
        have hcand : version.state = .candidate := by
          cases hs : version.state with
          | candidate => rfl
          | committed => exact absurd hs hstate
        exact .wrote (.commit hl hcand)
      · rw [heq]
        exact .refused e

theorem getCurrentVersion_eq_ok {g : Inner} {versionId : VersionId} {v : Version} :
    g.getCurrentVersion versionId = ok v ↔
      g.versions.lookup versionId = some v ∧ v.state = .committed := by
  unfold Inner.getCurrentVersion
  cases g.versions.lookup versionId with
  | none => simp
  | some row =>
    by_cases hstate : row.state = .committed
    · simp only [if_pos hstate, ok.injEq, Option.some.injEq]
      exact ⟨fun h => ⟨h, h ▸ hstate⟩, fun h => h.1⟩
    · simp only [if_neg hstate, reduceCtorEq, Option.some.injEq, false_iff]
      rintro ⟨rfl, h⟩
      exact hstate h

theorem getCurrentVersion_call (env : Env) (g : Inner) (versionId : VersionId) :
    Call env g (.getCurrentVersion versionId) (g.getCurrentVersion versionId) g := by
  unfold Inner.getCurrentVersion
  cases hl : g.versions.lookup versionId with
  | none => exact .refused _
  | some v =>
    by_cases hstate : v.state = .committed
    · simp only [if_pos hstate]
      exact .found ⟨hl, hstate⟩
    · simp only [if_neg hstate]
      exact .refused _

/-- **What a call can do.** -/
theorem exec_call (env : Env) (g : Inner) (op : MetaOp) :
    Call env g op (op.exec env g).1 (op.exec env g).2 := by
  cases op with
  | createFile parentId name key => exact createFile_call env g parentId name key
  | getFile fileId =>
    show Call env g (.getFile fileId) (g.getFile fileId) g
    unfold Inner.getFile
    cases hl : g.files.lookup fileId with
    | none => exact .refused _
    | some file => exact .found hl
  | listChildren dirId =>
    show Call env g (.listChildren dirId) (ok (g.listChildren env dirId)) g
    exact .found rfl
  | registerChunk chunkId size => exact registerChunk_call env g chunkId size
  | putManifest m => exact putManifest_call env g m
  | getManifest manifestId =>
    show Call env g (.getManifest manifestId) (g.getManifest manifestId) g
    unfold Inner.getManifest
    cases hl : g.manifests.lookup manifestId with
    | none => exact .refused _
    | some m => exact .found hl
  | createVersion fileId versionId parent manifestId =>
    exact createVersion_call env g fileId versionId parent manifestId
  | commitVersion versionId => exact commitVersion_call env g versionId
  | getCurrentVersion versionId => exact getCurrentVersion_call env g versionId

/-- A call that does not return `Ok` leaves the store as it was. -/
theorem exec_unchanged {env : Env} {g : Inner} {op : MetaOp}
    (h : (op.exec env g).1.isOk = false) : (op.exec env g).2 = g := by
  have hcall := exec_call env g op
  revert h hcall
  generalize (op.exec env g).1 = r
  generalize (op.exec env g).2 = g'
  intro h hcall
  cases hcall with
  | refused e => rfl
  | dangling _ => rfl
  | found _ => rfl
  | wrote _ => cases h

/-- **A call whose object is in place returns it and changes nothing.** -/
theorem exec_of_holds {env : Env} {g : Inner} {op : MetaOp} {a : op.Value}
    (h : op.Holds env g a) : op.exec env g = (ok a, g) := by
  cases op with
  | createFile parentId name key =>
    obtain ⟨hname, id, hkey, hfile⟩ := h
    simp [exec, Inner.createFile, hname, hkey, hfile]
  | getFile fileId =>
    have hl : g.files.lookup fileId = some a := h
    simp [exec, Inner.getFile, hl]
  | listChildren dirId =>
    have ha : a = g.listChildren env dirId := h
    rw [ha]
    rfl
  | registerChunk chunkId size =>
    obtain ⟨hwf, hl, hsize⟩ := h
    simp [exec, Inner.registerChunk, ChunkId.parse_str.mpr hwf, hl, hsize]
  | putManifest m =>
    obtain ⟨ha, hvalid, hreg, hl⟩ := h
    -- the manifest is written again, over itself
    have hok := Inner.checkManifest_eq_ok.mpr ⟨hvalid, hreg, .inr hl⟩
    simp [exec, Inner.putManifest, hok, ha, Inner.addManifest, Table.insert_eq_self hl]
  | getManifest manifestId =>
    have hl : g.manifests.lookup manifestId = some a := h
    simp [exec, Inner.getManifest, hl]
  | createVersion fileId versionId parent manifestId =>
    obtain ⟨hrefs, hl, hsame⟩ := h
    simp [exec, Inner.createVersion, Inner.checkRefs_eq_ok.mpr hrefs, hl, hsame]
  | commitVersion versionId =>
    obtain ⟨hl, hstate⟩ := h
    simp [exec, Inner.commitVersion, hl, hstate]
  | getCurrentVersion versionId =>
    obtain ⟨hl, hstate⟩ := h
    simp [exec, Inner.getCurrentVersion, hl, hstate]

end Space
