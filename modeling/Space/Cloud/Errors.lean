import Space.Cloud.Api
import Space.Contracts.Uuid

/-! # The errors of the server

    Every error that a request can be answered with is made by
    `SpaceError::new`: it has a code and a text, and neither ids nor a
    cause. -/

namespace Space

open Rust Outcome Effects

/-! ## Section 1: The stores -/

theorem BlobOp.raises_bare [Blake3] (op : BlobOp) (s : FakeObjectStore) :
    (op.exec s).1.Raises SpaceError.Bare := by
  have hbare := SpaceError.bare_new
  cases op with
  | put id bytes =>
    show (s.put id bytes).1.Raises _
    unfold FakeObjectStore.put
    split
    · exact raises_err.mpr (hbare _ _)
    · split
      · split
        · exact raises_ok _
        · exact raises_err.mpr (hbare _ _)
      · exact raises_ok _
  | get id =>
    refine (Checks.bind (checks_okOr (hbare _ _)) fun obj => ?_).raises
    refine Checks.bind (checks_rejectIf (hbare _ _)) fun _ => ?_
    exact checks_ok _
  | getRange id offset length => exact (FakeObjectStore.getRange_checks offset length).raises
  | head id => exact (Checks.bind (checks_okOr (hbare _ _)) fun obj => checks_ok _).raises
  | «exists» id => exact raises_ok _

/-- What `commit_version` raises is never `INVALID_PARAMETER`. -/
theorem Inner.commitVersion_raises (env : Env) (g : Inner) (v : VersionId) :
    (g.commitVersion env v).1.Raises fun e => e.Bare ∧ e.code ≠ .invalidParameter := by
  unfold Inner.commitVersion
  have hversion : (okOr (g.versions.lookup v) (Inner.notFound .versionNotFound "version")).Checks
      fun e => e.Bare ∧ e.code ≠ .invalidParameter :=
    checks_okOr ⟨SpaceError.bare_new _ _, by decide⟩
  refine raises_tryAt hversion.raises fun version _ => ?_
  split
  · exact raises_ok _
  · exact raises_tryAt (Inner.checkCommit_checks version).raises fun _ _ => raises_ok _

theorem MetaOp.raises_bare (env : Env) (op : MetaOp) (g : Inner) :
    (op.exec env g).1.Raises SpaceError.Bare := by
  have hbare := SpaceError.bare_new
  cases op with
  | createFile parentId name key =>
    show (g.createFile env parentId name key).1.Raises _
    -- an index entry without its file is a panic
    unfold Inner.createFile
    split
    · exact raises_err.mpr (hbare _ _)
    · split
      · split
        · exact raises_ok _
        · exact raises_panic
      · exact raises_ok _
  | getFile fileId => exact (checks_okOr (hbare _ _)).raises
  | listChildren dirId => exact raises_ok _
  | registerChunk chunkId size =>
    have hparse := (ChunkId.checks_parse chunkId.str).mono fun _ h => h.bare
    refine raises_tryAt hparse.raises fun _ _ => ?_
    split
    · split
      · exact raises_err.mpr (hbare _ _)
      · exact raises_ok _
    · exact raises_ok _
  | putManifest m =>
    exact raises_tryAt (Inner.checkManifest_checks m).raises fun _ _ => raises_ok _
  | getManifest manifestId => exact (checks_okOr (hbare _ _)).raises
  | createVersion fileId versionId parent manifestId =>
    refine raises_tryAt (Inner.checkRefs_checks fileId parent manifestId).raises fun _ _ => ?_
    split
    · split
      · exact raises_ok _
      · exact raises_err.mpr (hbare _ _)
    · exact raises_ok _
  | commitVersion versionId =>
    exact (Inner.commitVersion_raises env g versionId).mono fun _ h => h.1
  | getCurrentVersion versionId =>
    show (g.getCurrentVersion versionId).Raises _
    unfold Inner.getCurrentVersion
    split
    · split
      · exact raises_ok _
      · exact raises_err.mpr (hbare _ _)
    · exact raises_err.mpr (hbare _ _)

/-- The length of a range is computed, or the computation panics. -/
theorem rangeLength_raises {P : SpaceError → Prop} (start endInclusive : UInt64) :
    (rangeLength start endInclusive).Raises P := by
  -- neither subtraction nor addition has an error to raise
  have hsub : (subU64 endInclusive start).Raises P := by
    unfold subU64
    split
    · exact raises_ok _
    · exact raises_panic
  have hadd : ∀ d, (addU64 d 1).Raises P := by
    intro d
    unfold addU64
    split
    · exact raises_ok _
    · exact raises_panic
  exact hsub.bind fun d => (hadd d).bind fun n => raises_ok _

/-- A reply of the stores whose error is bare. -/
def StoreOp.BareReply (op : StoreOp) (r : Res op.Value) : Prop := r.Raises SpaceError.Bare

/-! ## Section 2: The handlers -/

variable [UuidCrate]

theorem parseTagged_raises {α : Type} (tag : String) (mk : Uuid → α) (s : String) :
    (parseTagged tag mk s).Raises SpaceError.Bare :=
  ((checks_parseTagged tag mk s).mono fun _ h => h.bare).raises

/-- What a handler decides before its call raises bare errors. -/
theorem Api.metaCall_raises {req : Request} {x : Res Api.MetaCall} (h : Api.metaCall req = some x) :
    x.Raises SpaceError.Bare := by
  cases req with
  | createFile req =>
    cases h
    exact raises_ok _
  | statFile text =>
    cases h
    exact (parseTagged_raises "f_" FileId.mk text).bind fun _ => raises_ok _
  | listChildren text =>
    cases h
    exact (parseTagged_raises "d_" DirectoryId.mk text).bind fun _ => raises_ok _
  | createVersion text req =>
    cases h
    exact (parseTagged_raises "f_" FileId.mk text).bind fun _ => raises_ok _
  | commitVersion text =>
    cases h
    exact (parseTagged_raises "v_" VersionId.mk text).bind fun _ => raises_ok _
  | putManifest text req =>
    cases h
    refine (parseTagged_raises "m_" ManifestId.mk text).bind fun id => ?_
    have hpath : (rejectIf (req.manifest.manifestId != id)
        (SpaceError.invalidParam "manifest_id in path and body disagree")).Raises SpaceError.Bare :=
      (checks_rejectIf (SpaceError.bare_new _ _)).raises
    exact hpath.bind fun _ => raises_ok _
  | getManifest text =>
    cases h
    exact (parseTagged_raises "m_" ManifestId.mk text).bind fun _ => raises_ok _
  | putChunk text body => cases h
  | getChunk text range => cases h

/-- **A handler raises bare errors**, whatever bare errors the stores answer
    with. -/
theorem Api.handle_raises (req : Request) :
    (Api.handle req).Returns StoreOp.BareReply (Raises SpaceError.Bare) := by
  cases hreq : Api.metaCall req with
  | some x =>
    rw [Api.handle_of_metaCall hreq]
    refine Fallible.returns_onOk_raises (Api.metaCall_raises hreq) fun call _ => ?_
    intro r hr
    exact Fallible.returns_onOk_raises hr fun a _ => raises_ok _
  | none =>
    have hbare := SpaceError.bare_new
    have hparse : ∀ text, (ChunkId.parse text).Raises SpaceError.Bare := fun text =>
      ((ChunkId.checks_parse text).mono fun _ h => h.bare).raises
    cases req with
    | putChunk text body =>
      simp only [Api.handle, Api.putChunk, Api.callBlobs, Api.callMeta, Prog.perform,
        ↓Fallible.bind_eq, ↓Fallible.lift_eq, ↓Fallible.pure_eq, Prog.bind_ret, Prog.bind_call]
      refine Fallible.returns_onOk_raises (hparse text) fun id _ => ?_
      intro r hr
      refine Fallible.returns_onOk_raises hr fun _ _ => ?_
      intro r hr
      exact Fallible.returns_onOk_raises hr fun chunk _ => raises_ok _
    | getChunk text range =>
      simp only [Api.handle, Api.getChunk, Api.getChunkRange, Api.callBlobs, Prog.perform,
        ↓Fallible.bind_eq, ↓Fallible.lift_eq, ↓Fallible.pure_eq, Prog.bind_ret, Prog.bind_call]
      refine Fallible.returns_onOk_raises (hparse text) fun id _ => ?_
      intro r hr
      refine Fallible.returns_onOk_raises hr fun size _ => ?_
      cases range with
      | none =>
        intro r hr
        exact Fallible.returns_onOk_raises hr fun bytes _ => raises_ok _
      | some range =>
        refine Fallible.returns_onOk_raises (checks_okOr (hbare _ _)).raises fun p _ => ?_
        -- a range with a length that overflows panics here
        refine Fallible.returns_onOk_raises (rangeLength_raises p.1 p.2) fun length _ => ?_
        intro r hr
        exact Fallible.returns_onOk_raises hr fun bytes _ => raises_ok _
    | _ => cases hreq

/-- **Every error of a request is bare.** -/
theorem Api.serve_raises [Blake3] (env : Env) (req : Request) (s : AppState) :
    (Api.serve env req s).1.Raises SpaceError.Bare := by
  refine (Api.handle_raises req).run ?_ s
  intro op s
  cases op with
  | metadata op => exact op.raises_bare env s.metaStore
  | blobs op => exact op.raises_bare s.blobs

end Space
