import Space.Contracts.ErrorTable
import Space.Cloud.Commits
import Space.Cloud.Conformance

/-! # What an error tells

    The server raises only some of the error codes (`Request.errorCodes`),
    and none of these may be retried (`errors_known`). A client that gets an
    error can therefore tell from its code whether a response has come at
    all (`retryable_iff_lost`). -/

namespace Space

open Rust Outcome Data Effects

/-! ## Section 1: What the stores raise -/

def MetaOp.errorCodes : MetaOp → List ErrorCode
  | .createFile .. => [.invalidParameter]
  | .getFile _ => [.fileNotFound]
  | .listChildren _ => []
  | .registerChunk .. => [.invalidParameter, .integrityChunkIdConflict]
  | .putManifest _ => [.integrityManifestInvalid, .chunkNotFound]
  | .getManifest _ => [.manifestNotFound]
  | .createVersion .. => [.fileNotFound, .manifestNotFound, .versionNotFound,
      .integrityManifestInvalid, .integrityChunkIdConflict]
  | .commitVersion _ => [.versionNotFound]
  | .getCurrentVersion _ => [.versionNotFound]

def BlobOp.errorCodes : BlobOp → List ErrorCode
  | .put .. => [.integrityChunkIdConflict]
  | .get _ => [.chunkNotFound]
  | .getRange .. => [.chunkNotFound, .invalidParameter, .integrityLengthMismatch]
  | .head _ => [.chunkNotFound]
  | .exists _ => []

def StoreOp.errorCodes : StoreOp → List ErrorCode
  | .metadata op => op.errorCodes
  | .blobs op => op.errorCodes

/-- The error has one of the codes. -/
abbrev SpaceError.Among (codes : List ErrorCode) (e : SpaceError) : Prop := e.code ∈ codes

theorem MetaOp.raises_among {g : Inner} (h : MetaInv g) (env : Env) (op : MetaOp) :
    (op.exec env g).1.Raises (SpaceError.Among op.errorCodes) := by
  cases op with
  | createFile parentId name key =>
    show (g.createFile env parentId name key).1.Raises _
    unfold Inner.createFile
    split
    · exact raises_err.mpr (List.mem_singleton.mpr rfl)
    · split
      · split
        · exact raises_ok _
        · -- a key without its file
          exact raises_panic
      · exact raises_ok _
  | getFile fileId => exact Checks.raises (checks_okOr (List.mem_singleton.mpr rfl))
  | listChildren dirId => exact raises_ok _
  | registerChunk chunkId size =>
    have hparse : (ChunkId.parse chunkId.str).Raises
        (SpaceError.Among (MetaOp.registerChunk chunkId size).errorCodes) := by
      refine ((ChunkId.checks_parse chunkId.str).mono fun e he => ?_).raises
      rw [SpaceError.Among, he.code]
      exact List.mem_cons_self
    refine raises_tryAt hparse fun _ _ => ?_
    split
    · split
      · exact raises_err.mpr (List.mem_cons_of_mem _ (List.mem_singleton.mpr rfl))
      · exact raises_ok _
    · exact raises_ok _
  | putManifest m =>
    refine raises_tryAt (Checks.bind ?_ fun _ => Checks.bind ?_ fun _ => ?_).raises
      fun _ _ => raises_ok _
    · exact validateManifest_checks_of (fun _ => List.mem_cons_self) m
    · refine checks_forM fun c => ?_
      cases g.chunks.lookup c.chunkId with
      | none => exact checks_err.mpr (List.mem_cons_of_mem _ (List.mem_singleton.mpr rfl))
      | some reg => exact checks_rejectIf List.mem_cons_self
    · unfold Inner.checkSameContent
      cases g.manifests.lookup m.manifestId with
      | none => exact checks_ok ()
      | some existing => exact checks_rejectIf List.mem_cons_self
  | getManifest manifestId => exact Checks.raises (checks_okOr (List.mem_singleton.mpr rfl))
  | createVersion fileId versionId parent manifestId =>
    have hamong : ∀ code ∈ (MetaOp.createVersion fileId versionId parent manifestId).errorCodes,
        ∀ message, (SpaceError.new code message).Among
          (MetaOp.createVersion fileId versionId parent manifestId).errorCodes :=
      fun _ hcode _ => hcode
    refine raises_tryAt (Checks.bind ?_ fun _ => Checks.bind ?_ fun _ => ?_).raises fun _ _ => ?_
    · exact checks_rejectIf (hamong _ (by simp [errorCodes]) _)
    · exact checks_rejectIf (hamong _ (by simp [errorCodes]) _)
    · unfold Inner.checkParent
      cases parent with
      | none => exact checks_ok ()
      | some p =>
        dsimp only
        cases g.versions.lookup p with
        | none => exact checks_err.mpr (hamong _ (by simp [errorCodes]) _)
        | some row => exact checks_rejectIf (hamong _ (by simp [errorCodes]) _)
    · split
      · split
        · exact raises_ok _
        · exact raises_err.mpr (hamong _ (by simp [errorCodes]) _)
      · exact raises_ok _
  | commitVersion versionId =>
    have hfound : (okOr (g.versions.lookup versionId)
        (Inner.notFound .versionNotFound "version")).Raises
          (SpaceError.Among (MetaOp.commitVersion versionId).errorCodes) :=
      Checks.raises (checks_okOr (List.mem_singleton.mpr rfl))
    refine raises_tryAt hfound fun version hversion => ?_
    split
    · exact raises_ok _
    · -- a candidate passes the checks of a commit
      rename_i hstate
      have hcandidate : version.state = .candidate := by
        cases hs : version.state with
        | candidate => rfl
        | committed => exact absurd hs hstate
      rw [checkCommit_candidate h (okOr_eq_ok.mp hversion) hcandidate]
      exact raises_ok _
  | getCurrentVersion versionId =>
    show (g.getCurrentVersion versionId).Raises _
    unfold Inner.getCurrentVersion
    split
    · split
      · exact raises_ok _
      · exact raises_err.mpr (List.mem_singleton.mpr rfl)
    · exact raises_err.mpr (List.mem_singleton.mpr rfl)

section stores

variable [Blake3]

/-- Bodies that have the hashes they are stored under raise nothing of their
    own. -/
theorem BlobOp.raises_among {s : FakeObjectStore}
    (h : Table.AllRows (fun id obj => id.verify obj = true) s.inner) (op : BlobOp) :
    (op.exec s).1.Raises (SpaceError.Among op.errorCodes) := by
  cases op with
  | put id bytes =>
    show (s.put id bytes).1.Raises _
    rcases FakeObjectStore.put_cases s id bytes with ⟨_, _, heq⟩ | ⟨_, _, heq⟩ | ⟨e, hcode, heq⟩
    · rw [heq]
      exact raises_ok _
    · rw [heq]
      exact raises_ok _
    · rw [heq]
      exact raises_err.mpr (List.mem_singleton.mpr hcode)
  | get id =>
    refine Checks.raises (Checks.bind_of_eq (checks_okOr (List.mem_singleton.mpr rfl)) ?_)
    intro obj hobj
    rw [h id obj (okOr_eq_ok.mp hobj)]
    exact checks_ok _
  | getRange id offset length =>
    have hparam : .invalidParameter ∈ (BlobOp.getRange id offset length).errorCodes := by
      simp [errorCodes]
    have hlength : .integrityLengthMismatch ∈ (BlobOp.getRange id offset length).errorCodes := by
      simp [errorCodes]
    refine Checks.raises (Checks.bind_of_eq (checks_okOr List.mem_cons_self) fun obj hobj => ?_)
    refine Checks.bind_of_eq (checks_okOr hparam) fun stop hstop => ?_
    refine Checks.bind_of_eq (checks_rejectIf hlength) fun _ hle => ?_
    rw [h id obj (okOr_eq_ok.mp hobj), Bool.not_true, Bool.and_false]
    -- after the checks the slice is inside the object
    have hsum := checkedAdd_eq_some.mp (okOr_eq_ok.mp hstop)
    have hbound : stop.toNat ≤ obj.data.length := by
      simpa [UInt64.le_iff_toNat_le] using rejectIf_eq_ok.mp hle
    show (obj.slice offset stop).Checks _
    rw [Bytes.slice_of_le (by omega) hbound]
    exact checks_ok _
  | head id =>
    exact Checks.raises (Checks.bind (checks_okOr (List.mem_singleton.mpr rfl)) fun obj =>
      checks_ok _)
  | «exists» id => exact raises_ok _

/-- A reply of the stores whose error is one of the operation. -/
def StoreOp.KnownReply (op : StoreOp) (r : Res op.Value) : Prop :=
  r.Raises (SpaceError.Among op.errorCodes)

theorem knownReply {op : StoreOp} {s s' : AppState} {r : Res op.Value} (h : AppInv s)
    (hs : StoreOp.Step op s r s') : op.KnownReply r := by
  obtain ⟨env, _, heq⟩ := hs
  cases op with
  | metadata op =>
    cases heq
    exact op.raises_among h.metaStore env
  | blobs op =>
    cases heq
    exact op.raises_among h.verified

end stores

/-! ## Section 2: What the handlers raise -/

/-- The codes that a request can fail with. -/
def Request.errorCodes : Request → List ErrorCode
  | .createFile _ => [.invalidParameter]
  | .statFile _ => [.invalidParameter, .fileNotFound]
  | .listChildren _ => [.invalidParameter]
  | .createVersion .. => [.invalidParameter, .fileNotFound, .manifestNotFound, .versionNotFound,
      .integrityManifestInvalid, .integrityChunkIdConflict]
  | .commitVersion _ => [.invalidParameter, .versionNotFound]
  | .putManifest .. => [.invalidParameter, .integrityManifestInvalid, .chunkNotFound]
  | .getManifest _ => [.invalidParameter, .manifestNotFound]
  | .putChunk .. => [.invalidParameter, .integrityChunkIdConflict]
  | .getChunk .. => [.invalidParameter, .chunkNotFound, .integrityLengthMismatch]

/-- The codes of all requests. -/
def serverCodes : List ErrorCode :=
  [.invalidParameter, .fileNotFound, .manifestNotFound, .versionNotFound, .chunkNotFound,
    .integrityManifestInvalid, .integrityChunkIdConflict, .integrityLengthMismatch]

theorem errorCodes_subset (req : Request) : req.errorCodes ⊆ serverCodes := by
  cases req <;> simp [Request.errorCodes, serverCodes]

theorem invalidParameter_mem (req : Request) : .invalidParameter ∈ req.errorCodes := by
  cases req <;> exact List.mem_cons_self

section handlers

variable [UuidCrate]

omit [UuidCrate] in
theorem invalid_among {α : Type} (req : Request) {x : Res α}
    (h : x.Checks SpaceError.IsInvalidParam) :
    x.Raises (SpaceError.Among req.errorCodes) := by
  refine (h.mono fun e he => ?_).raises
  rw [SpaceError.Among, he.code]
  exact invalidParameter_mem req

omit [UuidCrate] in
/-- A path parameter is parsed, and then the call is made. -/
theorem parsed_among {α : Type} {req : Request} {x : Res α} {f : α → Api.MetaCall}
    (hx : x.Checks SpaceError.IsInvalidParam)
    (hf : ∀ a, (f a).op.errorCodes ⊆ req.errorCodes) :
    (x >>= fun a => pure (f a)).Raises (SpaceError.Among req.errorCodes) ∧
      ∀ call, (x >>= fun a => pure (f a)) = ok call → call.op.errorCodes ⊆ req.errorCodes := by
  refine ⟨(invalid_among req hx).bind fun a => raises_ok _, fun call hcall => ?_⟩
  obtain ⟨a, _, heq⟩ := bind_eq_ok.mp hcall
  cases heq
  exact hf a

/-- What a handler decides before its call, and what the call can raise. -/
theorem metaCall_among {req : Request} {x : Res Api.MetaCall} (h : Api.metaCall req = some x) :
    x.Raises (SpaceError.Among req.errorCodes) ∧
      ∀ call, x = ok call → call.op.errorCodes ⊆ req.errorCodes := by
  cases req with
  | createFile req =>
    cases h
    refine ⟨raises_ok _, fun call hcall => ?_⟩
    cases hcall
    exact List.Subset.refl _
  | putManifest text req =>
    cases h
    -- the id in the path is also compared with the one in the body
    constructor
    · refine (invalid_among _ (checks_parseTagged "m_" ManifestId.mk text)).bind fun id => ?_
      have hpath : (rejectIf (req.manifest.manifestId != id)
          (SpaceError.invalidParam "manifest_id in path and body disagree")).Raises
            (SpaceError.Among (Request.putManifest text req).errorCodes) :=
        Checks.raises (checks_rejectIf List.mem_cons_self)
      exact hpath.bind fun _ => raises_ok _
    · intro call hcall
      obtain ⟨id, _, hrest⟩ := bind_eq_ok.mp hcall
      obtain ⟨_, hcall⟩ := seq_eq_ok.mp hrest
      cases hcall
      exact List.subset_cons_self _ _
  | putChunk text body => cases h
  | getChunk text range => cases h
  | statFile text =>
    cases h
    exact parsed_among (checks_parseTagged "f_" FileId.mk text)
      fun _ => List.subset_cons_self _ _
  | listChildren text =>
    cases h
    exact parsed_among (checks_parseTagged "d_" DirectoryId.mk text)
      fun _ => List.subset_cons_self _ _
  | createVersion text req =>
    cases h
    exact parsed_among (checks_parseTagged "f_" FileId.mk text)
      fun _ => List.subset_cons_self _ _
  | commitVersion text =>
    cases h
    exact parsed_among (checks_parseTagged "v_" VersionId.mk text)
      fun _ => List.subset_cons_self _ _
  | getManifest text =>
    cases h
    exact parsed_among (checks_parseTagged "m_" ManifestId.mk text)
      fun _ => List.subset_cons_self _ _

/-- **A handler raises the codes of its request**, whatever such errors the
    stores answer with. -/
theorem handle_among (req : Request) :
    (Api.handle req).Returns StoreOp.KnownReply
      (Raises (SpaceError.Among req.errorCodes)) := by
  cases hreq : Api.metaCall req with
  | some x =>
    obtain ⟨hx, hsub⟩ := metaCall_among hreq
    rw [Api.handle_of_metaCall hreq]
    refine Fallible.returns_onOk_raises hx fun call hcall => ?_
    intro r hr
    exact Fallible.returns_onOk_raises (hr.mono fun e he => hsub call hcall he) fun a _ =>
      raises_ok _
  | none =>
    have hparse : ∀ text, (ChunkId.parse text).Raises (SpaceError.Among req.errorCodes) :=
      fun text => invalid_among req (ChunkId.checks_parse text)
    cases req with
    | putChunk text body =>
      simp only [Api.handle, Api.putChunk, Api.callBlobs, Api.callMeta, Prog.perform,
        ↓Fallible.bind_eq, ↓Fallible.lift_eq, ↓Fallible.pure_eq, Prog.bind_ret, Prog.bind_call]
      refine Fallible.returns_onOk_raises (hparse text) fun id _ => ?_
      intro r hr
      refine Fallible.returns_onOk_raises (hr.mono fun e he => ?_) fun _ _ => ?_
      · exact List.mem_cons_of_mem _ he
      · intro r hr
        exact Fallible.returns_onOk_raises hr fun a _ => raises_ok _
    | getChunk text range =>
      simp only [Api.handle, Api.getChunk, Api.getChunkRange, Api.callBlobs, Prog.perform,
        ↓Fallible.bind_eq, ↓Fallible.lift_eq, Prog.bind_ret, Prog.bind_call]
      refine Fallible.returns_onOk_raises (hparse text) fun id _ => ?_
      intro r hr
      refine Fallible.returns_onOk_raises (hr.mono fun e he => ?_) fun size _ => ?_
      · rw [SpaceError.Among, List.mem_singleton.mp he]
        exact List.mem_cons_of_mem _ List.mem_cons_self
      · cases range with
        | none =>
          intro r hr
          refine Fallible.returns_onOk_raises (hr.mono fun e he => ?_) fun a _ => raises_ok _
          rw [SpaceError.Among, List.mem_singleton.mp he]
          exact List.mem_cons_of_mem _ List.mem_cons_self
        | some range =>
          refine Fallible.returns_onOk_raises (Checks.raises (checks_okOr List.mem_cons_self))
            fun p _ => ?_
          refine Fallible.returns_onOk_raises (rangeLength_raises p.1 p.2) fun n _ => ?_
          intro r hr
          refine Fallible.returns_onOk_raises (hr.mono fun e he => ?_) fun a _ => raises_ok _
          -- the same codes, in another order
          have hperm : (BlobOp.getRange id p.1 n).errorCodes ⊆
              (Request.getChunk text (some range)).errorCodes := by
            intro code hcode
            simp only [BlobOp.errorCodes, Request.errorCodes, List.mem_cons] at hcode ⊢
            tauto
          exact hperm he
    | _ => cases hreq

end handlers

/-- The codes of the server are classified alike. -/
theorem serverCodes_class {code : ErrorCode} (h : code ∈ serverCodes) :
    code.retryable = false ∧ code.origin ≠ .client ∧ code.ntstatus.isSome = true ∧
      statusFor code ∈ [400, 404, 409, 422] := by
  have hall : ∀ code ∈ serverCodes, code.retryable = false ∧ code.origin ≠ .client ∧
      code.ntstatus.isSome = true ∧ statusFor code ∈ [400, 404, 409, 422] := by decide
  exact hall code h

theorem answered_among [UuidCrate] [Blake3] {c : Server} (h : c.Reachable) {req : Request}
    {e : SpaceError} (ha : c.Answered req (err e)) : e.code ∈ req.errorCodes :=
  answered_of_returns handle_among (fun _ _ _ _ hinv hs => knownReply hinv hs) h ha e rfl

/-! ## Section 3: What the client makes of them -/

/-- What comes of sending a request: an error of the network, or a
    response. -/
inductive Delivery where
  | failed (isTimeout : Bool) (text : String)
  | response (resp : HttpResponse)

section client

variable [UuidCrate] [SerdeJson] [Reqwest]

theorem send_raises {T : Type} (ofJson : Json → Option T) (resp : HttpResponse) :
    (CloudClient.send ofJson (some resp)).Raises fun e => e.code = .protocolViolation ∨
      isSuccess resp.status = false ∧
        ∃ er, ErrorResponse.ofBody resp.body = some er ∧ e = er.error := by
  unfold CloudClient.send
  dsimp only
  by_cases hstatus : isSuccess resp.status = true
  · -- a success whose body is not what was asked for
    rw [if_pos hstatus]
    exact (checks_okOr (.inl rfl)).raises
  · rw [if_neg hstatus]
    cases hbody : ErrorResponse.ofBody resp.body with
    | some er => exact raises_err.mpr (.inr ⟨Bool.eq_false_iff.mpr hstatus, er, rfl, rfl⟩)
    | none => exact raises_err.mpr (.inl rfl)

variable [Chrono]

/-- What a call makes of it. -/
def ClientCall.receiveFrom (call : ClientCall) : Delivery → Res call.Value
  | .failed isTimeout text => err (netError isTimeout text)
  | .response resp => call.receive (some resp)

/-- **The error of a call** is one that the body of a failure has, or the
    response is not one of the protocol. -/
theorem receive_raises (call : ClientCall) (resp : HttpResponse) :
    (call.receive (some resp)).Raises fun e => e.code = .protocolViolation ∨
      isSuccess resp.status = false ∧
        ∃ er, ErrorResponse.ofBody resp.body = some er ∧ e = er.error := by
  cases call with
  | registerAndPutChunk id bytes => exact send_raises _ resp
  | _ => exact (send_raises _ resp).bind fun _ => raises_ok _

variable [Axum] [Blake3]

/-- A request to the server is lost, or it is responded to. -/
inductive Server.Delivers (c : Server) (r : HttpRequest) : Delivery → Prop where
  | failed (isTimeout : Bool) (text : String) : Delivers c r (.failed isTimeout text)
  | response {resp : HttpResponse} : c.Responds r resp → Delivers c r (.response resp)

omit [Reqwest] in
/-- An error that can be read from a response is one of the server. -/
theorem responded_among (huuid : UuidCrate.Lawful) (hserde : SerdeJson.Lawful)
    (hplain : Axum.PlainRejections) {c : Server} (h : c.Reachable) {r : HttpRequest}
    (hdeliver : ∀ resp, r.method.deliver resp = resp) {resp : HttpResponse}
    (hresp : c.Responds r resp) (hstatus : isSuccess resp.status = false) {er : ErrorResponse}
    (her : ErrorResponse.ofBody resp.body = some er) : er.error.code ∈ serverCodes := by
  cases hresp with
  | refused hreject =>
    -- `axum` answers with a text, which is not an `ErrorResponse`
    rw [hdeliver, ofBody_of_not_json (hplain.body _)] at her
    cases her
  | health hroute =>
    rw [hdeliver] at hstatus
    cases hstatus
  | slow hroute =>
    rw [hdeliver] at hstatus
    cases hstatus
  | notFound hroute =>
    -- the fallback makes its error with one of the codes of the handlers
    have hbare : noSuchRoute.Bare := ⟨_, _, rfl⟩
    rw [hdeliver, ofBody_errorResponse huuid hserde hbare] at her
    cases her
    decide
  | @handled req x resp hroute ha hrespond =>
    rw [hdeliver] at hstatus her
    cases x with
    | ok a =>
      cases hrespond
      rw [isSuccess_toHttp] at hstatus
      cases hstatus
    | err e =>
      cases hrespond
      rw [ofBody_errorResponse huuid hserde (answered_bare h ha)] at her
      cases her
      exact errorCodes_subset req (answered_among h ha)
    | panic =>
      -- a handler that panics sends nothing
      cases hrespond

end client

/-! ### A sample

    The file of an empty server. -/

namespace Sample

def missingCall : ClientCall := .statFile file

noncomputable def missingServer : Server :=
  letI := blake3
  letI := hyphenatedUuids
  Server.init.serve Api.handle (StoreOp.exec (Env.sample 1 10)) missingCall.handled

theorem missingServer_reachable :
    letI := blake3
    letI := hyphenatedUuids
    missingServer.Reachable :=
  letI := blake3
  letI := hyphenatedUuids
  Pool.steps_serve Server.init missingCall.handled (follows_handle trivial)

/-- The request for it fails. -/
theorem missing_answered :
    letI := blake3
    letI := hyphenatedUuids
    ∃ e, missingServer.Answered missingCall.handled (err e) := by
  let := blake3
  let := hyphenatedUuids
  have hnone : AppState.default.metaStore.files.lookup file = none := rfl
  have hget : AppState.default.metaStore.getFile file =
      err (Inner.notFound .fileNotFound "file") := by
    rw [Inner.getFile, hnone, okOr_none]
  have herr : (missingCall.direct (Env.sample 1 10) AppState.default).1 =
      err (Inner.notFound .fileNotFound "file") := hget
  have hserve : (Api.serve (Env.sample 1 10) missingCall.handled AppState.default).1 =
      err (Inner.notFound .fileNotFound "file") := by
    rw [missingCall.serve_handled hyphenatedUuids_lawful _ trivial, herr]
    rfl
  refine ⟨Inner.notFound .fileNotFound "file", ?_⟩
  rw [← hserve]
  exact ⟨_, List.mem_append_right _ (List.mem_singleton.mpr rfl), rfl, rfl⟩

/-- The failure is responded to, and reaches the client. -/
theorem missing_responds :
    letI := blake3
    letI := hyphenatedUuids
    letI := chrono
    letI := serdeJson
    letI := axum
    letI := reqwest
    ∃ resp e, missingServer.Responds missingCall.request resp ∧
      missingCall.receive (some resp) = err e := by
  let := blake3
  let := hyphenatedUuids
  let := chrono
  let := serdeJson
  let := axum
  let := reqwest
  obtain ⟨e, ha⟩ := missing_answered
  have hroute := missingCall.route_request hyphenatedUuids_lawful axum_lawful trivial (by decide)
  have hbare := answered_bare missingServer_reachable ha
  refine ⟨errorResponse e, e, ?_, ?_⟩
  · rw [← missingCall.deliver_request (errorResponse e)]
    exact .handled hroute ha rfl
  · exact missingCall.receive_errorResponse hyphenatedUuids_lawful serdeJson_lawful hbare

end Sample

/-! ## Section 4: The results -/

/-- **An error may be retried exactly when no response came.** In every run,
    whatever the request and whatever came of it, the error that a call of
    the client returns is one of the network, or it is final. -/
theorem retryable_iff_lost [UuidCrate] [Chrono] [SerdeJson] [Axum] [Reqwest] [Blake3]
    (huuid : UuidCrate.Lawful) (hserde : SerdeJson.Lawful) (hplain : Axum.PlainRejections)
    {c : Server} (h : c.Reachable) {call : ClientCall} {d : Delivery}
    (hd : c.Delivers call.request d) {e : SpaceError} (he : call.receiveFrom d = err e) :
    e.code.retryable = true ↔ ∃ isTimeout text, d = .failed isTimeout text := by
  cases hd with
  | failed isTimeout text =>
    cases he
    refine ⟨fun _ => ⟨isTimeout, text, rfl⟩, fun _ => ?_⟩
    cases isTimeout <;> rfl
  | @response resp hresp =>
    -- what the client makes up itself is a `PROTOCOL_VIOLATION`
    have hfinal : e.code.retryable = false := by
      rcases receive_raises call resp e he with hcode | ⟨hstatus, er, her, rfl⟩
      · rw [hcode]
        rfl
      · exact (serverCodes_class (responded_among huuid hserde hplain h
          call.deliver_request hresp hstatus her)).1
    rw [hfinal]
    refine ⟨fun hretry => ?_, fun hlost => ?_⟩
    · cases hretry
    · obtain ⟨_, _, hlost⟩ := hlost
      cases hlost

/-- The failure of a file that there is not. -/
theorem retryable_iff_lost_sample :
    letI := Sample.blake3
    letI := Sample.hyphenatedUuids
    letI := Sample.chrono
    letI := Sample.serdeJson
    letI := Sample.axum
    letI := Sample.reqwest
    ∃ resp e, Sample.missingCall.receiveFrom (.response resp) = err e ∧
      (e.code.retryable = true ↔
        ∃ isTimeout text, Delivery.response resp = .failed isTimeout text) := by
  let := Sample.blake3
  let := Sample.hyphenatedUuids
  let := Sample.chrono
  let := Sample.serdeJson
  let := Sample.axum
  let := Sample.reqwest
  obtain ⟨resp, e, hresp, he⟩ := Sample.missing_responds
  exact ⟨resp, e, he, retryable_iff_lost Sample.hyphenatedUuids_lawful Sample.serdeJson_lawful
    Sample.axum_plainRejections Sample.missingServer_reachable (.response hresp) he⟩

end Space
