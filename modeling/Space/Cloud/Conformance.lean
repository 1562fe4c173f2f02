import Space.Cloud.OpenApi
import Space.Cloud.Failures
import Space.Cloud.System
import Space.Client.RangeRead

/-! # The server and the client against the API description

    What the server answers is compared with the description for every
    request in every run, and so is what the client sends.

    * **`answers_conform`**: an answer is as described exactly when the
      request was not refused by `axum` before it reached its handler.
    * **`answers_conform_strictly`**: where `nullable` has no meaning, as in
      the version of the standard that the description names, a file without
      a current version and a version without a parent are not described.
    * **`success_conforms`**: only a request that is as described succeeds.
    * **`requests_conform`**: what the client sends is as described, but for a
      manifest with chunk ids that are none, and in the strict reading for a
      version without a parent. A chunk is sent without its media type. -/

namespace Space

open Rust Outcome Data Effects Schema

/-! ## Section 1: What a handler answers -/

section answers

variable [UuidCrate]

/-- The operation that a request is handled by. -/
def Request.operation : Request → ApiOperation
  | .createFile _ => .createFile
  | .statFile _ => .statFile
  | .listChildren _ => .listChildren
  | .createVersion .. => .createVersion
  | .commitVersion _ => .commitVersion
  | .putManifest .. => .putManifest
  | .getManifest _ => .getManifest
  | .putChunk .. => .putChunk
  | .getChunk .. => .getChunk

/-- A successful response to a request, and what its handler has made sure
    of. -/
inductive Answers : Request → Response → Prop where
  | createFile (req : CreateFileRequest) (file : File) :
      Answers (.createFile req) (.file ⟨contractVersion, file⟩)
  | statFile {text : String} {id : FileId} (file : File) : FileId.parse text = ok id →
      Answers (.statFile text) (.file ⟨contractVersion, file⟩)
  | listChildren {text : String} {id : DirectoryId} (files : List File) :
      DirectoryId.parse text = ok id →
      Answers (.listChildren text) (.children ⟨contractVersion, files⟩)
  | createVersion {text : String} {id : FileId} (req : CreateVersionRequest) (version : Version) :
      FileId.parse text = ok id →
      Answers (.createVersion text req) (.version ⟨contractVersion, version⟩)
  | commitVersion {text : String} {id : VersionId} (version : Version) :
      VersionId.parse text = ok id →
      Answers (.commitVersion text) (.version ⟨contractVersion, version⟩)
  | putManifest {text : String} {id : ManifestId} {req : PutManifestRequest} (m : Manifest) :
      ManifestId.parse text = ok id → req.manifest.IdsFormed → m.IdsFormed →
      Answers (.putManifest text req) (.manifest ⟨contractVersion, m⟩)
  | getManifest {text : String} {id : ManifestId} (m : Manifest) :
      ManifestId.parse text = ok id → m.IdsFormed →
      Answers (.getManifest text) (.manifest ⟨contractVersion, m⟩)
  | putChunk {text : String} (chunk : Chunk) (body : Bytes) : ChunkId.WellFormed ⟨text⟩ →
      chunk.chunkId.WellFormed →
      Answers (.putChunk text body) (.chunk ⟨contractVersion, chunk⟩)
  | getChunk {text : String} (bytes : Bytes) : ChunkId.WellFormed ⟨text⟩ →
      Answers (.getChunk text none) (.body bytes)
  | getChunkRange {text : String} (range : HeaderValue) (bytes : Bytes) (contentRange : String) :
      ChunkId.WellFormed ⟨text⟩ →
      Answers (.getChunk text (some range)) (.partialContent bytes contentRange)

/-- A reply of the metadata store in which every chunk id is one. -/
def MetaOp.FormedReply : (op : MetaOp) → Res op.Value → Prop
  | .putManifest m, r => ∀ m', r = ok m' → m.IdsFormed ∧ m'.IdsFormed
  | .getManifest _, r => ∀ m, r = ok m → m.IdsFormed
  | .registerChunk _ _, r => ∀ chunk, r = ok chunk → chunk.chunkId.WellFormed
  | _, _ => True

def StoreOp.FormedReply : (op : StoreOp) → Res op.Value → Prop
  | .metadata op, r => op.FormedReply r
  | .blobs _, _ => True

omit [UuidCrate] in
theorem idsFormed_of_valid {m : Manifest} (h : validateManifest m = ok ()) : m.IdsFormed :=
  (validateManifest_ok_iff.mp h).chunkIds

omit [UuidCrate] in
theorem MetaOp.formedReply {env : Env} {g g' : Inner} {op : MetaOp} {r : Res op.Value}
    (h : MetaInv g) (hcall : MetaOp.Call env g op r g') : op.FormedReply r := by
  cases op with
  | putManifest m =>
    intro m' hm'
    subst hm'
    -- the manifest was validated, whether it is new or not
    cases hcall with
    | found hfound =>
      obtain ⟨hsame, hvalid, _⟩ := hfound
      rw [hsame]
      exact ⟨idsFormed_of_valid hvalid, idsFormed_of_valid hvalid⟩
    | wrote hwrote =>
      cases hwrote with
      | manifest hvalid => exact ⟨idsFormed_of_valid hvalid, idsFormed_of_valid hvalid⟩
  | getManifest id =>
    intro m hm
    subst hm
    cases hcall with
    | found hfound => exact idsFormed_of_valid (h.manifests id m hfound).valid
    | wrote hwrote => cases hwrote
  | registerChunk id size =>
    intro chunk hchunk
    subst hchunk
    cases hcall with
    | found hfound =>
      obtain ⟨hwf, hl, _⟩ := hfound
      rw [h.chunks id chunk hl]
      exact hwf
    | wrote hwrote =>
      cases hwrote with
      | chunk hwf => exact hwf
  | _ => exact trivial

omit [UuidCrate] in
/-- The stores give such replies. -/
theorem formedReply [Blake3] {op : StoreOp} {s s' : AppState} {r : Res op.Value} (h : AppInv s)
    (hs : StoreOp.Step op s r s') : op.FormedReply r := by
  obtain ⟨env, _, heq⟩ := hs
  cases op with
  | blobs op => exact trivial
  | metadata op =>
    cases heq
    exact op.formedReply h.metaStore (exec_call env s.metaStore op)

/-- **A handler answers as its operation does**, whatever such replies the
    stores give. -/
theorem handle_answers (req : Request) :
    (Api.handle req).Returns StoreOp.FormedReply fun x =>
      ∀ resp, x = ok resp → Answers req resp := by
  cases hreq : Api.metaCall req with
  | some x =>
    rw [Api.handle_of_metaCall hreq]
    refine Fallible.returns_onOk_ok fun call hx => ?_
    subst hx
    intro r hr
    refine Fallible.returns_onOk_ok fun a ha => ?_
    intro resp hresp
    cases hresp
    subst ha
    cases req with
    | createFile req =>
      cases hreq
      exact .createFile req a
    | putChunk text body => cases hreq
    | getChunk text range => cases hreq
    | putManifest text req =>
      obtain ⟨id, hid, hrest⟩ := bind_eq_ok.mp (Option.some.inj hreq)
      obtain ⟨_, hcall⟩ := seq_eq_ok.mp hrest
      cases hcall
      obtain ⟨hm, ha⟩ := hr a rfl
      exact .putManifest a hid hm ha
    | getManifest text =>
      obtain ⟨id, hid, hcall⟩ := bind_eq_ok.mp (Option.some.inj hreq)
      cases hcall
      exact .getManifest a hid (hr a rfl)
    | statFile text =>
      obtain ⟨id, hid, hcall⟩ := bind_eq_ok.mp (Option.some.inj hreq)
      cases hcall
      exact .statFile a hid
    | listChildren text =>
      obtain ⟨id, hid, hcall⟩ := bind_eq_ok.mp (Option.some.inj hreq)
      cases hcall
      exact .listChildren a hid
    | createVersion text req =>
      obtain ⟨id, hid, hcall⟩ := bind_eq_ok.mp (Option.some.inj hreq)
      cases hcall
      exact .createVersion req a hid
    | commitVersion text =>
      obtain ⟨id, hid, hcall⟩ := bind_eq_ok.mp (Option.some.inj hreq)
      cases hcall
      exact .commitVersion a hid
  | none =>
    cases req with
    | putChunk text body =>
      simp only [Api.handle, Api.putChunk, Api.callBlobs, Api.callMeta, Prog.perform,
        ↓Fallible.bind_eq, ↓Fallible.lift_eq, ↓Fallible.pure_eq, Prog.bind_ret, Prog.bind_call]
      refine Fallible.returns_onOk_ok fun id hid => ?_
      obtain ⟨rfl, hwf⟩ := ChunkId.parse_eq_ok.mp hid
      intro r _
      refine Fallible.returns_onOk_ok fun _ _ => ?_
      intro r hr
      refine Fallible.returns_onOk_ok fun chunk hchunk => ?_
      intro resp hresp
      cases hresp
      exact .putChunk chunk body hwf (hr chunk hchunk)
    | getChunk text range =>
      simp only [Api.handle, Api.getChunk, Api.getChunkRange, Api.callBlobs, Prog.perform,
        ↓Fallible.bind_eq, ↓Fallible.lift_eq, ↓Fallible.pure_eq, Prog.bind_ret, Prog.bind_call]
      refine Fallible.returns_onOk_ok fun id hid => ?_
      obtain ⟨rfl, hwf⟩ := ChunkId.parse_eq_ok.mp hid
      intro r _
      refine Fallible.returns_onOk_ok fun size _ => ?_
      cases range with
      | none =>
        intro r _
        refine Fallible.returns_onOk_ok fun bytes _ => ?_
        intro resp hresp
        cases hresp
        exact .getChunk bytes hwf
      | some range =>
        refine Fallible.returns_onOk_ok fun p _ => ?_
        refine Fallible.returns_onOk_ok fun length _ => ?_
        intro r _
        refine Fallible.returns_onOk_ok fun bytes _ => ?_
        intro resp hresp
        cases hresp
        exact .getChunkRange range bytes _ hwf
    | _ => cases hreq

/-- What a handler returns under the replies of the stores, it has returned
    in every run. -/
theorem answered_of_returns [Blake3] {R : (op : StoreOp) → Res op.Value → Prop}
    {P : Request → Res Response → Prop}
    (hreturns : ∀ req, (Api.handle req).Returns (I := StoreI) R (P req))
    (hR : ∀ op s r s', AppInv s → StoreOp.Step op s r s' → R op r) {c : Server}
    (h : c.Reachable) {req : Request} {x : Res Response} (ha : c.Answered req x) : P req x := by
  have hhandle : ∀ req s, AppInv s → Ensures serverDiscipline (Api.handle req)
      (fun x tr t => Post req x tr t ∧ P req x) [] s :=
    fun req s _ => (ensures_handle req s).of_returns (hreturns req) hR
  have hinit : Pool.Sound serverDiscipline (fun req x tr t => Post req x tr t ∧ P req x)
      Server.init := ⟨appInv_default, fun t ht => by cases ht⟩
  obtain ⟨tr, _, hP⟩ := (hinit.steps hhandle h).1.answered ha
  exact hP

/-- **A request that succeeds is answered as its operation is.** -/
theorem answered_answers [Blake3] {c : Server} (h : c.Reachable) {req : Request}
    {resp : Response} (ha : c.Answered req (ok resp)) : Answers req resp :=
  answered_of_returns handle_answers (fun _ _ _ _ => formedReply) h ha resp rfl

/-- A request that fails has a bare error. -/
theorem answered_bare [Blake3] {c : Server} (h : c.Reachable) {req : Request} {e : SpaceError}
    (ha : c.Answered req (err e)) : e.Bare := by
  refine answered_of_returns Api.handle_raises ?_ h ha e rfl
  intro op s r s' _ hs
  obtain ⟨env, _, heq⟩ := hs
  cases op with
  | metadata op =>
    cases heq
    exact op.raises_bare env s.metaStore
  | blobs op =>
    cases heq
    exact op.raises_bare s.blobs

/-! ## Section 2: Responses -/

variable [Chrono]

/-- Nothing is missing where the description has a `nullable` property. -/
def Response.Complete : Response → Prop
  | .file r => r.file.currentVersionId.isSome = true
  | .children r => ∀ file ∈ r.files, file.currentVersionId.isSome = true
  | .version r => r.version.parentVersionId.isSome = true
  | _ => True

variable [SerdeJson] {mode : Reading} {op : ApiOperation}

omit [UuidCrate] [Chrono] in
/-- A response with a document. -/
theorem documents_json (hserde : SerdeJson.Lawful) {status : Nat} {name : SchemaName} {j : Json}
    (hwithin : j.within recursionLimit = true)
    (hcontent : op.response status = some (.json name)) :
    op.Documents mode (jsonResponse status j) ↔ Describes mode name j := by
  constructor
  · intro h
    obtain ⟨content, hop, hbody⟩ := h
    cases hcontent.symm.trans hop
    obtain ⟨_, j', hj', hdescribes⟩ := hbody
    have hread : SerdeJson.fromSlice (jsonResponse status j).body = some j :=
      hserde.fromSlice_toVec j hwithin
    rw [hread] at hj'
    cases hj'
    exact hdescribes
  · intro h
    exact ⟨_, hcontent, rfl, j, hserde.fromSlice_toVec j hwithin, h⟩

omit [UuidCrate] [Chrono] [SerdeJson] in
/-- An error has the default response. -/
theorem response_statusFor (hop : op ≠ .health) (code : ErrorCode) :
    op.response (statusFor code) = some (.json .errorResponse) := by
  cases op with
  | health => exact absurd rfl hop
  | _ => cases code <;> rfl

omit [Chrono] in
theorem documents_error (hserde : SerdeJson.Lawful) (hop : op ≠ .health) {e : SpaceError}
    (h : e.Bare) : op.Documents mode (errorResponse e) := by
  obtain ⟨code, message, rfl⟩ := h
  apply (documents_json hserde _ (response_statusFor hop code)).mpr (ErrorResponse.describes _)
  rw [ErrorResponse.toJson, recursionLimit, within_responseToJson]
  exact SpaceError.within_toJson_new 125 code message

omit [UuidCrate] [Chrono] in
/-- A response with the version of the contract. -/
theorem documents_versioned (mode : Reading) (op : ApiOperation) (name : SchemaName)
    (hserde : SerdeJson.Lawful) {field : String} {s : Schema SchemaName} {value : Json}
    (hwithin : (responseToJson field contractVersion value).within recursionLimit = true)
    (hcontent : op.response 200 = some (.json name)) (hname : components name = versioned field s)
    (hfield : field ≠ "contract_version") :
    op.Documents mode (jsonResponse 200 (responseToJson field contractVersion value)) ↔
      Accepts components mode s value := by
  rw [documents_json hserde hwithin hcontent, Describes, accepts_ref, hname,
    describes_versioned hfield]

/-- **A successful response is described**, but for what is missing where a
    property may be `null`. -/
theorem Answers.documents_iff (hserde : SerdeJson.Lawful) {req : Request} {resp : Response}
    (h : Answers req resp) : req.operation.Documents mode resp.toHttp ↔
      mode.nullable = true ∨ resp.Complete := by
  cases h with
  | createFile req file =>
    have hdoc := documents_versioned mode .createFile .fileResponse hserde
      (FileResponse.within_toJson ⟨contractVersion, file⟩) rfl rfl (by decide)
    exact hdoc.trans file.describes_iff
  | statFile file hid =>
    have hdoc := documents_versioned mode .statFile .fileResponse hserde
      (FileResponse.within_toJson ⟨contractVersion, file⟩) rfl rfl (by decide)
    exact hdoc.trans file.describes_iff
  | listChildren files hid =>
    have hdoc := documents_versioned mode .listChildren .listChildrenResponse hserde
      (ListChildrenResponse.within_toJson ⟨contractVersion, files⟩) rfl rfl (by decide)
    refine hdoc.trans ?_
    rw [accepts_arr, List.forall_mem_map]
    constructor
    · intro h
      by_cases hmode : mode.nullable = true
      · exact .inl hmode
      · exact .inr fun file hfile => (file.describes_iff.mp (h file hfile)).resolve_left hmode
    · intro h file hfile
      rcases h with h | h
      · exact file.describes_iff.mpr (.inl h)
      · exact file.describes_iff.mpr (.inr (h file hfile))
  | createVersion req version hid =>
    have hdoc := documents_versioned mode .createVersion .versionResponse hserde
      (VersionResponse.within_toJson ⟨contractVersion, version⟩) rfl rfl (by decide)
    exact hdoc.trans version.describes_iff
  | commitVersion version hid =>
    have hdoc := documents_versioned mode .commitVersion .versionResponse hserde
      (VersionResponse.within_toJson ⟨contractVersion, version⟩) rfl rfl (by decide)
    exact hdoc.trans version.describes_iff
  | putManifest m hid hm hm' =>
    have hdoc := documents_versioned mode .putManifest .manifestResponse hserde
      (ManifestResponse.within_toJson ⟨contractVersion, m⟩) rfl rfl (by decide)
    exact iff_of_true (hdoc.mpr (Manifest.describes_iff.mpr hm')) (.inr trivial)
  | getManifest m hid hm =>
    have hdoc := documents_versioned mode .getManifest .manifestResponse hserde
      (ManifestResponse.within_toJson ⟨contractVersion, m⟩) rfl rfl (by decide)
    exact iff_of_true (hdoc.mpr (Manifest.describes_iff.mpr hm)) (.inr trivial)
  | putChunk chunk body hwf hchunk =>
    have hdoc := documents_versioned mode .putChunk .chunkResponse hserde
      (ChunkResponse.within_toJson ⟨contractVersion, chunk⟩) rfl rfl (by decide)
    exact iff_of_true (hdoc.mpr (Chunk.describes_iff.mpr hchunk)) (.inr trivial)
  -- the bodies that are bytes are described as bytes
  | getChunk bytes hwf => exact iff_of_true ⟨.octets, rfl, rfl⟩ (.inr trivial)
  | getChunkRange range bytes contentRange hwf =>
    exact iff_of_true ⟨.octets, rfl, rfl⟩ (.inr trivial)

end answers

/-! ## Section 3: Requests -/

section requests

variable [Axum]

/-- The operation of a route and a method. The test route has none, and
    neither has `HEAD`. -/
def Endpoint.operation : Endpoint → Method → Option ApiOperation
  | .health, .get => some .health
  | .files, .post => some .createFile
  | .file _, .get => some .statFile
  | .children _, .get => some .listChildren
  | .versions _, .post => some .createVersion
  | .commit _, .post => some .commitVersion
  | .manifest _, .put => some .putManifest
  | .manifest _, .get => some .getManifest
  | .chunk _, .put => some .putChunk
  | .chunk _, .get => some .getChunk
  | _, _ => none

/-- The path of a route, after its first slash. -/
def Endpoint.segments : Endpoint → List String
  | .health => ["health"]
  | .files => ["v1", "files"]
  | .file id => ["v1", "files", id]
  | .children id => ["v1", "dirs", id, "children"]
  | .versions id => ["v1", "files", id, "versions"]
  | .commit id => ["v1", "versions", id, "commit"]
  | .manifest id => ["v1", "manifests", id]
  | .chunk id => ["v1", "chunks", id]
  | .slow ms => ["v1", "_slow", ms]

omit [Axum] in
theorem withLast_eq_some {param : String} {e e' : Endpoint}
    (h : Endpoint.withLast param e = some e') : e' = e ∧ param ≠ "" := by
  unfold Endpoint.withLast at h
  split at h
  · cases h
  · cases h
    exact ⟨rfl, ‹_›⟩

omit [Axum] in
/-- The path of a request with a route. -/
theorem endpoint_segments {path : String} {e : Endpoint} (h : endpoint path = some e) :
    segments path = "" :: e.segments ∧ e.segments.getLast? ≠ some "" := by
  unfold endpoint at h
  split at h
  case h_10 => cases h
  -- the routes with a parameter at the end
  case h_3 | h_7 | h_8 | h_9 =>
    rename_i heq
    obtain ⟨rfl, hparam⟩ := withLast_eq_some h
    exact ⟨heq, by simpa [Endpoint.segments] using hparam⟩
  all_goals
    rename_i heq
    cases h
    exact ⟨heq, by simp [Endpoint.segments]⟩

omit [Axum] in
/-- **The operations are the routes**, without the test route and `HEAD`. -/
theorem ApiOperation.serves_iff {op : ApiOperation} {r : HttpRequest} :
    op.Serves r ↔ ∃ e, endpoint r.path = some e ∧ e.operation r.method = some op := by
  constructor
  · intro h
    obtain ⟨hmethod, rest, hpath, hcovers, hlast⟩ := h
    rw [hmethod, endpoint, hpath]
    cases op <;> simp only [ApiOperation.path, ApiOperation.tagged, List.forall₂_cons_left_iff,
      List.forall₂_nil_left_iff, PathPart.Covers, ↓existsAndEq, true_and] at hcovers
    case health =>
      subst hcovers
      exact ⟨_, rfl, rfl⟩
    case createFile =>
      subst hcovers
      exact ⟨_, rfl, rfl⟩
    case listChildren | createVersion | commitVersion =>
      obtain ⟨id, rfl⟩ := hcovers
      exact ⟨_, rfl, rfl⟩
    -- what is left are the routes with a parameter at the end
    all_goals
      obtain ⟨id, rfl⟩ := hcovers
      exact ⟨_, if_neg (by simpa using hlast), rfl⟩
  · intro h
    obtain ⟨e, hend, hop⟩ := h
    obtain ⟨hpath, hlast⟩ := endpoint_segments hend
    cases e <;> cases hm : r.method <;> rw [hm] at hop <;> cases hop
    all_goals
      refine ⟨hm, _, hpath, ?_, hlast⟩
      simp [Endpoint.segments, ApiOperation.path, ApiOperation.tagged, PathPart.Covers]

variable [UuidCrate]

/-- The request reaches its handler. -/
def HttpRequest.Taken (r : HttpRequest) : Prop := ∃ e, endpoint r.path = some e ∧ e.Takes r

omit [Axum] in
/-- The pattern of an id asks for its tag only. -/
theorem test_of_parseTagged {α : Type} {tag : String} {mk : Uuid → α} {s : String} {id : α}
    (h : parseTagged tag mk s = ok id) : Pattern.test ⟨[.text tag], false⟩ s = true := by
  obtain ⟨rest, hrest, _⟩ := bind_eq_ok.mp h
  have hs := stripPrefix_eq_some.mp (okOr_eq_ok.mp hrest)
  rw [Pattern.test_iff]
  refine ⟨rest, ?_, (fun h => by cases h)⟩
  rw [stripPieces_cons]
  exact ⟨rest, strip_text.mpr hs, rfl⟩

omit [UuidCrate] in
theorem describes_param {raw text : String} {pattern : Pattern} (h : pathParam raw = .ok text)
    (htest : pattern.test text = true) : (PathPart.param pattern).Describes raw :=
  ⟨text, pathParam_eq_ok.mp h, htest⟩

omit [UuidCrate] in
/-- A body that was taken as JSON. -/
theorem required_of_jsonBody {T : Type} {ofJson : Json → Option T} {r : HttpRequest} {req : T}
    {name : SchemaName} (h : jsonBody ofJson r = .ok req)
    (hdescribes : ∀ j, ofJson j = some req → Describes serdeReading name j) :
    Content.Required serdeReading (some (.json name)) r := by
  obtain ⟨hjson, _, hbody⟩ := jsonBody_eq_ok.mp h
  obtain ⟨j, hj, hreq⟩ := Option.bind_eq_some_iff.mp hbody
  exact ⟨hjson, j, hj, hdescribes j hreq⟩

section except

variable {ε α β : Type}

omit [Axum] [UuidCrate] in
theorem except_bind_eq_ok {x : Except ε α} {f : α → Except ε β} {b : β} :
    (x >>= f) = .ok b ↔ ∃ a, x = .ok a ∧ f a = .ok b := by
  cases x with
  | error e =>
    constructor
    · intro h
      cases h
    · intro h
      obtain ⟨_, h, _⟩ := h
      cases h
  | ok a =>
    constructor
    · intro h
      exact ⟨a, rfl, h⟩
    · intro h
      obtain ⟨_, h, hf⟩ := h
      cases h
      exact hf

end except

/-- **What the extractors make of a request for an operation**: the request
    that its handler is called with, and when that one succeeds, the request
    was as described. -/
theorem extract_operation {e : Endpoint} {r : HttpRequest} {op : ApiOperation} {x : Routed}
    (hend : endpoint r.path = some e) (hop : e.operation r.method = some op)
    (hx : e.extract r = .ok x) : x = .health ∧ op = .health ∨
      ∃ req, x = .stores req ∧ req.operation = op ∧
        ∀ resp, Answers req resp → op.Conforms serdeReading r := by
  have hpath := (endpoint_segments hend).1
  -- a route has the operation only for one method, or for two with a handler each
  cases e <;> cases hm : r.method <;> rw [hm] at hop <;> cases hop <;>
    rw [Endpoint.extract, hm] at hx
  case health =>
    cases hx
    exact .inl ⟨rfl, rfl⟩
  case files =>
    obtain ⟨req, hreq, hx⟩ := except_bind_eq_ok.mp hx
    cases hx
    refine .inr ⟨_, rfl, rfl, fun resp h => ⟨hm, ⟨_, hpath, ?_⟩, ?_⟩⟩
    · exact .cons rfl (.cons rfl .nil)
    · exact required_of_jsonBody hreq fun j => CreateFileRequest.describes
  case file id =>
    obtain ⟨text, htext, hx⟩ := except_bind_eq_ok.mp hx
    cases hx
    refine .inr ⟨_, rfl, rfl, fun resp h => ⟨hm, ⟨_, hpath, ?_⟩, trivial⟩⟩
    cases h with
    | statFile file hid =>
      exact .cons rfl (.cons rfl (.cons (describes_param htext (test_of_parseTagged hid)) .nil))
  case children id =>
    obtain ⟨text, htext, hx⟩ := except_bind_eq_ok.mp hx
    cases hx
    refine .inr ⟨_, rfl, rfl, fun resp h => ⟨hm, ⟨_, hpath, ?_⟩, trivial⟩⟩
    cases h with
    | listChildren files hid =>
      exact .cons rfl (.cons rfl (.cons (describes_param htext (test_of_parseTagged hid))
        (.cons rfl .nil)))
  case versions id =>
    obtain ⟨text, htext, hx⟩ := except_bind_eq_ok.mp hx
    obtain ⟨req, hreq, hx⟩ := except_bind_eq_ok.mp hx
    cases hx
    refine .inr ⟨_, rfl, rfl, fun resp h => ⟨hm, ⟨_, hpath, ?_⟩, ?_⟩⟩
    · cases h with
      | createVersion req version hid =>
        exact .cons rfl (.cons rfl (.cons (describes_param htext (test_of_parseTagged hid))
          (.cons rfl .nil)))
    · exact required_of_jsonBody hreq fun j => CreateVersionRequest.describes
  case commit id =>
    obtain ⟨text, htext, hx⟩ := except_bind_eq_ok.mp hx
    cases hx
    refine .inr ⟨_, rfl, rfl, fun resp h => ⟨hm, ⟨_, hpath, ?_⟩, trivial⟩⟩
    cases h with
    | commitVersion version hid =>
      exact .cons rfl (.cons rfl (.cons (describes_param htext (test_of_parseTagged hid))
        (.cons rfl .nil)))
  case manifest.put id =>
    obtain ⟨text, htext, hx⟩ := except_bind_eq_ok.mp hx
    obtain ⟨req, hreq, hx⟩ := except_bind_eq_ok.mp hx
    cases hx
    refine .inr ⟨_, rfl, rfl, fun resp h => ?_⟩
    cases h with
    | putManifest m hid hformed _ =>
      refine ⟨hm, ⟨_, hpath, ?_⟩, ?_⟩
      · exact .cons rfl (.cons rfl (.cons (describes_param htext (test_of_parseTagged hid)) .nil))
      · exact required_of_jsonBody hreq fun j hj => PutManifestRequest.describes hj hformed
  case manifest.get id =>
    obtain ⟨text, htext, hx⟩ := except_bind_eq_ok.mp hx
    cases hx
    refine .inr ⟨_, rfl, rfl, fun resp h => ⟨hm, ⟨_, hpath, ?_⟩, trivial⟩⟩
    cases h with
    | getManifest m hid _ =>
      exact .cons rfl (.cons rfl (.cons (describes_param htext (test_of_parseTagged hid)) .nil))
  case chunk.put id =>
    obtain ⟨text, htext, hx⟩ := except_bind_eq_ok.mp hx
    obtain ⟨body, _, hx⟩ := except_bind_eq_ok.mp hx
    cases hx
    refine .inr ⟨_, rfl, rfl, fun resp h => ⟨hm, ⟨_, hpath, ?_⟩, trivial⟩⟩
    cases h with
    | putChunk chunk body hwf _ =>
      have htest := chunkIdPattern_test.mpr hwf
      exact .cons rfl (.cons rfl (.cons (describes_param htext htest) .nil))
  case chunk.get id =>
    obtain ⟨text, htext, hx⟩ := except_bind_eq_ok.mp hx
    cases hx
    refine .inr ⟨_, rfl, rfl, fun resp h => ⟨hm, ⟨_, hpath, ?_⟩, trivial⟩⟩
    have hwf : ChunkId.WellFormed ⟨text⟩ := by
      generalize r.range = range at h
      cases h with
      | getChunk bytes hwf => exact hwf
      | getChunkRange range bytes contentRange hwf => exact hwf
    have htest := chunkIdPattern_test.mpr hwf
    exact .cons rfl (.cons rfl (.cons (describes_param htext htest) .nil))

/-! ## Section 4: Runs -/

variable [Chrono] [SerdeJson] [Blake3]

/-- The response that a request is given in a run: the one of `axum`, or the
    one made of what the handler has returned. -/
inductive Server.Responds (c : Server) (r : HttpRequest) : HttpResponse → Prop where
  | refused {rejection : Rejection} : route r = .error rejection →
      Responds c r (r.method.deliver (Axum.reject rejection))
  | health : route r = .ok .health → Responds c r (r.method.deliver healthResponse)
  | slow {ms : UInt64} : route r = .ok (.slow ms) →
      Responds c r (r.method.deliver (textResponse "done"))
  | notFound : route r = .ok .notFound → Responds c r (r.method.deliver (errorResponse noSuchRoute))
  | handled {req : Request} {x : Res Response} {resp : HttpResponse} :
      route r = .ok (.stores req) → c.Answered req x → respond x = some resp →
      Responds c r (r.method.deliver resp)

/-- A response of the router to a request that it serves at once is one. -/
theorem responds_serve {env : Env} {c : Server} {r : HttpRequest} {req : Request}
    {resp : HttpResponse} (hroute : route r = .ok (.stores req))
    (h : (Router.answer env r c.store).1 = some resp) :
    Server.Responds (c.serve Api.handle (StoreOp.exec env) req) r resp := by
  have hanswer := congrArg Prod.fst (answer_of_stores env c.store hroute)
  rw [hanswer] at h
  obtain ⟨resp', hresp', heq⟩ := Option.map_eq_some_iff.mp h
  rw [← heq]
  apply Server.Responds.handled hroute _ hresp'
  exact ⟨_, List.mem_append_right _ (List.mem_singleton.mpr rfl), rfl, rfl⟩

/-- How a request for an operation is served. -/
inductive Server.ServedAs (c : Server) (op : ApiOperation) (r : HttpRequest) :
    HttpResponse → Prop where
  | refused (rejection : Rejection) : ¬ r.Taken → ServedAs c op r (Axum.reject rejection)
  | health : r.Taken → op = .health → ServedAs c op r healthResponse
  | handled {req : Request} {x : Res Response} {resp : HttpResponse} :
      r.Taken → req.operation = op → (∀ a, Answers req a → op.Conforms serdeReading r) →
      c.Answered req x → respond x = some resp → ServedAs c op r resp

omit [Blake3] in
theorem servedAs {c : Server} {r : HttpRequest} {op : ApiOperation} (hop : op.Serves r)
    {resp : HttpResponse} (h : c.Responds r resp) : c.ServedAs op r resp := by
  obtain ⟨e, hend, hope⟩ := ApiOperation.serves_iff.mp hop
  have hdeliver : ∀ resp : HttpResponse, r.method.deliver resp = resp := by
    intro resp
    have hhead : r.method ≠ .head := by
      rw [hop.1]
      cases op <;> decide
    exact if_neg hhead
  have hroute : route r = e.extract r := by rw [route, hend]
  have htaken : ∀ x, route r = .ok x → r.Taken := by
    intro x hx
    rw [hroute] at hx
    exact ⟨e, hend, (e.extract_eq_ok_iff r).mp ⟨x, hx⟩⟩
  cases h with
  | refused hreject =>
    rw [hdeliver]
    refine .refused _ fun hr => ?_
    obtain ⟨e', hend', htakes⟩ := hr
    rw [hend] at hend'
    cases hend'
    obtain ⟨x, hx⟩ := (e.extract_eq_ok_iff r).mpr htakes
    rw [hroute, hx] at hreject
    cases hreject
  | health hx =>
    rw [hdeliver]
    rcases extract_operation hend hope (hroute.symm.trans hx) with ⟨_, hhealth⟩ | ⟨_, hreq, _⟩
    · exact .health (htaken _ hx) hhealth
    · cases hreq
  | slow hx =>
    rcases extract_operation hend hope (hroute.symm.trans hx) with ⟨hreq, _⟩ | ⟨_, hreq, _⟩ <;>
      cases hreq
  | notFound hx =>
    rcases extract_operation hend hope (hroute.symm.trans hx) with ⟨hreq, _⟩ | ⟨_, hreq, _⟩ <;>
      cases hreq
  | handled hx ha hrespond =>
    rw [hdeliver]
    rcases extract_operation hend hope (hroute.symm.trans hx) with ⟨hreq, _⟩ | ⟨_, hreq, h, hc⟩
    · cases hreq
    · cases hreq
      exact .handled (htaken _ hx) h hc ha hrespond

omit [Chrono] [Blake3] [UuidCrate] in
/-- A refusal of `axum` is none of the responses. -/
theorem not_documents_reject (hplain : Axum.PlainRejections) {mode : Reading} {op : ApiOperation}
    (rejection : Rejection) : ¬ op.Documents mode (Axum.reject rejection) := by
  intro h
  obtain ⟨content, hcontent, hbody⟩ := h
  obtain ⟨hlow, _⟩ := hplain.status rejection
  have h200 : ((Axum.reject rejection).status == 200) = false := by
    rw [beq_eq_false_iff_ne]
    omega
  have h206 : ((Axum.reject rejection).status == 206) = false := by
    rw [beq_eq_false_iff_ne]
    omega
  have hjson : content = .json .errorResponse := by
    cases op <;> simp [ApiOperation.response, ApiOperation.successes, ApiOperation.otherwise,
      List.lookup_cons, h200, h206] at hcontent <;> exact hcontent.symm
  subst hjson
  obtain ⟨_, j, hj, _⟩ := hbody
  rw [hplain.body rejection] at hj
  cases hj

omit [Axum] [UuidCrate] [Chrono] [SerdeJson] [Blake3] in
theorem operation_ne_health (req : Request) : req.operation ≠ .health := by
  cases req <;> exact nofun

/-! ## Section 5: The client -/

/-- A request of the client: one of its typed calls, a range read, or the
    health check. -/
inductive ClientRequest where
  | typed (call : ClientCall)
  | getChunkRange (id : ChunkId) (offset last : UInt64)
  | health

namespace ClientRequest

/-- The chunk id is one that `ChunkId::parse` accepts. -/
def WellFormed : ClientRequest → Prop
  | .typed call => call.WellFormed
  | .getChunkRange id _ _ => id.WellFormed
  | .health => True

/-- The request as it is sent. -/
def http : ClientRequest → HttpRequest
  | .typed call => call.request
  | .getChunkRange id offset last => RangeGet.http ⟨id.str, rangeHeader offset last⟩
  | .health => ClientCall.get "/health"

/-- A chunk is uploaded without a media type. -/
def NamesMedia : ClientRequest → Prop
  | .typed (.registerAndPutChunk _ _) => False
  | _ => True

/-- A manifest that is uploaded names its chunks by chunk ids. -/
def IdsFormed : ClientRequest → Prop
  | .typed (.putManifest manifest) => manifest.IdsFormed
  | _ => True

/-- Nothing is missing where the description has a `nullable` property. -/
def Complete : ClientRequest → Prop
  | .typed (.createVersion _ _ parentVersionId _) => parentVersionId.isSome = true
  | _ => True

end ClientRequest

omit [Chrono] [Blake3] in
/-- The path parameter of a call is one that the description allows. -/
theorem describes_display (huuid : UuidCrate.Lawful) (haxum : Axum.Lawful) {tag : String}
    {u : Uuid} (hne : tag ≠ "") (hslash : '/' ∉ tag.toList) (hescape : '%' ∉ tag.toList) :
    (ApiOperation.tagged tag).Describes (tag ++ UuidCrate.display u) := by
  have hsafe := pathSafe_tagged huuid u hne hslash hescape
  have hparse := parseTagged_display huuid tag id u
  exact describes_param (pathParam_of_pathSafe hsafe haxum) (test_of_parseTagged hparse)

omit [UuidCrate] [Chrono] [SerdeJson] [Blake3] in
/-- A request on the path of its route conforms when its body does. -/
theorem conforms_iff_body {mode : Reading} {op : ApiOperation} {r : HttpRequest} {e : Endpoint}
    (hend : endpoint r.path = some e) (hop : e.operation r.method = some op)
    (hpath : List.Forall₂ PathPart.Describes op.path e.segments) :
    op.Conforms mode r ↔ Content.Required mode op.requestBody r := by
  constructor
  · exact ApiOperation.Conforms.body
  · intro hbody
    have hserves := ApiOperation.serves_iff.mpr ⟨e, hend, hop⟩
    exact ⟨hserves.1, ⟨_, (endpoint_segments hend).1, hpath⟩, hbody⟩

omit [UuidCrate] [Chrono] [Blake3] in
/-- A body that the client writes. -/
theorem required_json (haxum : Axum.Lawful) {mode : Reading} {name : SchemaName}
    {method : Method} {path : String} {j : Json} (hwithin : j.within recursionLimit = true) :
    Content.Required mode (some (.json name)) (ClientCall.json method path j) ↔
      Describes mode name j := by
  have hread : Axum.readJson (ClientCall.json method path j).body = some j :=
    haxum.readJson_toVec j hwithin
  constructor
  · intro h
    obtain ⟨_, j', hj', hdescribes⟩ := h
    rw [hread] at hj'
    cases hj'
    exact hdescribes
  · intro h
    exact ⟨haxum.isJson_json, j, hread, h⟩

omit [Chrono] [Blake3] in
/-- A request of the client that is on the path of its route. -/
theorem ClientRequest.conforms_of_body {mode : Reading} {req : ClientRequest}
    {op : ApiOperation} {e : Endpoint} (hend : endpoint req.http.path = some e)
    (hop : e.operation req.http.method = some op)
    (hpath : List.Forall₂ PathPart.Describes op.path e.segments)
    (hmedia : Content.Announced op.requestBody req.http ↔ req.NamesMedia)
    (hbody : Content.Required mode op.requestBody req.http ↔
      req.IdsFormed ∧ (mode.nullable = true ∨ req.Complete)) :
    ∃ op : ApiOperation, op.Serves req.http ∧
      (Content.Announced op.requestBody req.http ↔ req.NamesMedia) ∧
      (op.Conforms mode req.http ↔ req.IdsFormed ∧ (mode.nullable = true ∨ req.Complete)) :=
  ⟨op, ApiOperation.serves_iff.mpr ⟨e, hend, hop⟩, hmedia,
    (conforms_iff_body hend hop hpath).trans hbody⟩

end requests

/-! ### A sample

    The upload of `abc`, and the creation of a file without a version. -/

namespace Sample

def uploadCall : ClientCall := .registerAndPutChunk chunk abc

/-- The creation of a version without a parent. -/
def orphanRequest : ClientRequest := .typed (.createVersion ⟨⟨1⟩⟩ ⟨⟨2⟩⟩ none ⟨⟨3⟩⟩)

def creation : Request := .createFile ⟨⟨⟨7⟩⟩, "a.txt", "k1"⟩

noncomputable def uploadServer : Server :=
  letI := blake3
  letI := hyphenatedUuids
  Server.init.serve Api.handle (StoreOp.exec (Env.sample 1 10)) uploadCall.handled

noncomputable def creationServer : Server :=
  letI := blake3
  letI := hyphenatedUuids
  Server.init.serve Api.handle (StoreOp.exec (Env.sample 1 10)) creation

theorem uploadServer_reachable :
    letI := blake3
    letI := hyphenatedUuids
    uploadServer.Reachable :=
  letI := blake3
  letI := hyphenatedUuids
  Pool.steps_serve Server.init uploadCall.handled (follows_handle trivial)

theorem creationServer_reachable :
    letI := blake3
    letI := hyphenatedUuids
    creationServer.Reachable :=
  letI := blake3
  letI := hyphenatedUuids
  Pool.steps_serve Server.init creation (follows_handle rfl)

theorem upload_serves :
    letI := hyphenatedUuids
    letI := serdeJson
    ApiOperation.putChunk.Serves uploadCall.request := by
  let := hyphenatedUuids
  let := serdeJson
  have hend : endpoint uploadCall.request.path = some (.chunk chunk.str) :=
    endpoint_chunk chunk_wellFormed.pathSafe
  exact ApiOperation.serves_iff.mpr ⟨_, hend, rfl⟩

/-- The upload succeeds. -/
theorem upload_responds :
    letI := blake3
    letI := hyphenatedUuids
    letI := chrono
    letI := serdeJson
    letI := axum
    ∃ resp, uploadServer.Responds uploadCall.request resp ∧ isSuccess resp.status = true := by
  let := blake3
  let := hyphenatedUuids
  let := chrono
  let := serdeJson
  let := axum
  have hroute := uploadCall.route_request hyphenatedUuids_lawful axum_lawful chunk_wellFormed
    (by decide)
  have hok : (uploadCall.direct (Env.sample 1 10) AppState.default).1.isOk = true := by
    decide +kernel
  obtain ⟨a, ha⟩ := isOk_eq_true.mp hok
  have hanswer := answer_of_stores (Env.sample 1 10) AppState.default hroute
  rw [uploadCall.serve_handled hyphenatedUuids_lawful _ chunk_wellFormed, ha] at hanswer
  refine ⟨_, responds_serve hroute (congrArg Prod.fst hanswer), rfl⟩

end Sample

/-! ## Section 6: Conformance -/

/-- **An answer conforms to the description** exactly when the request was
    taken: in every run, for every request for an operation. -/
theorem answers_conform [UuidCrate] [Chrono] [SerdeJson] [Axum] [Blake3]
    (hserde : SerdeJson.Lawful) (hplain : Axum.PlainRejections) {c : Server}
    (h : c.Reachable) {r : HttpRequest} {op : ApiOperation} (hop : op.Serves r)
    {resp : HttpResponse} (hresp : c.Responds r resp) :
    op.Documents ⟨true, false⟩ resp ↔ r.Taken := by
  cases servedAs hop hresp with
  | refused rejection hnot => exact iff_of_false (not_documents_reject hplain rejection) hnot
  | health htaken hhealth =>
    subst hhealth
    exact iff_of_true ((documents_json hserde rfl rfl).mpr HealthResponse.describes) htaken
  | @handled req x _ htaken hreq _ ha hx =>
    subst hreq
    refine iff_of_true ?_ htaken
    cases x with
    | ok a =>
      cases hx
      exact ((answered_answers h ha).documents_iff hserde).mpr (.inl rfl)
    | err e =>
      cases hx
      exact documents_error hserde (operation_ne_health req) (answered_bare h ha)
    | panic => cases hx

theorem answers_conform_sample :
    letI := Sample.blake3
    letI := Sample.hyphenatedUuids
    letI := Sample.chrono
    letI := Sample.serdeJson
    letI := Sample.axum
    ∃ resp, Sample.uploadServer.Responds Sample.uploadCall.request resp ∧
      (ApiOperation.putChunk.Documents ⟨true, false⟩ resp ↔ Sample.uploadCall.request.Taken) := by
  let := Sample.blake3
  let := Sample.hyphenatedUuids
  let := Sample.chrono
  let := Sample.serdeJson
  let := Sample.axum
  obtain ⟨resp, hresp, _⟩ := Sample.upload_responds
  exact ⟨resp, hresp, answers_conform Sample.serdeJson_lawful Sample.axum_plainRejections
    Sample.uploadServer_reachable Sample.upload_serves hresp⟩

/-- **Where `nullable` has no meaning**, an answer conforms exactly when
    nothing is missing from it. -/
theorem answers_conform_strictly [UuidCrate] [Chrono] [SerdeJson] [Blake3]
    (hserde : SerdeJson.Lawful) {c : Server} (h : c.Reachable)
    {req : Request} {x : Res Response} (ha : c.Answered req x) {resp : HttpResponse}
    (hresp : respond x = some resp) :
    req.operation.Documents ⟨false, false⟩ resp ↔ ∀ a, x = ok a → a.Complete := by
  cases x with
  | ok a =>
    cases hresp
    rw [(answered_answers h ha).documents_iff hserde]
    constructor
    · intro hcomplete a' ha'
      cases ha'
      exact hcomplete.resolve_left nofun
    · intro hcomplete
      exact .inr (hcomplete a rfl)
  | err e =>
    cases hresp
    refine iff_of_true ?_ nofun
    exact documents_error hserde (operation_ne_health req) (answered_bare h ha)
  | panic => cases hresp

/-- The new file has no version, and is not as described. -/
theorem answers_conform_strictly_sample :
    letI := Sample.blake3
    letI := Sample.hyphenatedUuids
    letI := Sample.chrono
    letI := Sample.serdeJson
    ∃ resp, respond (Api.serve (Env.sample 1 10) Sample.creation AppState.default).1 = some resp ∧
      ¬ ApiOperation.createFile.Documents ⟨false, false⟩ resp := by
  let := Sample.blake3
  let := Sample.hyphenatedUuids
  let := Sample.chrono
  let := Sample.serdeJson
  have hfile : (Api.serve (Env.sample 1 10) Sample.creation AppState.default).1 =
      ok (.file ⟨contractVersion, Inner.freshFile (Env.sample 1 10) ⟨⟨7⟩⟩ "a.txt"⟩) := by rfl
  have ha : Sample.creationServer.Answered Sample.creation
      (Api.serve (Env.sample 1 10) Sample.creation AppState.default).1 :=
    ⟨_, List.mem_append_right _ (List.mem_singleton.mpr rfl), rfl, rfl⟩
  rw [hfile] at ha ⊢
  refine ⟨_, rfl, fun hdoc => ?_⟩
  have hcomplete := (answers_conform_strictly Sample.serdeJson_lawful
    Sample.creationServer_reachable ha rfl).mp hdoc _ rfl
  cases hcomplete

/-- **Only a request that conforms to the description succeeds**: its path
    parameters are of their patterns, and its body is of its schema. -/
theorem success_conforms [UuidCrate] [Chrono] [SerdeJson] [Axum] [Blake3]
    (hplain : Axum.PlainRejections) {c : Server} (h : c.Reachable)
    {r : HttpRequest} {op : ApiOperation} (hop : op.Serves r) {resp : HttpResponse}
    (hresp : c.Responds r resp) (hsuccess : isSuccess resp.status = true) :
    op.Conforms serdeReading r := by
  cases servedAs hop hresp with
  | refused rejection _ =>
    rw [not_isSuccess_reject hplain] at hsuccess
    cases hsuccess
  | health _ hhealth =>
    subst hhealth
    obtain ⟨hmethod, rest, hpath, hcovers, _⟩ := hop
    -- a path without parameters has nothing else to conform to
    cases hcovers with
    | cons hpart hnil =>
      cases hnil
      exact ⟨hmethod, ⟨_, hpath, .cons hpart .nil⟩, trivial⟩
  | @handled req x _ _ _ hconforms ha hx =>
    cases x with
    | ok a => exact hconforms a (answered_answers h ha)
    | err e =>
      cases hx
      have hfail : isSuccess (errorResponse e).status = false := not_isSuccess_statusFor e.code
      rw [hfail] at hsuccess
      cases hsuccess
    | panic => cases hx

theorem success_conforms_sample :
    letI := Sample.hyphenatedUuids
    letI := Sample.serdeJson
    letI := Sample.axum
    ApiOperation.putChunk.Conforms serdeReading Sample.uploadCall.request := by
  let := Sample.blake3
  let := Sample.hyphenatedUuids
  let := Sample.chrono
  let := Sample.serdeJson
  let := Sample.axum
  obtain ⟨resp, hresp, hsuccess⟩ := Sample.upload_responds
  exact success_conforms Sample.axum_plainRejections Sample.uploadServer_reachable
    Sample.upload_serves hresp hsuccess

/-- **What the client sends conforms to the description**, but for two calls:
    the upload of a manifest conforms when its chunk ids are, and where
    `nullable` has no meaning, the creation of a version conforms when it has
    a parent. The media type of the body is named by every request that needs
    one but the upload of a chunk. -/
theorem requests_conform [UuidCrate] [SerdeJson] [Axum]
    (huuid : UuidCrate.Lawful) (haxum : Axum.Lawful) (mode : Reading) {req : ClientRequest}
    (hwf : req.WellFormed) : ∃ op : ApiOperation, op.Serves req.http ∧
      (Content.Announced op.requestBody req.http ↔ req.NamesMedia) ∧
      (op.Conforms mode req.http ↔
        req.IdsFormed ∧ (mode.nullable = true ∨ req.Complete)) := by
  have htag : ∀ tag ∈ ["f_", "d_", "v_", "m_"], ∀ u : Uuid,
      PathSafe (tag ++ UuidCrate.display u) ∧
        (ApiOperation.tagged tag).Describes (tag ++ UuidCrate.display u) := by
    intro tag hmem u
    have hplain : ∀ tag ∈ ["f_", "d_", "v_", "m_"], tag ≠ "" ∧ '/' ∉ tag.toList ∧
        '%' ∉ tag.toList := by decide
    obtain ⟨hne, hslash, hescape⟩ := hplain tag hmem
    exact ⟨pathSafe_tagged huuid u hne hslash hescape,
      describes_display huuid haxum hne hslash hescape⟩
  have hchunk : ∀ id : ChunkId, id.WellFormed → PathSafe id.str ∧
      (PathPart.param chunkIdPattern).Describes id.str := by
    intro id hid
    have hsafe : PathSafe id.str := hid.pathSafe
    exact ⟨hsafe, describes_param (pathParam_of_pathSafe hsafe haxum) (chunkIdPattern_test.mpr hid)⟩
  -- no body is required, so no media type is
  have hmedia : True ↔ True := Iff.rfl
  -- a body that is described whatever it says
  have halways : ∀ {a : Prop}, True ↔ True ∧ (a ∨ True) := by simp
  cases req with
  | health =>
    have hend : endpoint (ClientCall.get "/health").path = some .health := by decide +kernel
    exact ClientRequest.conforms_of_body hend rfl (.cons rfl .nil) hmedia halways
  | getChunkRange id offset last =>
    obtain ⟨hsafe, hparam⟩ := hchunk id hwf
    have hend := endpoint_chunk hsafe
    exact ClientRequest.conforms_of_body hend rfl (.cons rfl (.cons rfl (.cons hparam .nil)))
      hmedia halways
  | typed call =>
    cases call with
    | createFile parentId name idempotencyKey =>
      have hend : endpoint "/v1/files" = some .files := by decide +kernel
      refine ClientRequest.conforms_of_body hend rfl (.cons rfl (.cons rfl .nil))
        (iff_of_true rfl trivial) ?_
      have hbody : Describes mode .createFileRequest
          (CreateFileRequest.toJson ⟨parentId, name, idempotencyKey⟩) :=
        CreateFileRequest.describes_toJson _
      exact iff_of_true ((required_json haxum (CreateFileRequest.within_toJson _)).mpr hbody)
        ⟨trivial, .inr trivial⟩
    | statFile fileId =>
      obtain ⟨hsafe, hparam⟩ := htag "f_" (by decide) fileId.uuid
      have hend := endpoint_file hsafe
      exact ClientRequest.conforms_of_body hend rfl (.cons rfl (.cons rfl (.cons hparam .nil)))
        hmedia halways
    | listChildren dirId =>
      obtain ⟨hsafe, hparam⟩ := htag "d_" (by decide) dirId.uuid
      have hend := endpoint_children hsafe
      exact ClientRequest.conforms_of_body hend rfl
        (.cons rfl (.cons rfl (.cons hparam (.cons rfl .nil)))) hmedia halways
    | registerAndPutChunk id bytes =>
      obtain ⟨hsafe, hparam⟩ := hchunk id hwf
      have hend := endpoint_chunk hsafe
      -- the body is sent without its media type
      exact ClientRequest.conforms_of_body hend rfl (.cons rfl (.cons rfl (.cons hparam .nil)))
        (iff_of_false nofun not_false) halways
    | putManifest manifest =>
      obtain ⟨hsafe, hparam⟩ := htag "m_" (by decide) manifest.manifestId.uuid
      have hend := endpoint_manifest hsafe
      refine ClientRequest.conforms_of_body hend rfl (.cons rfl (.cons rfl (.cons hparam .nil)))
        (iff_of_true rfl trivial) ?_
      -- of the schemas of the body only the chunk ids can be missed
      have hbody : Content.Required mode (some (.json .putManifestRequest))
          (ClientCall.putManifest manifest).request ↔ manifest.IdsFormed :=
        (required_json haxum (PutManifestRequest.within_toJson ⟨manifest⟩)).trans
          (PutManifestRequest.describes_iff ⟨manifest⟩)
      exact hbody.trans (and_iff_left (.inr trivial)).symm
    | getManifest manifestId =>
      obtain ⟨hsafe, hparam⟩ := htag "m_" (by decide) manifestId.uuid
      have hend := endpoint_manifest hsafe
      exact ClientRequest.conforms_of_body hend rfl (.cons rfl (.cons rfl (.cons hparam .nil)))
        hmedia halways
    | createVersion fileId versionId parentVersionId manifestId =>
      obtain ⟨hsafe, hparam⟩ := htag "f_" (by decide) fileId.uuid
      have hend := endpoint_versions hsafe
      refine ClientRequest.conforms_of_body hend rfl
        (.cons rfl (.cons rfl (.cons hparam (.cons rfl .nil)))) (iff_of_true rfl trivial) ?_
      -- a missing parent is written as null
      have hbody : Content.Required mode (some (.json .createVersionRequest))
          (ClientCall.createVersion fileId versionId parentVersionId manifestId).request ↔
            mode.nullable = true ∨ parentVersionId.isSome = true :=
        (required_json haxum (CreateVersionRequest.within_toJson _)).trans
          (CreateVersionRequest.describes_iff _)
      exact hbody.trans (and_iff_right trivial).symm
    | commitVersion versionId =>
      obtain ⟨hsafe, hparam⟩ := htag "v_" (by decide) versionId.uuid
      have hend := endpoint_commit hsafe
      exact ClientRequest.conforms_of_body hend rfl
        (.cons rfl (.cons rfl (.cons hparam (.cons rfl .nil)))) hmedia halways

/-- Where `nullable` has no meaning, the creation of a version without a parent
    is not as described. -/
theorem requests_conform_sample :
    letI := Sample.hyphenatedUuids
    letI := Sample.serdeJson
    letI := Sample.axum
    ∃ op : ApiOperation, op.Serves Sample.orphanRequest.http ∧
      Content.Announced op.requestBody Sample.orphanRequest.http ∧
      ¬ op.Conforms ⟨false, false⟩ Sample.orphanRequest.http := by
  let := Sample.hyphenatedUuids
  let := Sample.serdeJson
  let := Sample.axum
  obtain ⟨op, hserves, hannounced, hiff⟩ := requests_conform Sample.hyphenatedUuids_lawful
    Sample.axum_lawful ⟨false, false⟩ (show Sample.orphanRequest.WellFormed from trivial)
  refine ⟨op, hserves, hannounced.mpr trivial, fun h => ?_⟩
  rcases (hiff.mp h).2 with hnullable | hcomplete
  · cases hnullable
  · cases hcomplete

end Space
