import Space.Client.Send
import Space.Cloud.Errors
import Space.Contracts.UuidText

/-! # The client as a stub

    The typed calls of `CloudClient`, with the server at the other end: what
    a call sends, what it makes of the response, and that the two together
    are a call of the stores. -/

namespace Space

open Rust Outcome Data

/-! ## Section 1: Paths -/

/-- A text that a path carries as it is. -/
structure PathSafe (s : String) : Prop where
  nonempty : s ≠ ""
  noSlash : '/' ∉ s.toList
  noEscape : '%' ∉ s.toList

/-- The segments of a path with one parameter. -/
theorem segments_param {path param : String} {before after : List String} (hparam : PathSafe param)
    (hpath : path.toList = List.intercalate ['/'] ((before ++ param :: after).map String.toList))
    (hno : ∀ text ∈ before ++ after, '/' ∉ text.toList) :
    segments path = before ++ param :: after := by
  have hsplit : path.toList.splitOn '/' = (before ++ param :: after).map String.toList := by
    rw [hpath]
    apply List.splitOn_intercalate
    · intro l hl
      obtain ⟨text, htext, rfl⟩ := List.mem_map.mp hl
      by_cases heq : text = param
      · rw [heq]
        exact hparam.noSlash
      · apply hno
        simpa [heq] using htext
    · simp
  have hback : String.ofList ∘ String.toList = id := funext fun s => String.ofList_toList
  rw [segments, hsplit, List.map_map, hback, List.map_id]

section paths

variable {id : String} (h : PathSafe id)

include h

theorem endpoint_file : endpoint ("/v1/files/" ++ id) = some (.file id) := by
  have hsegments : segments ("/v1/files/" ++ id) = ["", "v1", "files"] ++ [id] :=
    segments_param h (by simp [List.intercalate]) (by decide)
  rw [endpoint, hsegments]
  exact if_neg h.nonempty

theorem endpoint_children :
    endpoint ("/v1/dirs/" ++ id ++ "/children") = some (.children id) := by
  have hsegments : segments ("/v1/dirs/" ++ id ++ "/children") =
      ["", "v1", "dirs"] ++ id :: ["children"] :=
    segments_param h (by simp [List.intercalate]) (by decide)
  rw [endpoint, hsegments]
  rfl

theorem endpoint_versions :
    endpoint ("/v1/files/" ++ id ++ "/versions") = some (.versions id) := by
  have hsegments : segments ("/v1/files/" ++ id ++ "/versions") =
      ["", "v1", "files"] ++ id :: ["versions"] :=
    segments_param h (by simp [List.intercalate]) (by decide)
  rw [endpoint, hsegments]
  rfl

theorem endpoint_commit :
    endpoint ("/v1/versions/" ++ id ++ "/commit") = some (.commit id) := by
  have hsegments : segments ("/v1/versions/" ++ id ++ "/commit") =
      ["", "v1", "versions"] ++ id :: ["commit"] :=
    segments_param h (by simp [List.intercalate]) (by decide)
  rw [endpoint, hsegments]
  rfl

theorem endpoint_manifest : endpoint ("/v1/manifests/" ++ id) = some (.manifest id) := by
  have hsegments : segments ("/v1/manifests/" ++ id) = ["", "v1", "manifests"] ++ [id] :=
    segments_param h (by simp [List.intercalate]) (by decide)
  rw [endpoint, hsegments]
  exact if_neg h.nonempty

theorem endpoint_chunk : endpoint ("/v1/chunks/" ++ id) = some (.chunk id) := by
  have hsegments : segments ("/v1/chunks/" ++ id) = ["", "v1", "chunks"] ++ [id] :=
    segments_param h (by simp [List.intercalate]) (by decide)
  rw [endpoint, hsegments]
  exact if_neg h.nonempty

theorem pathParam_of_pathSafe [SerdeJson] [Axum] (haxum : Axum.Lawful) :
    pathParam id = .ok id := pathParam_eq_ok.mpr (haxum.percentDecode_plain id h.noEscape)

end paths

/-- A tag of letters and an underscore, and a UUID in any of its forms. -/
theorem pathSafe_isText {tag t : String} {u : Uuid} {form : UuidForm}
    (h : u.IsText form t.toList) (hne : tag ≠ "") (hslash : '/' ∉ tag.toList)
    (hescape : '%' ∉ tag.toList) : PathSafe (tag ++ t) := by
  have hdigit : ∀ d < 16, '/' ≠ Nat.digitChar d ∧ '%' ≠ Nat.digitChar d := by decide
  have hform : '/' ∉ form.before ++ form.after ∧ '%' ∉ form.before ++ form.after := by
    cases form <;> decide
  rw [List.mem_append, List.mem_append, not_or, not_or] at hform
  have hnoSlash : '/' ∉ t.toList := by
    apply h.notMem hform.1.1 hform.1.2
    intro hchar
    rcases hchar with heq | ⟨d, hd, heq⟩
    · exact absurd heq (by decide)
    · exact (hdigit d hd).1 heq
  have hnoEscape : '%' ∉ t.toList := by
    apply h.notMem hform.2.1 hform.2.2
    intro hchar
    rcases hchar with heq | ⟨d, hd, heq⟩
    · exact absurd heq (by decide)
    · exact (hdigit d hd).2 heq
  constructor
  · simp [hne]
  · simp only [String.toList_append, List.mem_append, hslash, false_or]
    exact hnoSlash
  · simp only [String.toList_append, List.mem_append, hescape, false_or]
    exact hnoEscape

theorem pathSafe_tagged [UuidCrate] (huuid : UuidCrate.Lawful) {tag : String} (u : Uuid)
    (hne : tag ≠ "") (hslash : '/' ∉ tag.toList) (hescape : '%' ∉ tag.toList) :
    PathSafe (tag ++ UuidCrate.display u) := by
  rw [huuid.display]
  exact pathSafe_isText (Uuid.IsText.hyphenated u) hne hslash hescape

theorem ChunkId.WellFormed.pathSafe {id : ChunkId} (h : id.WellFormed) : PathSafe id.str := by
  obtain ⟨hex, hid, _, hhex⟩ := h
  have hchar : ∀ c ∈ hex, c ≠ '/' ∧ c ≠ '%' := by
    intro c hc
    constructor
    · rintro rfl
      exact absurd (hhex _ hc) (by decide)
    · rintro rfl
      exact absurd (hhex _ hc) (by decide)
  constructor
  · intro hnil
    rw [hnil] at hid
    cases hid
  · rw [hid]
    simp only [List.mem_cons, not_or]
    exact ⟨by decide, by decide, by decide, fun hc => (hchar _ hc).1 rfl⟩
  · rw [hid]
    simp only [List.mem_cons, not_or]
    exact ⟨by decide, by decide, by decide, fun hc => (hchar _ hc).2 rfl⟩

/-! ## Section 2: Calls -/

/-- The typed calls that create, look up and commit. -/
inductive ClientCall where
  | createFile (parentId : DirectoryId) (name idempotencyKey : String)
  | statFile (fileId : FileId)
  | listChildren (dirId : DirectoryId)
  | registerAndPutChunk (id : ChunkId) (bytes : Bytes)
  | putManifest (manifest : Manifest)
  | getManifest (manifestId : ManifestId)
  | createVersion (fileId : FileId) (versionId : VersionId) (parentVersionId : Option VersionId)
      (manifestId : ManifestId)
  | commitVersion (versionId : VersionId)

namespace ClientCall

/-- What a successful call returns. -/
abbrev Value : ClientCall → Type
  | createFile .. => File
  | statFile .. => File
  | listChildren .. => List File
  | registerAndPutChunk .. => ChunkResponse
  | putManifest .. => Manifest
  | getManifest .. => Manifest
  | createVersion .. => Version
  | commitVersion .. => Version

/-- The chunk id is one that `ChunkId::parse` accepts. -/
def WellFormed : ClientCall → Prop
  | registerAndPutChunk id _ => id.WellFormed
  | _ => True

section client

variable [UuidCrate] [SerdeJson]

/-- `RequestBuilder::json`. -/
def json (method : Method) (path : String) (body : Json) : HttpRequest :=
  ⟨method, path, some "application/json", none, SerdeJson.toVec body⟩

/-- A `GET` without a body. -/
def get (path : String) : HttpRequest := ⟨.get, path, none, none, []⟩

/-- The request that the call sends. -/
def request : ClientCall → HttpRequest
  | createFile parentId name idempotencyKey =>
    json .post "/v1/files" (CreateFileRequest.toJson ⟨parentId, name, idempotencyKey⟩)
  | statFile fileId => get ("/v1/files/" ++ fileId.display)
  | listChildren dirId => get ("/v1/dirs/" ++ dirId.display ++ "/children")
  | registerAndPutChunk id bytes => ⟨.put, "/v1/chunks/" ++ id.str, none, none, bytes.data⟩
  | putManifest manifest =>
    json .put ("/v1/manifests/" ++ manifest.manifestId.display)
      (PutManifestRequest.toJson ⟨manifest⟩)
  | getManifest manifestId => get ("/v1/manifests/" ++ manifestId.display)
  | createVersion fileId versionId parentVersionId manifestId =>
    json .post ("/v1/files/" ++ fileId.display ++ "/versions")
      (CreateVersionRequest.toJson ⟨versionId, parentVersionId, manifestId⟩)
  | commitVersion versionId =>
    json .post ("/v1/versions/" ++ versionId.display ++ "/commit") (.obj [])

variable [Chrono] [Reqwest]

/-- What the call makes of the response. -/
def receive : (call : ClientCall) → Option HttpResponse → Res call.Value
  | createFile .., resp => do
    let r ← CloudClient.send FileResponse.ofJson resp
    return r.file
  | statFile _, resp => do
    let r ← CloudClient.send FileResponse.ofJson resp
    return r.file
  | listChildren _, resp => do
    let r ← CloudClient.send ListChildrenResponse.ofJson resp
    return r.files
  | registerAndPutChunk .., resp => CloudClient.send ChunkResponse.ofJson resp
  | putManifest _, resp => do
    let r ← CloudClient.send ManifestResponse.ofJson resp
    return r.manifest
  | getManifest _, resp => do
    let r ← CloudClient.send ManifestResponse.ofJson resp
    return r.manifest
  | createVersion .., resp => do
    let r ← CloudClient.send VersionResponse.ofJson resp
    return r.version
  | commitVersion _, resp => do
    let r ← CloudClient.send VersionResponse.ofJson resp
    return r.version

variable [Axum] [Blake3]

/-- The call, with the server in the state `s` at the other end. -/
def run (env : Env) (call : ClientCall) (s : AppState) : Res call.Value × AppState :=
  (call.receive (Router.answer env call.request s).1, (Router.answer env call.request s).2)

end client

variable [Blake3]

/-- The calls of the stores that the call stands for. -/
def direct (env : Env) : (call : ClientCall) → AppState → Res call.Value × AppState
  | createFile parentId name idempotencyKey, s =>
    StoreOp.exec env (.metadata (.createFile parentId name idempotencyKey)) s
  | statFile fileId, s => StoreOp.exec env (.metadata (.getFile fileId)) s
  | listChildren dirId, s => StoreOp.exec env (.metadata (.listChildren dirId)) s
  | registerAndPutChunk id bytes, s =>
    let put := StoreOp.exec env (.blobs (.put id bytes)) s
    put.1.tryAt put.2 fun _ =>
      let registered := StoreOp.exec env (.metadata (.registerChunk id bytes.len)) put.2
      ((fun chunk => ⟨contractVersion, chunk⟩) <$> registered.1, registered.2)
  | putManifest manifest, s => StoreOp.exec env (.metadata (.putManifest manifest)) s
  | getManifest manifestId, s => StoreOp.exec env (.metadata (.getManifest manifestId)) s
  | createVersion fileId versionId parentVersionId manifestId, s =>
    StoreOp.exec env (.metadata (.createVersion fileId versionId parentVersionId manifestId)) s
  | commitVersion versionId, s => StoreOp.exec env (.metadata (.commitVersion versionId)) s

end ClientCall

/-! ## Section 3: The call and the calls of the stores -/

namespace ClientCall

variable [UuidCrate]

/-- The request as it reaches its handler. -/
def handled : ClientCall → Request
  | createFile parentId name idempotencyKey => .createFile ⟨parentId, name, idempotencyKey⟩
  | statFile fileId => .statFile fileId.display
  | listChildren dirId => .listChildren dirId.display
  | registerAndPutChunk id bytes => .putChunk id.str bytes
  | putManifest manifest => .putManifest manifest.manifestId.display ⟨manifest⟩
  | getManifest manifestId => .getManifest manifestId.display
  | createVersion fileId versionId parentVersionId manifestId =>
    .createVersion fileId.display ⟨versionId, parentVersionId, manifestId⟩
  | commitVersion versionId => .commitVersion versionId.display

omit [UuidCrate] in
/-- The response that the handler makes of the value of the call. -/
def respond : (call : ClientCall) → call.Value → Response
  | createFile .., file => .file ⟨contractVersion, file⟩
  | statFile _, file => .file ⟨contractVersion, file⟩
  | listChildren _, files => .children ⟨contractVersion, files⟩
  | registerAndPutChunk .., r => .chunk r
  | putManifest _, m => .manifest ⟨contractVersion, m⟩
  | getManifest _, m => .manifest ⟨contractVersion, m⟩
  | createVersion .., version => .version ⟨contractVersion, version⟩
  | commitVersion _, version => .version ⟨contractVersion, version⟩

/-- **The handler makes the calls that the call stands for.** -/
theorem serve_handled [Blake3] (huuid : UuidCrate.Lawful) (env : Env) {call : ClientCall}
    (hwf : call.WellFormed) (s : AppState) :
    Api.serve env call.handled s =
      (call.respond <$> (call.direct env s).1, (call.direct env s).2) := by
  cases call with
  | createFile parentId name idempotencyKey =>
    have hcall : Api.metaCall (.createFile ⟨parentId, name, idempotencyKey⟩) = some (ok
        ⟨.createFile parentId name idempotencyKey, fun file => .file ⟨contractVersion, file⟩⟩) :=
      rfl
    exact serve_metaCall env s hcall
  | statFile fileId =>
    have hparse := FileId.parse_display huuid fileId
    exact serve_metaCall env s (Api.metaCall_statFile hparse)
  | listChildren dirId =>
    have hparse := DirectoryId.parse_display huuid dirId
    exact serve_metaCall env s (Api.metaCall_listChildren hparse)
  | registerAndPutChunk id bytes =>
    have hparse : ChunkId.parse id.str = ok id := ChunkId.parse_str.mpr hwf
    -- the only call that needs both stores
    show Api.serve env (.putChunk id.str bytes) s = _
    rw [serve_putChunk, hparse, tryAt_ok]
    simp only [direct, StoreOp.exec, BlobOp.exec, MetaOp.exec]
    cases (s.blobs.put id bytes).1 with
    | ok u =>
      simp only [tryAt_ok]
      cases (s.metaStore.registerChunk id bytes.len).1 <;> rfl
    | err e => rfl
    | panic => rfl
  | putManifest manifest =>
    -- the client takes the path from the manifest, so path and body agree
    have hparse := ManifestId.parse_display huuid manifest.manifestId
    exact serve_metaCall env s (Api.metaCall_putManifest hparse)
  | getManifest manifestId =>
    have hparse := ManifestId.parse_display huuid manifestId
    exact serve_metaCall env s (Api.metaCall_getManifest hparse)
  | createVersion fileId versionId parentVersionId manifestId =>
    have hparse := FileId.parse_display huuid fileId
    exact serve_metaCall env s (Api.metaCall_createVersion hparse _)
  | commitVersion versionId =>
    have hparse := VersionId.parse_display huuid versionId
    exact serve_metaCall env s (Api.metaCall_commitVersion hparse)

variable [SerdeJson] [Axum]

omit [UuidCrate] in
theorem jsonBody_json (haxum : Axum.Lawful) {T : Type} {ofJson : Json → Option T} {method : Method}
    {path : String} {j : Json} {req : T} (hwithin : j.within recursionLimit = true)
    (hj : ofJson j = some req) (hlen : (json method path j).body.length ≤ bodyLimit) :
    jsonBody ofJson (json method path j) = .ok req := by
  have hread : Axum.readJson (json method path j).body = some j := haxum.readJson_toVec j hwithin
  refine jsonBody_eq_ok.mpr ⟨haxum.isJson_json, hlen, ?_⟩
  rw [hread, Option.bind_some, hj]

/-- **The router hands the request to its handler** with everything that the
    call put into it. -/
theorem route_request (huuid : UuidCrate.Lawful) (haxum : Axum.Lawful) {call : ClientCall}
    (hwf : call.WellFormed) (hlen : call.request.body.length ≤ bodyLimit) :
    route call.request = .ok (.stores call.handled) := by
  have hfile : ∀ id : FileId, PathSafe id.display := fun id =>
    pathSafe_tagged huuid id.uuid (by decide) (by decide) (by decide)
  have hdir : ∀ id : DirectoryId, PathSafe id.display := fun id =>
    pathSafe_tagged huuid id.uuid (by decide) (by decide) (by decide)
  have hversion : ∀ id : VersionId, PathSafe id.display := fun id =>
    pathSafe_tagged huuid id.uuid (by decide) (by decide) (by decide)
  have hmanifest : ∀ id : ManifestId, PathSafe id.display := fun id =>
    pathSafe_tagged huuid id.uuid (by decide) (by decide) (by decide)
  -- what is left once the path has been matched
  have hroute : ∀ {e : Endpoint}, endpoint call.request.path = some e →
      route call.request = e.extract call.request := by
    intro e hend
    rw [route, hend]
  cases call with
  | createFile parentId name idempotencyKey =>
    have hmethod : (createFile parentId name idempotencyKey).request.method = .post := rfl
    have hend : endpoint "/v1/files" = some .files := by decide +kernel
    have hbody : jsonBody CreateFileRequest.ofJson
        (request (.createFile parentId name idempotencyKey)) = .ok _ :=
      jsonBody_json haxum (CreateFileRequest.within_toJson _)
        (CreateFileRequest.ofJson_toJson huuid _) hlen
    rw [hroute hend, Endpoint.extract, if_pos hmethod, hbody]
    rfl
  | statFile fileId =>
    have hmethod : (statFile fileId).request.method.isGet = true := rfl
    rw [hroute (endpoint_file (hfile fileId)), Endpoint.extract, if_pos hmethod,
      pathParam_of_pathSafe (hfile fileId) haxum]
    rfl
  | listChildren dirId =>
    have hmethod : (listChildren dirId).request.method.isGet = true := rfl
    rw [hroute (endpoint_children (hdir dirId)), Endpoint.extract, if_pos hmethod,
      pathParam_of_pathSafe (hdir dirId) haxum]
    rfl
  | registerAndPutChunk id bytes =>
    have hmethod : (registerAndPutChunk id bytes).request.method = .put := rfl
    have hid : PathSafe id.str := ChunkId.WellFormed.pathSafe hwf
    have hbody : bytesBody (request (.registerAndPutChunk id bytes)) = .ok bytes :=
      bytesBody_eq_ok.mpr ⟨rfl, hlen⟩
    rw [hroute (endpoint_chunk hid), Endpoint.extract, if_pos hmethod,
      pathParam_of_pathSafe hid haxum, hbody]
    rfl
  | putManifest manifest =>
    have hmethod : (putManifest manifest).request.method = .put := rfl
    have hbody : jsonBody PutManifestRequest.ofJson (request (.putManifest manifest)) = .ok _ :=
      jsonBody_json haxum (PutManifestRequest.within_toJson _)
        (PutManifestRequest.ofJson_toJson huuid _) hlen
    rw [hroute (endpoint_manifest (hmanifest manifest.manifestId)), Endpoint.extract,
      if_pos hmethod, pathParam_of_pathSafe (hmanifest manifest.manifestId) haxum, hbody]
    rfl
  | getManifest manifestId =>
    -- the path is that of the upload; the method tells them apart
    have hput : ¬ (getManifest manifestId).request.method = .put := nofun
    have hmethod : (getManifest manifestId).request.method.isGet = true := rfl
    rw [hroute (endpoint_manifest (hmanifest manifestId)), Endpoint.extract, if_neg hput,
      if_pos hmethod, pathParam_of_pathSafe (hmanifest manifestId) haxum]
    rfl
  | createVersion fileId versionId parentVersionId manifestId =>
    have hmethod :
        (createVersion fileId versionId parentVersionId manifestId).request.method = .post := rfl
    have hbody : jsonBody CreateVersionRequest.ofJson
        (request (.createVersion fileId versionId parentVersionId manifestId)) = .ok _ :=
      jsonBody_json haxum (CreateVersionRequest.within_toJson _)
        (CreateVersionRequest.ofJson_toJson huuid _) hlen
    rw [hroute (endpoint_versions (hfile fileId)), Endpoint.extract, if_pos hmethod,
      pathParam_of_pathSafe (hfile fileId) haxum, hbody]
    rfl
  | commitVersion versionId =>
    have hmethod : (commitVersion versionId).request.method = .post := rfl
    rw [hroute (endpoint_commit (hversion versionId)), Endpoint.extract, if_pos hmethod,
      pathParam_of_pathSafe (hversion versionId) haxum]
    rfl

variable [Chrono] [Reqwest]

omit [Axum] [Chrono] in
/-- A response that the client can read is returned. -/
theorem send_toVec {T : Type} {ofJson : Json → Option T} {j : Json} {a : T}
    (hserde : SerdeJson.Lawful) (hwithin : j.within recursionLimit = true)
    (hj : ofJson j = some a) : CloudClient.send ofJson (some (jsonResponse 200 j)) = ok a :=
  CloudClient.send_ok rfl (hserde.fromSlice_toVec j hwithin) hj

omit [Axum] in
/-- **A value reaches the caller** as the store returned it. -/
theorem receive_respond (huuid : UuidCrate.Lawful) (hchrono : Chrono.Lawful)
    (hserde : SerdeJson.Lawful) (call : ClientCall) (a : call.Value) :
    call.receive (some (call.respond a).toHttp) = ok a := by
  have hfile := fun f : File => send_toVec hserde (FileResponse.within_toJson ⟨contractVersion, f⟩)
    (FileResponse.ofJson_toJson huuid hchrono ⟨contractVersion, f⟩)
  have hmanifest := fun m : Manifest =>
    send_toVec hserde (ManifestResponse.within_toJson ⟨contractVersion, m⟩)
      (ManifestResponse.ofJson_toJson huuid ⟨contractVersion, m⟩)
  have hversion := fun v : Version =>
    send_toVec hserde (VersionResponse.within_toJson ⟨contractVersion, v⟩)
      (VersionResponse.ofJson_toJson huuid hchrono ⟨contractVersion, v⟩)
  cases call with
  | createFile parentId name idempotencyKey =>
    rw [receive, respond, Response.toHttp, hfile]
    rfl
  | statFile fileId =>
    rw [receive, respond, Response.toHttp, hfile]
    rfl
  | listChildren dirId =>
    have hfiles := send_toVec hserde (ListChildrenResponse.within_toJson ⟨contractVersion, a⟩)
      (ListChildrenResponse.ofJson_toJson huuid hchrono ⟨contractVersion, a⟩)
    rw [receive, respond, Response.toHttp, hfiles]
    rfl
  | registerAndPutChunk id bytes =>
    -- here the response itself is returned, not a field of it
    exact send_toVec hserde a.within_toJson (ChunkResponse.ofJson_toJson a)
  | putManifest manifest =>
    rw [receive, respond, Response.toHttp, hmanifest]
    rfl
  | getManifest manifestId =>
    rw [receive, respond, Response.toHttp, hmanifest]
    rfl
  | createVersion fileId versionId parentVersionId manifestId =>
    rw [receive, respond, Response.toHttp, hversion]
    rfl
  | commitVersion versionId =>
    rw [receive, respond, Response.toHttp, hversion]
    rfl

omit [Axum] in
/-- **An error reaches the caller** as the server made it. -/
theorem receive_errorResponse (huuid : UuidCrate.Lawful) (hserde : SerdeJson.Lawful)
    (call : ClientCall) {e : SpaceError} (he : e.Bare) :
    call.receive (some (errorResponse e)) = err e := by
  have hsend : ∀ {T : Type} (ofJson : Json → Option T),
      CloudClient.send ofJson (some (errorResponse e)) = err e := fun ofJson =>
    CloudClient.send_err (not_isSuccess_statusFor e.code) (ofBody_errorResponse huuid hserde he)
  cases call with
  | registerAndPutChunk id bytes => exact hsend ChunkResponse.ofJson
  | _ =>
    rw [receive, hsend]
    rfl

omit [Axum] in
/-- A refusal is an error, whatever is in it. -/
theorem receive_of_failure (call : ClientCall) {resp : HttpResponse}
    (hstatus : isSuccess resp.status = false) : ∃ e, call.receive (some resp) = err e := by
  cases call with
  | registerAndPutChunk id bytes => exact CloudClient.send_of_failure hstatus
  | _ =>
    obtain ⟨e, he⟩ := CloudClient.send_of_failure hstatus
    exact ⟨e, by rw [receive, he, err_bind]⟩

omit [Axum] [Chrono] [Reqwest] in
/-- The response is sent with its body. -/
theorem deliver_request (call : ClientCall) (resp : HttpResponse) :
    call.request.method.deliver resp = resp := by
  cases call <;> rfl

/-- A call whose request is short enough is answered by its handler. -/
theorem run_eq [Blake3] (huuid : UuidCrate.Lawful) (haxum : Axum.Lawful) (env : Env)
    {call : ClientCall} (hwf : call.WellFormed) (hlen : call.request.body.length ≤ bodyLimit)
    (s : AppState) : call.run env s =
      (call.receive (Space.respond (call.respond <$> (call.direct env s).1)),
        (call.direct env s).2) := by
  have hanswer := answer_of_stores env s (call.route_request huuid haxum hwf hlen)
  have hserve := call.serve_handled huuid env hwf s
  have hdeliver : call.request.method.deliver = id := funext call.deliver_request
  rw [hserve, hdeliver, Option.map_id] at hanswer
  unfold run
  rw [hanswer]
  rfl

theorem run_of_ok [Blake3] (huuid : UuidCrate.Lawful) (hchrono : Chrono.Lawful)
    (hserde : SerdeJson.Lawful) (haxum : Axum.Lawful) (env : Env) {call : ClientCall}
    (hwf : call.WellFormed) (hlen : call.request.body.length ≤ bodyLimit) {s : AppState}
    {a : call.Value} (hdirect : (call.direct env s).1 = ok a) : (call.run env s).1 = ok a := by
  rw [run_eq huuid haxum env hwf hlen, hdirect]
  exact call.receive_respond huuid hchrono hserde a

theorem run_of_err [Blake3] (huuid : UuidCrate.Lawful) (hserde : SerdeJson.Lawful)
    (haxum : Axum.Lawful) (env : Env) {call : ClientCall} (hwf : call.WellFormed)
    (hlen : call.request.body.length ≤ bodyLimit) {s : AppState} {e : SpaceError}
    (hdirect : (call.direct env s).1 = err e) : (call.run env s).1 = err e := by
  have hbare := Api.serve_raises env call.handled s
  rw [call.serve_handled huuid env hwf s, hdirect] at hbare
  rw [run_eq huuid haxum env hwf hlen, hdirect]
  exact call.receive_errorResponse huuid hserde (hbare e rfl)

/-- A handler that panics takes the connection down. -/
theorem run_of_panic [Blake3] (huuid : UuidCrate.Lawful) (haxum : Axum.Lawful) (env : Env)
    {call : ClientCall} (hwf : call.WellFormed) (hlen : call.request.body.length ≤ bodyLimit)
    {s : AppState} (hdirect : (call.direct env s).1 = panic) :
    (call.run env s).1 = err (netError false Reqwest.closed) := by
  rw [run_eq huuid haxum env hwf hlen, hdirect]
  cases call <;> rfl

end ClientCall

/-- **The client is a transparent stub.** A call leaves the server as the
    calls of the stores that it stands for do, and returns what they return,
    the value or the error; when they panic there is nothing to return. -/
theorem client_is_transparent [UuidCrate] [Chrono] [SerdeJson] [Axum] [Reqwest] [Blake3]
    (huuid : UuidCrate.Lawful) (hchrono : Chrono.Lawful) (hserde : SerdeJson.Lawful)
    (haxum : Axum.Lawful) (env : Env) (call : ClientCall) (hwf : call.WellFormed)
    (hlen : call.request.body.length ≤ bodyLimit) (s : AppState) :
    (call.run env s).2 = (call.direct env s).2 ∧
      ((call.direct env s).1 ≠ panic → (call.run env s).1 = (call.direct env s).1) := by
  refine ⟨by rw [call.run_eq huuid haxum env hwf hlen], fun hpanic => ?_⟩
  cases hdirect : (call.direct env s).1 with
  | ok a => exact call.run_of_ok huuid hchrono hserde haxum env hwf hlen hdirect
  | err e => exact call.run_of_err huuid hserde haxum env hwf hlen hdirect
  | panic => exact absurd hdirect hpanic

/-- An upload of the bytes `abc` to an empty server. -/
theorem client_is_transparent_sample :
    letI := Sample.hyphenatedUuids
    letI := Sample.chrono
    letI := Sample.serdeJson
    letI := Sample.axum
    letI := Sample.reqwest
    letI := Sample.blake3
    let call : ClientCall := .registerAndPutChunk Sample.chunk Sample.abc
    (call.run (Env.sample 1 10) AppState.default).2 =
        (call.direct (Env.sample 1 10) AppState.default).2 ∧
      (call.run (Env.sample 1 10) AppState.default).1 =
        (call.direct (Env.sample 1 10) AppState.default).1 := by
  let := Sample.hyphenatedUuids
  let := Sample.chrono
  let := Sample.serdeJson
  let := Sample.axum
  let := Sample.reqwest
  let := Sample.blake3
  intro call
  have hok : (call.direct (Env.sample 1 10) AppState.default).1.isOk = true := by decide +kernel
  have hpanic : (call.direct (Env.sample 1 10) AppState.default).1 ≠ panic := by
    intro h
    rw [h] at hok
    cases hok
  obtain ⟨hstate, hreply⟩ := client_is_transparent Sample.hyphenatedUuids_lawful
    Sample.chrono_lawful Sample.serdeJson_lawful Sample.axum_lawful (Env.sample 1 10) call
    Sample.chunk_wellFormed (by decide) AppState.default
  exact ⟨hstate, hreply hpanic⟩

end Space
