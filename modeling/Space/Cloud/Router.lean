import Space.Cloud.Dto
import Space.Client.Core
import Space.Data.JsonText

/-! # The router

    `space_cloud_api::router`: from an HTTP request to the handler, and from
    what the handler returns to an HTTP response.

    A request can leave the router in three ways. It reaches a handler with
    its parameters extracted; it matches no route; or `axum` refuses it, when
    the method is not allowed or an extractor fails, and answers it itself. -/

namespace Space

open Rust Outcome Data Effects

/-! ## Section 1: HTTP -/

inductive Method where
  | get
  | head
  | post
  | put
  | other (name : String)
  deriving DecidableEq, Repr

/-- A route for `GET` also serves `HEAD`. -/
def Method.isGet : Method → Bool
  | .get => true
  | .head => true
  | _ => false

/-- The parts of a request that the router looks at. The path is as it is in
    the URL, without the query. -/
structure HttpRequest where
  method : Method
  path : String
  contentType : Option String
  range : Option HeaderValue
  body : List UInt8

/-- The parts of a response that the server decides on. -/
structure HttpResponse where
  status : Nat
  contentType : Option String
  contentRange : Option String
  body : List UInt8
  deriving DecidableEq

/-- Why `axum` answers a request itself. -/
inductive Rejection where
  | methodNotAllowed
  /-- A path parameter is not UTF-8. -/
  | badPath (param : String)
  /-- A path parameter is not a number. -/
  | badNumber (param : String)
  | notJson
  | tooLarge
  /-- The body is not JSON, or not of the type that is asked for. -/
  | badJson (body : List UInt8)

/-- The `axum` crate. -/
class Axum where
  /-- A path parameter with its percent escapes decoded. -/
  percentDecode : String → Option String
  /-- Whether a content type says JSON. -/
  isJson : Option String → Bool
  /-- The document at the front of a body, as the `Json` extractor reads it. -/
  readJson : List UInt8 → Option Json
  /-- The response to a request that is refused. -/
  reject : Rejection → HttpResponse

/-- `axum` delivers what it is sent. -/
structure Axum.Lawful [SerdeJson] [Axum] : Prop where
  percentDecode_plain : ∀ s : String, '%' ∉ s.toList → Axum.percentDecode s = some s
  isJson_json : Axum.isJson (some "application/json") = true
  readJson_toVec : ∀ j : Json, j.within recursionLimit = true →
    Axum.readJson (SerdeJson.toVec j) = some j

/-- `axum` refuses with a status of 4xx and a text that is not JSON. -/
structure Axum.PlainRejections [SerdeJson] [Axum] : Prop where
  status : ∀ r, 400 ≤ (Axum.reject r).status ∧ (Axum.reject r).status ≤ 499
  body : ∀ r, SerdeJson.fromSlice (Axum.reject r).body = none

/-! ## Section 2: Routes -/

/-- The routes, with their path parameters. -/
inductive Endpoint where
  | health
  | files
  | file (fileId : String)
  | children (dirId : String)
  | versions (fileId : String)
  | commit (versionId : String)
  | manifest (manifestId : String)
  | chunk (chunkId : String)
  | slow (ms : String)
  deriving DecidableEq, Repr

/-- The path, split at its slashes. -/
def segments (path : String) : List String := (path.toList.splitOn '/').map String.ofList

/-- A parameter at the end of a path is not empty: the matcher stops before
    it. One that is followed by a text may be. -/
def Endpoint.withLast (param : String) (e : Endpoint) : Option Endpoint :=
  if param = "" then none else some e

/-- The route of a path. -/
def endpoint (path : String) : Option Endpoint :=
  match segments path with
  | ["", "health"] => some .health
  | ["", "v1", "files"] => some .files
  | ["", "v1", "files", id] => Endpoint.withLast id (.file id)
  | ["", "v1", "dirs", id, "children"] => some (.children id)
  | ["", "v1", "files", id, "versions"] => some (.versions id)
  | ["", "v1", "versions", id, "commit"] => some (.commit id)
  | ["", "v1", "manifests", id] => Endpoint.withLast id (.manifest id)
  | ["", "v1", "chunks", id] => Endpoint.withLast id (.chunk id)
  | ["", "v1", "_slow", ms] => Endpoint.withLast ms (.slow ms)
  | _ => none

/-! ## Section 3: Extractors -/

/-- The limit of `axum` on the length of a body; the router sets no other. -/
def bodyLimit : Nat := 2097152

theorem bodyLimit_le : bodyLimit ≤ isizeMax := by decide

section extract

variable [Axum]

/-- `Path<String>` -/
def pathParam (raw : String) : Except Rejection String :=
  match Axum.percentDecode raw with
  | some param => .ok param
  | none => .error (.badPath raw)

/-- `Path<u64>` -/
def pathNumber (raw : String) : Except Rejection UInt64 := do
  let param ← pathParam raw
  match parseU64 param.toList with
  | some n => .ok n
  | none => .error (.badNumber param)

/-- `Bytes` -/
def bytesBody (r : HttpRequest) : Except Rejection Bytes :=
  if h : r.body.length ≤ bodyLimit then .ok ⟨r.body, h.trans bodyLimit_le⟩
  else .error .tooLarge

/-- `Json<T>` -/
def jsonBody {T : Type} (ofJson : Json → Option T) (r : HttpRequest) : Except Rejection T :=
  if Axum.isJson r.contentType = true then do
    let body ← bytesBody r
    match (Axum.readJson body.data).bind ofJson with
    | some req => .ok req
    | none => .error (.badJson body.data)
  else .error .notJson

theorem pathParam_eq_ok {raw param : String} :
    pathParam raw = .ok param ↔ Axum.percentDecode raw = some param := by
  unfold pathParam
  cases Axum.percentDecode raw <;> simp

theorem pathNumber_eq_ok {raw : String} {n : UInt64} : pathNumber raw = .ok n ↔
    ∃ text, Axum.percentDecode raw = some text ∧ parseU64 text.toList = some n := by
  unfold pathNumber pathParam
  cases Axum.percentDecode raw with
  | none => simp [Bind.bind, Except.bind]
  | some text =>
    cases hn : parseU64 text.toList with
    | none => simp [Bind.bind, Except.bind, hn]
    | some n => simp [Bind.bind, Except.bind, hn]

omit [Axum] in
theorem bytesBody_eq_ok {r : HttpRequest} {body : Bytes} :
    bytesBody r = .ok body ↔ body.data = r.body ∧ r.body.length ≤ bodyLimit := by
  unfold bytesBody
  split
  · rename_i hle
    constructor
    · intro h
      cases h
      exact ⟨rfl, hle⟩
    · intro h
      obtain ⟨hdata, _⟩ := h
      exact congrArg Except.ok (Bytes.ext hdata.symm)
  · rename_i hgt
    constructor
    · intro h
      cases h
    · intro h
      obtain ⟨_, hle⟩ := h
      exact absurd hle hgt

theorem jsonBody_eq_ok {T : Type} {ofJson : Json → Option T} {r : HttpRequest} {req : T} :
    jsonBody ofJson r = .ok req ↔ Axum.isJson r.contentType = true ∧
      r.body.length ≤ bodyLimit ∧ (Axum.readJson r.body).bind ofJson = some req := by
  unfold jsonBody
  split
  · rename_i hjson
    rw [and_iff_right hjson]
    cases hbytes : bytesBody r with
    | error rejection =>
      -- the only way to refuse the bytes is their number
      have hgt : ¬ r.body.length ≤ bodyLimit := by
        intro hle
        have hok : bytesBody r = .ok ⟨r.body, hle.trans bodyLimit_le⟩ :=
          bytesBody_eq_ok.mpr ⟨rfl, hle⟩
        rw [hok] at hbytes
        cases hbytes
      constructor
      · intro h
        cases h
      · intro ⟨hle, _⟩
        exact absurd hle hgt
    | ok body =>
      obtain ⟨hdata, hle⟩ := bytesBody_eq_ok.mp hbytes
      rw [and_iff_right hle, ← hdata]
      show (match (Axum.readJson body.data).bind ofJson with
        | some req => Except.ok req
        | none => Except.error (Rejection.badJson body.data)) = Except.ok req ↔ _
      cases (Axum.readJson body.data).bind ofJson <;> simp
  · rename_i hjson
    constructor
    · intro h
      cases h
    · intro ⟨h, _⟩
      exact absurd h hjson

variable [UuidCrate]

/-- What the router does with a request that `axum` does not refuse. -/
inductive Routed where
  /-- The stores are asked. -/
  | stores (req : Request)
  | health
  | slow (ms : UInt64)
  | notFound

/-- The extractors of a route, for the methods that it has. -/
def Endpoint.extract (r : HttpRequest) : Endpoint → Except Rejection Routed
  | .health => if r.method.isGet then .ok .health else .error .methodNotAllowed
  | .files =>
    if r.method = .post then do
      let req ← jsonBody CreateFileRequest.ofJson r
      return .stores (.createFile req)
    else .error .methodNotAllowed
  | .file id =>
    if r.method.isGet then do
      let fileId ← pathParam id
      return .stores (.statFile fileId)
    else .error .methodNotAllowed
  | .children id =>
    if r.method.isGet then do
      let dirId ← pathParam id
      return .stores (.listChildren dirId)
    else .error .methodNotAllowed
  | .versions id =>
    if r.method = .post then do
      let fileId ← pathParam id
      let req ← jsonBody CreateVersionRequest.ofJson r
      return .stores (.createVersion fileId req)
    else .error .methodNotAllowed
  | .commit id =>
    -- the handler does not extract a `CommitVersionRequest`
    if r.method = .post then do
      let versionId ← pathParam id
      return .stores (.commitVersion versionId)
    else .error .methodNotAllowed
  | .manifest id =>
    if r.method = .put then do
      let manifestId ← pathParam id
      let req ← jsonBody PutManifestRequest.ofJson r
      return .stores (.putManifest manifestId req)
    else if r.method.isGet then do
      let manifestId ← pathParam id
      return .stores (.getManifest manifestId)
    else .error .methodNotAllowed
  | .chunk id =>
    if r.method = .put then do
      let chunkId ← pathParam id
      let body ← bytesBody r
      return .stores (.putChunk chunkId body)
    else if r.method.isGet then do
      let chunkId ← pathParam id
      return .stores (.getChunk chunkId r.range)
    else .error .methodNotAllowed
  | .slow ms =>
    if r.method.isGet then do
      let ms ← pathNumber ms
      return .slow ms
    else .error .methodNotAllowed

/-- The fallback takes every path without a route. -/
def route (r : HttpRequest) : Except Rejection Routed :=
  match endpoint r.path with
  | some e => e.extract r
  | none => .ok .notFound

end extract

/-! ## Section 4: Responses -/

/-- The response as it is sent: to `HEAD`, without its body. -/
def Method.deliver (method : Method) (resp : HttpResponse) : HttpResponse :=
  if method = .head then { resp with body := [] } else resp

@[simp] theorem status_deliver (method : Method) (resp : HttpResponse) :
    (method.deliver resp).status = resp.status := by
  unfold Method.deliver
  split <;> rfl

/-- An error never looks like a success. -/
theorem not_isSuccess_statusFor (code : ErrorCode) : isSuccess (statusFor code) = false := by
  cases code <;> rfl

theorem not_isSuccess_reject [SerdeJson] [Axum] (h : Axum.PlainRejections)
    (rejection : Rejection) : isSuccess (Axum.reject rejection).status = false := by
  obtain ⟨hlow, _⟩ := h.status rejection
  unfold isSuccess
  have hhigh : ¬ (Axum.reject rejection).status ≤ 299 := by omega
  simp [hhigh]

/-- `Bytes::into_response`, with the status and the range that a handler puts
    on it. -/
def bytesResponse (status : Nat) (contentRange : Option String) (bytes : Bytes) : HttpResponse :=
  ⟨status, some "application/octet-stream", contentRange, bytes.data⟩

/-- A text that a handler returns. -/
def textResponse (text : String) : HttpResponse :=
  ⟨200, some "text/plain; charset=utf-8", none, text.toUTF8.data.toList⟩

section answers

variable [SerdeJson]

/-- `Json::into_response`. -/
def jsonResponse (status : Nat) (j : Json) : HttpResponse :=
  ⟨status, some "application/json", none, SerdeJson.toVec j⟩

def healthResponse : HttpResponse := jsonResponse 200 HealthResponse.ok.toJson

variable [UuidCrate] [Chrono]

/-- `ApiError::into_response`. -/
def errorResponse (e : SpaceError) : HttpResponse :=
  jsonResponse (statusFor e.code) (ErrorResponse.from e).toJson

def Response.toHttp : Response → HttpResponse
  | .file r => jsonResponse 200 r.toJson
  | .children r => jsonResponse 200 r.toJson
  | .version r => jsonResponse 200 r.toJson
  | .manifest r => jsonResponse 200 r.toJson
  | .chunk r => jsonResponse 200 r.toJson
  | .body bytes => bytesResponse 200 none bytes
  | .partialContent bytes range => bytesResponse 206 (some range) bytes

/-- The response to what a handler returned; a panic closes the connection. -/
def respond : Res Response → Option HttpResponse
  | .ok resp => some resp.toHttp
  | .err e => some (errorResponse e)
  | .panic => none

def noSuchRoute : SpaceError := SpaceError.new .fileNotFound "no such route"

variable [Axum] [Blake3]

/-- What the router makes of a request in the state `s`, before it is sent. -/
def Router.dispatch (env : Env) (r : HttpRequest) (s : AppState) :
    Option HttpResponse × AppState :=
  match route r with
  | .error rejection => (some (Axum.reject rejection), s)
  | .ok .health => (some healthResponse, s)
  | .ok (.slow _) => (some (textResponse "done"), s)
  | .ok .notFound => (some (errorResponse noSuchRoute), s)
  | .ok (.stores req) =>
    (respond (Api.serve env req s).1, (Api.serve env req s).2)

/-- The response that a client receives, if any, and the state after it. -/
def Router.answer (env : Env) (r : HttpRequest) (s : AppState) :
    Option HttpResponse × AppState :=
  ((Router.dispatch env r s).1.map r.method.deliver, (Router.dispatch env r s).2)

/-- The router as a program that calls the stores. -/
def Router.handle (r : HttpRequest) : Prog StoreI (Option HttpResponse) :=
  match route r with
  | .error rejection => .ret (some (r.method.deliver (Axum.reject rejection)))
  | .ok .health => .ret (some (r.method.deliver healthResponse))
  | .ok (.slow _) => .ret (some (r.method.deliver (textResponse "done")))
  | .ok .notFound => .ret (some (r.method.deliver (errorResponse noSuchRoute)))
  | .ok (.stores req) => (Api.handle req).map fun x => (respond x).map r.method.deliver

/-- Undisturbed, the program gives the answer of the router. -/
theorem run_routerHandle (env : Env) (r : HttpRequest) (s : AppState) :
    (Router.handle r).run (StoreOp.exec env) s = Router.answer env r s := by
  unfold Router.handle Router.answer Router.dispatch
  cases route r with
  | error rejection => rfl
  | ok routed =>
    cases routed with
    | stores req => exact Prog.run_map (I := StoreI) (StoreOp.exec env) _ _ s
    | _ => rfl

/-! ## Section 5: Who answers -/

omit [Axum] [Blake3] in
theorem isSuccess_toHttp (resp : Response) : isSuccess resp.toHttp.status = true := by
  cases resp <;> rfl

variable {env : Env} {r : HttpRequest} {s : AppState}

theorem answer_of_stores (env : Env) (s : AppState) {req : Request}
    (h : route r = .ok (.stores req)) :
    Router.answer env r s = ((respond (Api.serve env req s).1).map r.method.deliver,
      (Api.serve env req s).2) := by
  unfold Router.answer Router.dispatch
  rw [h]

theorem answer_of_error (env : Env) (s : AppState) {rejection : Rejection}
    (h : route r = .error rejection) :
    Router.answer env r s = (some (r.method.deliver (Axum.reject rejection)), s) := by
  unfold Router.answer Router.dispatch
  rw [h]
  rfl

/-- The response is an error, and nothing has changed. -/
def Router.Refuses (env : Env) (r : HttpRequest) (s : AppState) : Prop :=
  (∃ resp, (Router.answer env r s).1 = some resp ∧ isSuccess resp.status = false) ∧
    (Router.answer env r s).2 = s

theorem refuses_of_error (hplain : Axum.PlainRejections) {rejection : Rejection}
    (h : route r = .error rejection) : Router.Refuses env r s := by
  unfold Router.Refuses
  rw [answer_of_error env s h]
  exact ⟨⟨_, rfl, by rw [status_deliver, not_isSuccess_reject hplain]⟩, rfl⟩

theorem refuses_of_err {req : Request} {e : SpaceError} (h : route r = .ok (.stores req))
    (hserve : Api.serve env req s = (err e, s)) : Router.Refuses env r s := by
  unfold Router.Refuses
  rw [answer_of_stores env s h, hserve]
  refine ⟨⟨_, rfl, ?_⟩, rfl⟩
  rw [status_deliver]
  exact not_isSuccess_statusFor e.code

theorem not_refuses_of_ok {req : Request} {resp : Response} (h : route r = .ok (.stores req))
    (hserve : (Api.serve env req s).1 = ok resp) : ¬ Router.Refuses env r s := by
  intro ⟨⟨http, hhttp, hstatus⟩, _⟩
  rw [answer_of_stores env s h, hserve] at hhttp
  cases hhttp
  rw [status_deliver, isSuccess_toHttp] at hstatus
  cases hstatus

/-- A request that makes one call is refused exactly when the call is. -/
theorem refuses_metaCall_iff {req : Request} {call : Api.MetaCall}
    (h : route r = .ok (.stores req)) (hcall : Api.metaCall req = some (ok call)) :
    Router.Refuses env r s ↔ ∃ e, (call.op.exec env s.metaStore).1 = err e := by
  have hserve := serve_metaCall env s hcall
  rw [tryAt_ok] at hserve
  cases hexec : (call.op.exec env s.metaStore).1 with
  | ok a =>
    rw [hexec] at hserve
    constructor
    · intro hr
      have hok : (Api.serve env req s).1 = ok (call.respond a) := congrArg Prod.fst hserve
      exact absurd hr (not_refuses_of_ok h hok)
    · intro ⟨e, he⟩
      cases he
  | err e =>
    have hsame : (call.op.exec env s.metaStore).2 = s.metaStore := by
      apply exec_unchanged
      rw [hexec]
      rfl
    rw [hexec, hsame] at hserve
    exact ⟨fun _ => ⟨e, rfl⟩, fun _ => refuses_of_err h hserve⟩
  | panic =>
    rw [hexec] at hserve
    constructor
    · intro ⟨⟨resp, hresp, _⟩, _⟩
      rw [answer_of_stores env s h, hserve] at hresp
      cases hresp
    · intro ⟨e, he⟩
      cases he

end answers

/-! ### Sample crates

    Instances that do what the development relies on. The texts of the
    rejections are those of `axum`; a time is written as its nanoseconds. -/

namespace Sample

/-- `serde_json`, for compact texts. -/
@[reducible] def serdeJson : SerdeJson where
  toVec := Json.toBytes
  fromSlice := Json.ofBytes
  error := fun _ => "expected value at line 1 column 1"

theorem serdeJson_lawful :
    letI := serdeJson
    SerdeJson.Lawful :=
  letI := serdeJson
  ⟨fun _ hj => Json.ofBytes_toBytes hj, Json.ofBytes_utf8 []⟩

def displayTime (t : DateTime) : String :=
  match t.nanos with
  | .ofNat n => String.ofList (Nat.toDigits 10 n)
  | .negSucc n => String.ofList ('-' :: Nat.toDigits 10 n)

def parseTime (s : String) : Option DateTime :=
  match s.toList with
  | '-' :: digits => some ⟨.negSucc (Nat.ofDigitChars 10 digits 0)⟩
  | digits => some ⟨.ofNat (Nat.ofDigitChars 10 digits 0)⟩

theorem parseTime_displayTime (t : DateTime) : parseTime (displayTime t) = some t := by
  obtain ⟨nanos⟩ := t
  cases nanos with
  | negSucc n => simp [displayTime, parseTime]
  | ofNat n =>
    have hdigits : ∀ c ∈ Nat.toDigits 10 n, c.isDigit := fun c hc =>
      Nat.isDigit_of_mem_toDigits (by decide) (by decide) hc
    have hvalue := Nat.ofDigitChars_ten_toDigits (n := n)
    simp only [displayTime, parseTime, String.toList_ofList]
    cases hd : Nat.toDigits 10 n with
    | nil => exact absurd hd Nat.toDigits_ne_nil
    | cons d ds =>
      have hminus : d ≠ '-' := by
        rintro rfl
        have := hdigits '-' (by simp [hd])
        cases this
      rw [hd] at hvalue
      simp [hminus, hvalue]

@[reducible] def chrono : Chrono where
  display := displayTime
  parse := parseTime

theorem chrono_lawful :
    letI := chrono
    Chrono.Lawful :=
  letI := chrono
  ⟨parseTime_displayTime⟩

/-- The response to a failed extractor. -/
def rejected (status : Nat) (text : String) : HttpResponse :=
  ⟨status, some "text/plain; charset=utf-8", none, Json.utf8 text.toList⟩

/-- `axum`, for paths without percent escapes. -/
@[reducible] def axum : Axum where
  percentDecode := some
  isJson := fun contentType => contentType == some "application/json"
  readJson := Json.ofBytes
  reject
    | .methodNotAllowed => ⟨405, none, none, []⟩
    | .badPath _ => rejected 400 "Invalid URL: Invalid UTF-8"
    | .badNumber _ => rejected 400 "Invalid URL: Cannot parse value"
    | .notJson => rejected 415 "Expected request with Content-Type: application/json"
    | .tooLarge => rejected 413 "Failed to buffer the request body: length limit exceeded"
    | .badJson _ => rejected 422 "Failed to deserialize the JSON body into the target type"

theorem axum_lawful :
    letI := serdeJson
    letI := axum
    Axum.Lawful :=
  letI := serdeJson
  letI := axum
  ⟨fun _ _ => rfl, rfl, fun _ hj => Json.ofBytes_toBytes hj⟩

theorem axum_plainRejections :
    letI := serdeJson
    letI := axum
    Axum.PlainRejections := by
  let := serdeJson
  let := axum
  constructor
  · intro r
    cases r <;> exact ⟨Nat.le_of_ble_eq_true rfl, Nat.le_of_ble_eq_true rfl⟩
  · intro r
    cases r with
    | methodNotAllowed => exact Json.ofBytes_utf8 []
    | badPath _ => exact (Json.ofBytes_utf8 _).trans (by decide +kernel)
    | badNumber _ => exact (Json.ofBytes_utf8 _).trans (by decide +kernel)
    | notJson => exact (Json.ofBytes_utf8 _).trans (by decide +kernel)
    | tooLarge => exact (Json.ofBytes_utf8 _).trans (by decide +kernel)
    | badJson _ => exact (Json.ofBytes_utf8 _).trans (by decide +kernel)

end Sample

end Space
