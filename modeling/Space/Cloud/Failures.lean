import Space.Client.Send
import Space.Cloud.Errors
import Space.Cloud.Range

/-! # What a failure looks like

    Which of the responses that are not a success carry an `ErrorResponse`.

    An error that a handler returns always does. A request that `axum`
    refuses never does, and neither does an error that is sent to `HEAD`,
    since it is sent without its body. -/

namespace Space

open Rust Outcome Data Effects

section failures

variable [UuidCrate] [Axum]

/-! ## Section 1: The requests that `axum` takes -/

/-- `Path<String>` takes the parameter. -/
def TakesParam (raw : String) : Prop := ∃ text, Axum.percentDecode raw = some text

/-- `Json<T>` takes the body. -/
def TakesJson {T : Type} (ofJson : Json → Option T) (r : HttpRequest) : Prop :=
  Axum.isJson r.contentType = true ∧ r.body.length ≤ bodyLimit ∧
    ∃ req, (Axum.readJson r.body).bind ofJson = some req

/-- The route has the method of the request, and its extractors take what
    they extract. -/
def Endpoint.Takes (r : HttpRequest) : Endpoint → Prop
  | .health => r.method.isGet = true
  | .files => r.method = .post ∧ TakesJson CreateFileRequest.ofJson r
  | .file id => r.method.isGet = true ∧ TakesParam id
  | .children id => r.method.isGet = true ∧ TakesParam id
  | .versions id => r.method = .post ∧ TakesParam id ∧ TakesJson CreateVersionRequest.ofJson r
  | .commit id => r.method = .post ∧ TakesParam id
  | .manifest id => TakesParam id ∧
      ((r.method = .put ∧ TakesJson PutManifestRequest.ofJson r) ∨ r.method.isGet = true)
  | .chunk id => TakesParam id ∧
      ((r.method = .put ∧ r.body.length ≤ bodyLimit) ∨ r.method.isGet = true)
  | .slow ms => r.method.isGet = true ∧
      ∃ text n, Axum.percentDecode ms = some text ∧ parseU64 text.toList = some n

section except

variable {ε α β : Type}

omit [UuidCrate] [Axum] in
theorem exists_ok_pure (a : α) : ∃ b, (pure a : Except ε α) = .ok b := ⟨a, rfl⟩

omit [UuidCrate] [Axum] in
theorem exists_ok_bind {x : Except ε α} {f : α → Except ε β} :
    (∃ b, (x >>= f) = .ok b) ↔ ∃ a, x = .ok a ∧ ∃ b, f a = .ok b := by
  cases x with
  | error e =>
    constructor
    · intro ⟨b, hb⟩
      cases hb
    · intro ⟨a, ha, _⟩
      cases ha
  | ok a =>
    constructor
    · exact fun h => ⟨a, rfl, h⟩
    · intro ⟨a', ha, h⟩
      cases ha
      exact h

omit [UuidCrate] [Axum] in
theorem exists_ok_ite {c : Prop} [Decidable c] {x : Except ε α} {e : ε} :
    (∃ b, (if c then x else .error e) = .ok b) ↔ c ∧ ∃ b, x = .ok b := by
  by_cases hc : c
  · simp [hc]
  · simp [hc]

end except

/-- **The extractors succeed exactly on the requests that are taken.** -/
theorem Endpoint.extract_eq_ok_iff (e : Endpoint) (r : HttpRequest) :
    (∃ x, e.extract r = .ok x) ↔ e.Takes r := by
  cases e with
  | health =>
    simp only [Endpoint.extract, Endpoint.Takes, exists_ok_ite, Except.ok.injEq, exists_eq',
      and_true]
  | files =>
    simp only [Endpoint.extract, Endpoint.Takes, TakesJson, exists_ok_ite, exists_ok_bind,
      exists_ok_pure, and_true, jsonBody_eq_ok, exists_and_left]
  | file id =>
    simp only [Endpoint.extract, Endpoint.Takes, TakesParam, exists_ok_ite, exists_ok_bind,
      exists_ok_pure, and_true, pathParam_eq_ok]
  | children id =>
    simp only [Endpoint.extract, Endpoint.Takes, TakesParam, exists_ok_ite, exists_ok_bind,
      exists_ok_pure, and_true, pathParam_eq_ok]
  | versions id =>
    simp only [Endpoint.extract, Endpoint.Takes, TakesParam, TakesJson, exists_ok_ite,
      exists_ok_bind, exists_ok_pure, and_true, pathParam_eq_ok, jsonBody_eq_ok, exists_and_left,
      exists_and_right]
  | commit id =>
    simp only [Endpoint.extract, Endpoint.Takes, TakesParam, exists_ok_ite, exists_ok_bind,
      exists_ok_pure, and_true, pathParam_eq_ok]
  -- `PUT` and `GET` share the path: the handler is chosen by the method
  | manifest id =>
    by_cases hput : r.method = .put
    · simp only [Endpoint.extract, Endpoint.Takes, TakesParam, TakesJson, hput, if_true,
        exists_ok_bind, exists_ok_pure, and_true, pathParam_eq_ok, jsonBody_eq_ok,
        exists_and_left, exists_and_right, true_and, Method.isGet, Bool.false_eq_true, or_false]
    · simp only [Endpoint.extract, Endpoint.Takes, TakesParam, hput, if_false, exists_ok_ite,
        exists_ok_bind, exists_ok_pure, and_true, pathParam_eq_ok, false_and, false_or]
      exact and_comm
  | chunk id =>
    by_cases hput : r.method = .put
    · -- the extractor of raw bytes refuses by length alone
      have hbytes : (∃ body, bytesBody r = .ok body) ↔ r.body.length ≤ bodyLimit := by
        simp only [bytesBody_eq_ok]
        constructor
        · intro h
          obtain ⟨_, _, hle⟩ := h
          exact hle
        · intro hle
          exact ⟨⟨r.body, hle.trans bodyLimit_le⟩, rfl, hle⟩
      simp only [Endpoint.extract, Endpoint.Takes, TakesParam, hput, if_true, exists_ok_bind,
        exists_ok_pure, and_true, pathParam_eq_ok, hbytes, exists_and_right, true_and,
        Method.isGet, Bool.false_eq_true, or_false]
    · simp only [Endpoint.extract, Endpoint.Takes, TakesParam, hput, if_false, exists_ok_ite,
        exists_ok_bind, exists_ok_pure, and_true, pathParam_eq_ok, false_and, false_or]
      exact and_comm
  | slow ms =>
    simp only [Endpoint.extract, Endpoint.Takes, exists_ok_ite, exists_ok_bind, exists_ok_pure,
      and_true, pathNumber_eq_ok]
    exact and_congr_right fun _ => exists_comm

/-! ## Section 2: What is there to read -/

variable [Blake3]

/-- `n` bytes from `start` on can be read: they lie inside the object, and the
    whole object is read only when it verifies. -/
def ChunkId.Reads (id : ChunkId) (obj : Bytes) (start n : Nat) : Prop :=
  start + n ≤ obj.data.length ∧ (start = 0 → n = obj.data.length → id.verify obj = true)

/-- The object can be read as the `Range` header asks for it. A range whose
    length overflows is never answered. -/
def ChunkId.Serves (id : ChunkId) (obj : Bytes) : Option HeaderValue → Prop
  | none => id.verify obj = true
  | some range => ∃ start endInclusive,
      parseRange (range.toStr.getD "") obj.len = some (start, endInclusive) ∧
        (endInclusive.toNat - start.toNat + 1 < 2 ^ 64 →
          id.Reads obj start.toNat ((endInclusive.toNat - start.toNat + 1) % 2 ^ 32))

/-- What a request asks to read is there. -/
def Request.Found (s : AppState) : Request → Prop
  | .statFile text => ∃ id file, FileId.parse text = ok id ∧
      s.metaStore.files.lookup id = some file
  | .listChildren text => ∃ id, DirectoryId.parse text = ok id
  | .getManifest text => ∃ id m, ManifestId.parse text = ok id ∧
      s.metaStore.manifests.lookup id = some m
  | .getChunk text range => ∃ id obj, ChunkId.parse text = ok id ∧
      s.blobs.inner.lookup id = some obj ∧ id.Serves obj range
  | _ => False

omit [UuidCrate] [Axum] in
theorem getRange_err_iff {s : FakeObjectStore} {id : ChunkId} {obj : Bytes} {offset : UInt64}
    {length : UInt32} (hobj : s.inner.lookup id = some obj) :
    (∃ e, s.getRange id offset length = err e) ↔ ¬ id.Reads obj offset.toNat length.toNat := by
  have hok : (∃ bytes, s.getRange id offset length = ok bytes) ↔
      id.Reads obj offset.toNat length.toNat := by
    simp only [FakeObjectStore.getRange_eq_ok, hobj, Option.some.injEq]
    unfold ChunkId.Reads
    rw [← eq_zero_iff_toNat]
    constructor
    · rintro ⟨_, _, rfl, hle, hv, _⟩
      exact ⟨hle, hv⟩
    · intro ⟨hle, hv⟩
      exact ⟨_, obj, rfl, hle, hv, rfl⟩
  -- a call on the store never panics, so it fails when it does not succeed
  have hchecks : (s.getRange id offset length).Checks SpaceError.Bare :=
    FakeObjectStore.getRange_checks offset length
  rw [← hok]
  cases hr : s.getRange id offset length with
  | ok bytes => simp
  | err e => simp
  | panic => exact absurd hr hchecks.ne_panic

variable {env : Env} {s : AppState} {text : String}

omit [Axum] in
theorem statFile_err_iff : (∃ e, (Api.serve env (.statFile text) s).1 = err e) ↔
    ¬ Request.Found s (.statFile text) := by
  have hcall : Api.metaCall (.statFile text) = some (do
      let id ← FileId.parse text
      return ⟨.getFile id, fun file => .file ⟨contractVersion, file⟩⟩) := rfl
  rw [serve_metaCall env s hcall, tryAt_fst, Request.Found]
  cases hid : FileId.parse text with
  | panic => exact absurd hid (checks_parseTagged "f_" FileId.mk text).ne_panic
  | err e => simp
  | ok id =>
    cases hl : s.metaStore.files.lookup id with
    | none => simp [MetaOp.exec, Inner.getFile, hl]
    | some file => simp [MetaOp.exec, Inner.getFile, hl]

omit [Axum] in
theorem listChildren_err_iff : (∃ e, (Api.serve env (.listChildren text) s).1 = err e) ↔
    ¬ Request.Found s (.listChildren text) := by
  have hcall : Api.metaCall (.listChildren text) = some (do
      let id ← DirectoryId.parse text
      return ⟨.listChildren id, fun files => .children ⟨contractVersion, files⟩⟩) := rfl
  rw [serve_metaCall env s hcall, tryAt_fst, Request.Found]
  cases hid : DirectoryId.parse text with
  | panic => exact absurd hid (checks_parseTagged "d_" DirectoryId.mk text).ne_panic
  | err e => simp
  | ok id => simp [MetaOp.exec]

omit [Axum] in
theorem getManifest_err_iff : (∃ e, (Api.serve env (.getManifest text) s).1 = err e) ↔
    ¬ Request.Found s (.getManifest text) := by
  have hcall : Api.metaCall (.getManifest text) = some (do
      let id ← ManifestId.parse text
      return ⟨.getManifest id, fun m => .manifest ⟨contractVersion, m⟩⟩) := rfl
  rw [serve_metaCall env s hcall, tryAt_fst, Request.Found]
  cases hid : ManifestId.parse text with
  | panic => exact absurd hid (checks_parseTagged "m_" ManifestId.mk text).ne_panic
  | err e => simp
  | ok id =>
    cases hl : s.metaStore.manifests.lookup id with
    | none => simp [MetaOp.exec, Inner.getManifest, hl]
    | some m => simp [MetaOp.exec, Inner.getManifest, hl]

omit [UuidCrate] [Axum] in
theorem ChunkId.serves_range_iff {id : ChunkId} {obj : Bytes} {range : HeaderValue}
    {start endInclusive : UInt64}
    (hp : parseRange (range.toStr.getD "") obj.len = some (start, endInclusive)) :
    id.Serves obj (some range) ↔ (endInclusive.toNat - start.toNat + 1 < 2 ^ 64 →
      id.Reads obj start.toNat ((endInclusive.toNat - start.toNat + 1) % 2 ^ 32)) := by
  constructor
  · intro ⟨start', endInclusive', hp', h⟩
    rw [hp] at hp'
    cases hp'
    exact h
  · intro h
    exact ⟨start, endInclusive, hp, h⟩

omit [UuidCrate] [Axum] in
/-- What the handler makes of a range of a stored object. -/
theorem range_err_iff {id : ChunkId} {obj : Bytes} (range : HeaderValue)
    (hobj : s.blobs.inner.lookup id = some obj) :
    (∃ e, (do
      let (start, endInclusive) ← okOr (parseRange (range.toStr.getD "") obj.len)
        (SpaceError.invalidParam "malformed Range header")
      let length ← rangeLength start endInclusive
      let bytes ← s.blobs.getRange id start length
      return Response.partialContent bytes (contentRange start endInclusive obj.len)) = err e) ↔
      ¬ id.Serves obj (some range) := by
  cases hp : parseRange (range.toStr.getD "") obj.len with
  | none => simp [ChunkId.Serves, hp]
  | some p =>
    obtain ⟨start, endInclusive⟩ := p
    have hle := parseRange_le hp
    rw [ChunkId.serves_range_iff hp, okOr_some, ok_bind]
    by_cases hlt : endInclusive.toNat - start.toNat + 1 < 2 ^ 64
    · obtain ⟨n, hn, hval⟩ := rangeLength_of_lt hle hlt
      have hread : (∃ e, s.blobs.getRange id start n = err e) ↔
          ¬ id.Reads obj start.toNat n.toNat := getRange_err_iff hobj
      rw [hval] at hread
      rw [imp_iff_right hlt, ← hread]
      dsimp only
      rw [hn, ok_bind]
      cases s.blobs.getRange id start n <;> simp
    · -- the length overflows: the handler panics and no error is returned
      have hge : 2 ^ 64 ≤ endInclusive.toNat - start.toNat + 1 := Nat.not_lt.mp hlt
      dsimp only
      rw [rangeLength_of_ge hge, panic_bind]
      constructor
      · intro ⟨e, he⟩
        cases he
      · intro h
        exact absurd (fun hlt' => absurd hlt' hlt) h

omit [Axum] in
theorem getChunk_err_iff {range : Option HeaderValue} :
    (∃ e, (Api.serve env (.getChunk text range) s).1 = err e) ↔
      ¬ Request.Found s (.getChunk text range) := by
  have hchecks := ChunkId.checks_parse text
  rw [Request.Found]
  cases hid : ChunkId.parse text with
  | panic => exact absurd hid hchecks.ne_panic
  | err e =>
    have herr : (Api.serve env (.getChunk text range) s).1 = err e := by
      cases range with
      | none => rw [serve_getChunk_whole, hid, err_bind]
      | some range => rw [serve_getChunk_ranged, hid, err_bind]
    simp [herr]
  | ok id =>
    cases hobj : s.blobs.inner.lookup id with
    | none =>
      -- `head` comes before the range is looked at
      have hhead : s.blobs.head id = err FakeObjectStore.noSuchChunk := by
        rw [FakeObjectStore.head, hobj]
        rfl
      have herr : (Api.serve env (.getChunk text range) s).1 = err FakeObjectStore.noSuchChunk := by
        cases range with
        | none => rw [serve_getChunk_whole, hid, ok_bind, hhead, err_bind]
        | some range => rw [serve_getChunk_ranged, hid, ok_bind, hhead, err_bind]
      simp [herr, hobj]
    | some obj =>
      have hhead : s.blobs.head id = ok obj.len := FakeObjectStore.head_eq_ok.mpr ⟨obj, hobj, rfl⟩
      have hfound : (∃ id' obj', (ok id : Res ChunkId) = ok id' ∧
          s.blobs.inner.lookup id' = some obj' ∧ id'.Serves obj' range) ↔ id.Serves obj range := by
        simp [hobj]
      rw [hfound]
      cases range with
      | some range =>
        rw [serve_getChunk_ranged, hid, ok_bind, hhead, ok_bind, range_err_iff range hobj]
      | none =>
        rw [serve_getChunk_whole, hid, ok_bind, hhead, ok_bind, FakeObjectStore.get, hobj]
        cases hv : id.verify obj <;> simp [ChunkId.Serves, hv]

/-! ## Section 3: What every failure should look like -/

/-- What the route makes of a body, where it has a request type: whether the
    body is of that type. -/
def HttpRequest.reads (r : HttpRequest) : Option (Json → Bool) :=
  match r.method, endpoint r.path with
  | .post, some .files => some fun j => (CreateFileRequest.ofJson j).isSome
  | .post, some (.versions _) => some fun j => (CreateVersionRequest.ofJson j).isSome
  | .post, some (.commit _) => some fun j => (CommitVersionRequest.ofJson j).isSome
  | .put, some (.manifest _) => some fun j => (PutManifestRequest.ofJson j).isSome
  | _, _ => none

/-- The route has a request type, and the body is not of that type. -/
def HttpRequest.Undecodable (r : HttpRequest) : Prop :=
  ∃ reads, r.reads = some reads ∧ (Axum.readJson r.body).any reads = false

variable [Chrono] [SerdeJson]

/-- A response that is not a success carries an `ErrorResponse`, and the
    client returns the error in it, whatever it asked for. -/
def Router.Shaped [Reqwest] (env : Env) (r : HttpRequest) (s : AppState) : Prop :=
  ∀ resp, (Router.answer env r s).1 = some resp → isSuccess resp.status = false →
    ∃ er, ErrorResponse.ofBody resp.body = some er ∧
      ∀ (T : Type) (ofJson : Json → Option T), CloudClient.send ofJson (some resp) = err er.error

/-- The response is `INVALID_PARAMETER`. -/
def Router.BlamesParameter (env : Env) (r : HttpRequest) (s : AppState) : Prop :=
  ∃ resp er, (Router.answer env r s).1 = some resp ∧ isSuccess resp.status = false ∧
    ErrorResponse.ofBody resp.body = some er ∧ er.error.code = .invalidParameter

/-- The request is answered as the contract has it. -/
structure Router.WellAnswered [Reqwest] (env : Env) (r : HttpRequest) (s : AppState) : Prop where
  shaped : Router.Shaped env r s
  undecodable : r.Undecodable → Router.BlamesParameter env r s

/-! ## Section 4: Which failures look like it -/

/-- What the route reads is there. -/
def Endpoint.Found (r : HttpRequest) (s : AppState) : Endpoint → Prop
  | .health => True
  | .file id => ∃ text, Axum.percentDecode id = some text ∧ Request.Found s (.statFile text)
  | .children id => ∃ text, Axum.percentDecode id = some text ∧
      Request.Found s (.listChildren text)
  | .manifest id => ∃ text, Axum.percentDecode id = some text ∧
      Request.Found s (.getManifest text)
  | .chunk id => ∃ text, Axum.percentDecode id = some text ∧
      Request.Found s (.getChunk text r.range)
  | .slow _ => True
  | _ => False

/-- The requests whose failures are answered as the contract has it. -/
structure HttpRequest.Answerable (r : HttpRequest) (s : AppState) : Prop where
  /-- `axum` takes the request. -/
  taken : ∀ e, endpoint r.path = some e → e.Takes r
  /-- A `HEAD` finds what it asks for. -/
  found : r.method = .head → ∃ e, endpoint r.path = some e ∧ e.Found r s
  /-- A commit with a body of another type has no version id in its path. -/
  commit : ∀ raw, endpoint r.path = some (.commit raw) → r.Undecodable →
    ∀ text v, Axum.percentDecode raw = some text → VersionId.parse text ≠ ok v

/-- What a request fails with once `axum` has taken it. -/
def Routed.Fails (env : Env) (s : AppState) : Routed → Prop
  | .stores req => ∃ e, (Api.serve env req s).1 = err e
  | .notFound => True
  | _ => False

section answers

variable {r : HttpRequest}

omit [Axum] [Blake3] [Chrono] in
/-- A body that is not JSON is no error. -/
theorem ofBody_of_not_json {body : List UInt8} (h : SerdeJson.fromSlice body = none) :
    ErrorResponse.ofBody body = none := by
  rw [ErrorResponse.ofBody, h]
  rfl

omit [UuidCrate] [Axum] [Blake3] [Chrono] in
theorem fromSlice_deliver_head (hserde : SerdeJson.Lawful) (resp : HttpResponse) :
    SerdeJson.fromSlice (Method.deliver .head resp).body = none := hserde.fromSlice_nil

/-- A request that `axum` refuses is answered with something else. -/
theorem not_shaped_of_error [Reqwest] (hplain : Axum.PlainRejections) (hserde : SerdeJson.Lawful)
    {rejection : Rejection} (h : route r = .error rejection) : ¬ Router.Shaped env r s := by
  intro hshaped
  have hanswer := answer_of_error env s h
  have hstatus : isSuccess (r.method.deliver (Axum.reject rejection)).status = false := by
    rw [status_deliver, not_isSuccess_reject hplain]
  obtain ⟨er, her, _⟩ := hshaped _ (congrArg Prod.fst hanswer) hstatus
  -- the body is a text, or nothing at all after a `HEAD`
  have hbody : SerdeJson.fromSlice (r.method.deliver (Axum.reject rejection)).body = none := by
    by_cases hhead : r.method = .head
    · rw [hhead]
      exact fromSlice_deliver_head hserde _
    · rw [Method.deliver, if_neg hhead]
      exact hplain.body rejection
  rw [ofBody_of_not_json hbody] at her
  cases her

/-- What the router answers once `axum` has taken the request. -/
theorem answer_of_ok (env : Env) (s : AppState) {x : Routed} (h : route r = .ok x) :
    (∃ resp, isSuccess resp.status = true ∧
        (Router.answer env r s).1 = some (r.method.deliver resp) ∧ ¬ x.Fails env s) ∨
      ((Router.answer env r s).1 = none ∧ ¬ x.Fails env s) ∨
      ∃ e, e.Bare ∧ (Router.answer env r s).1 = some (r.method.deliver (errorResponse e)) ∧
        x.Fails env s := by
  have hanswer : (Router.answer env r s).1 = (Router.dispatch env r s).1.map r.method.deliver := rfl
  rw [hanswer, Router.dispatch, h]
  cases x with
  | health => exact .inl ⟨_, rfl, rfl, id⟩
  | slow ms => exact .inl ⟨_, rfl, rfl, id⟩
  | notFound => exact .inr (.inr ⟨noSuchRoute, SpaceError.bare_new _ _, rfl, trivial⟩)
  | stores req =>
    have hraises := Api.serve_raises env req s
    unfold Routed.Fails
    dsimp only
    cases hserve : (Api.serve env req s).1 with
    | ok resp =>
      refine .inl ⟨resp.toHttp, isSuccess_toHttp resp, rfl, ?_⟩
      intro ⟨e, he⟩
      cases he
    | err e => exact .inr (.inr ⟨e, hraises e hserve, rfl, e, rfl⟩)
    -- the handler does not return, so there is no response to have a shape
    | panic =>
      refine .inr (.inl ⟨rfl, ?_⟩)
      intro ⟨e, he⟩
      cases he

/-- **A request that `axum` has taken is answered in shape**, unless it is a
    `HEAD` that fails. -/
theorem shaped_iff [Reqwest] (huuid : UuidCrate.Lawful) (hserde : SerdeJson.Lawful) {x : Routed}
    (h : route r = .ok x) :
    Router.Shaped env r s ↔ (r.method = .head → ¬ x.Fails env s) := by
  unfold Router.Shaped
  rcases answer_of_ok env s h with
    ⟨resp, hsuccess, hanswer, hno⟩ | ⟨hanswer, hno⟩ | ⟨e, hbare, hanswer, hfails⟩
  · rw [hanswer]
    constructor
    · exact fun _ _ => hno
    · intro _ resp' heq hstatus
      cases heq
      rw [status_deliver, hsuccess] at hstatus
      cases hstatus
  · rw [hanswer]
    constructor
    · exact fun _ _ => hno
    · intro _ resp' heq
      cases heq
  · rw [hanswer]
    have hstatus : isSuccess (r.method.deliver (errorResponse e)).status = false := by
      rw [status_deliver]
      exact not_isSuccess_statusFor e.code
    by_cases hhead : r.method = .head
    · -- the body is not sent
      constructor
      · intro hshaped
        obtain ⟨er, her, _⟩ := hshaped _ rfl hstatus
        rw [hhead, ofBody_of_not_json (fromSlice_deliver_head hserde _)] at her
        cases her
      · exact fun hno => absurd hfails (hno hhead)
    · have hbody := ofBody_errorResponse huuid hserde hbare
      have hdeliver : r.method.deliver (errorResponse e) = errorResponse e := if_neg hhead
      rw [hdeliver] at hstatus ⊢
      constructor
      · exact fun _ hhead' => absurd hhead' hhead
      · intro _ resp heq _
        cases heq
        exact ⟨_, hbody, fun T ofJson => CloudClient.send_err hstatus hbody⟩

omit [Chrono] [SerdeJson] in
/-- A `HEAD` fails exactly when what it asks for is not there. -/
theorem fails_head_iff {e : Endpoint} {x : Routed} (hhead : r.method = .head)
    (h : e.extract r = .ok x) : x.Fails env s ↔ ¬ e.Found r s := by
  have hget : r.method.isGet = true := by
    rw [hhead]
    rfl
  have hpost : r.method ≠ .post := by simp [hhead]
  have hput : r.method ≠ .put := by simp [hhead]
  -- a route that reads: its parameter is decoded, and then the stores are asked
  have hread : ∀ {raw : String} {f : String → Request},
      (do let text ← pathParam raw; pure (Routed.stores (f text))) = Except.ok x →
      (∀ text, (∃ e, (Api.serve env (f text) s).1 = err e) ↔ ¬ Request.Found s (f text)) →
      (x.Fails env s ↔
        ¬ ∃ text, Axum.percentDecode raw = some text ∧ Request.Found s (f text)) := by
    intro raw f hx hf
    cases htext : Axum.percentDecode raw with
    | none =>
      rw [pathParam, htext] at hx
      cases hx
    | some text =>
      rw [pathParam, htext] at hx
      cases hx
      rw [Routed.Fails, hf]
      simp
  cases e with
  | health =>
    simp only [Endpoint.extract, hget, if_true, Except.ok.injEq] at h
    subst h
    simp [Routed.Fails, Endpoint.Found]
  -- a write route does not take a `HEAD`
  | files => simp [Endpoint.extract, hpost] at h
  | file id =>
    simp only [Endpoint.extract, hget, if_true] at h
    exact hread h fun text => statFile_err_iff
  | children id =>
    simp only [Endpoint.extract, hget, if_true] at h
    exact hread h fun text => listChildren_err_iff
  | versions id => simp [Endpoint.extract, hpost] at h
  | commit id => simp [Endpoint.extract, hpost] at h
  | manifest id =>
    simp only [Endpoint.extract, hget, hput, if_true, if_false] at h
    exact hread h fun text => getManifest_err_iff
  | chunk id =>
    simp only [Endpoint.extract, hget, hput, if_true, if_false] at h
    exact hread h fun text => getChunk_err_iff
  | slow ms =>
    simp only [Endpoint.extract, hget, if_true] at h
    cases hn : pathNumber ms with
    | error rejection =>
      rw [hn] at h
      cases h
    | ok n =>
      rw [hn] at h
      cases h
      simp [Routed.Fails, Endpoint.Found]

omit [Blake3] [Chrono] [SerdeJson] in
/-- A body of another type is taken by the commit only. -/
theorem commit_of_undecodable {e : Endpoint} (hend : endpoint r.path = some e) (htaken : e.Takes r)
    (h : r.Undecodable) : r.method = .post ∧ ∃ raw, e = .commit raw := by
  obtain ⟨reads, hreads, hany⟩ := h
  -- where the route decodes the body, a body of another type is not taken
  have hrefused : ∀ {T : Type} (ofJson : Json → Option T), TakesJson ofJson r →
      (Axum.readJson r.body).any (fun j => (ofJson j).isSome) = false → False := by
    intro T ofJson ⟨_, _, req, hreq⟩ hno
    obtain ⟨j, hj, hreq⟩ := Option.bind_eq_some_iff.mp hreq
    rw [hj, Option.any_some, hreq] at hno
    cases hno
  unfold HttpRequest.reads at hreads
  rw [hend] at hreads
  split at hreads
  · rename_i heq
    cases heq
    cases hreads
    exact absurd hany fun h => hrefused _ htaken.2 h
  · rename_i heq
    cases heq
    cases hreads
    exact absurd hany fun h => hrefused _ htaken.2.2 h
  · -- the commit handler has no body extractor
    rename_i hmethod heq
    cases heq
    exact ⟨hmethod, _, rfl⟩
  · rename_i hmethod heq
    cases heq
    cases hreads
    rcases htaken.2 with ⟨_, hjson⟩ | hget
    · exact absurd hany fun h => hrefused _ hjson h
    · rw [hmethod] at hget
      cases hget
  · cases hreads

/-- A commit is answered with `INVALID_PARAMETER` exactly when its path has
    no version id. -/
theorem blames_commit_iff (huuid : UuidCrate.Lawful) (hserde : SerdeJson.Lawful)
    {raw text : String} (hmethod : r.method = .post) (hend : endpoint r.path = some (.commit raw))
    (htext : Axum.percentDecode raw = some text) :
    Router.BlamesParameter env r s ↔ ∀ v, VersionId.parse text ≠ ok v := by
  have hroute : route r = .ok (.stores (.commitVersion text)) := by
    simp only [route, hend, Endpoint.extract, hmethod, if_true]
    rw [pathParam, htext]
    rfl
  have hcall : Api.metaCall (.commitVersion text) = some (do
      let id ← VersionId.parse text
      return ⟨.commitVersion id, fun version => .version ⟨contractVersion, version⟩⟩) := rfl
  have hanswer := congrArg Prod.fst (answer_of_stores env s hroute)
  have hdeliver : ∀ resp, r.method.deliver resp = resp := by
    intro resp
    rw [hmethod]
    rfl
  unfold Router.BlamesParameter
  rw [hanswer, serve_metaCall env s hcall]
  have hchecks := checks_parseTagged "v_" VersionId.mk text
  cases hv : VersionId.parse text with
  | panic => exact absurd hv hchecks.ne_panic
  | err e =>
    have hinvalid : e.IsInvalidParam := by
      have hv' : parseTagged "v_" VersionId.mk text = err e := hv
      rw [hv'] at hchecks
      exact hchecks
    refine iff_of_true ?_ fun v h => by cases h
    refine ⟨errorResponse e, .from e, ?_, not_isSuccess_statusFor e.code,
      ofBody_errorResponse huuid hserde hinvalid.bare, hinvalid.code⟩
    exact congrArg some (hdeliver _)
  | ok v =>
    refine iff_of_false ?_ fun h => h v rfl
    intro ⟨resp, er, hresp, hstatus, her, hcode⟩
    have hraises := Inner.commitVersion_raises env s.metaStore v
    rw [ok_bind, pure_eq, tryAt_ok] at hresp
    dsimp only at hresp
    have hexec : (MetaOp.exec env (.commitVersion v) s.metaStore).1 =
      (s.metaStore.commitVersion env v).1 := rfl
    rw [hexec] at hresp
    cases hcommit : (s.metaStore.commitVersion env v).1 with
    | ok version =>
      rw [hcommit] at hresp
      cases hresp
      rw [status_deliver] at hstatus
      cases hstatus
    | panic =>
      rw [hcommit] at hresp
      cases hresp
    | err e =>
      -- the id was read, and the store never blames a parameter for a commit
      obtain ⟨hbare, hne⟩ := hraises e hcommit
      rw [hcommit] at hresp
      cases hresp
      rw [hdeliver, ofBody_errorResponse huuid hserde hbare] at her
      cases her
      exact hne hcode

end answers

/-- **A request is answered as the contract has it exactly when it is
    answerable.** -/
theorem wellAnswered_iff [Reqwest] (huuid : UuidCrate.Lawful) (hserde : SerdeJson.Lawful)
    (hplain : Axum.PlainRejections) (env : Env) (r : HttpRequest) (s : AppState) :
    Router.WellAnswered env r s ↔ r.Answerable s := by
  constructor
  · intro h
    -- a request that is refused before the handler is answered in plain text
    have htaken : ∀ e, endpoint r.path = some e → ∃ x, e.extract r = .ok x := by
      intro e hend
      cases hx : e.extract r with
      | ok x => exact ⟨x, rfl⟩
      | error rejection =>
        have hroute : route r = .error rejection := by
          rw [route, hend]
          exact hx
        exact absurd h.shaped (not_shaped_of_error hplain hserde hroute)
    constructor
    · exact fun e hend => (e.extract_eq_ok_iff r).mp (htaken e hend)
    · intro hhead
      cases hend : endpoint r.path with
      | none =>
        have hroute : route r = .ok .notFound := by rw [route, hend]
        exact absurd trivial ((shaped_iff huuid hserde hroute).mp h.shaped hhead)
      | some e =>
        obtain ⟨x, hx⟩ := htaken e hend
        have hroute : route r = .ok x := by
          rw [route, hend]
          exact hx
        have hno := (shaped_iff huuid hserde hroute).mp h.shaped hhead
        rw [fails_head_iff hhead hx, not_not] at hno
        exact ⟨e, rfl, hno⟩
    · intro raw hend hundecodable text v htext
      have htakes := (Endpoint.extract_eq_ok_iff _ r).mp (htaken _ hend)
      exact (blames_commit_iff huuid hserde htakes.1 hend htext).mp (h.undecodable hundecodable) v
  · intro h
    constructor
    · cases hend : endpoint r.path with
      | none =>
        have hroute : route r = .ok .notFound := by rw [route, hend]
        refine (shaped_iff huuid hserde hroute).mpr fun hhead => ?_
        obtain ⟨e, he, _⟩ := h.found hhead
        rw [hend] at he
        cases he
      | some e =>
        obtain ⟨x, hx⟩ := (e.extract_eq_ok_iff r).mpr (h.taken e hend)
        have hroute : route r = .ok x := by
          rw [route, hend]
          exact hx
        refine (shaped_iff huuid hserde hroute).mpr fun hhead => ?_
        obtain ⟨e', he', hfound⟩ := h.found hhead
        rw [hend] at he'
        cases he'
        rw [fails_head_iff hhead hx, not_not]
        exact hfound
    · intro hundecodable
      cases hend : endpoint r.path with
      | none =>
        obtain ⟨reads, hreads, _⟩ := hundecodable
        unfold HttpRequest.reads at hreads
        rw [hend] at hreads
        split at hreads <;> simp_all
      | some e =>
        -- only the commit takes such a body, and it does not look at it
        have htakes := h.taken e hend
        obtain ⟨hmethod, raw, rfl⟩ := commit_of_undecodable hend htakes hundecodable
        obtain ⟨text, htext⟩ := htakes.2
        refine (blames_commit_iff huuid hserde hmethod hend htext).mpr fun v => ?_
        exact h.commit raw hend hundecodable text v htext

end failures

namespace Sample

/-- A `CreateFileRequest` with a field `wat`. -/
def unknownField : Json :=
  .obj [("parent_id", .str uuidText), ("name", .str "a.txt"), ("idempotency_key", .str "k1"),
    ("wat", .uint 1)]

def unknownFieldRequest : HttpRequest where
  method := .post
  path := "/v1/files"
  contentType := some "application/json"
  range := none
  body := Json.toBytes unknownField

theorem unknownFieldRequest_route :
    letI := hyphenatedUuids
    letI := axum
    ∃ rejection, route unknownFieldRequest = .error rejection := by
  let := hyphenatedUuids
  let := axum
  have hend : endpoint unknownFieldRequest.path = some .files := by decide +kernel
  have hnone : CreateFileRequest.ofJson unknownField = none := by
    simp [CreateFileRequest.ofJson, unknownField, Json.structFields]
  have hwithin : unknownField.within 1 = true := by
    simp [unknownField, Json.within, Json.withinFields]
  have hbody : Axum.readJson unknownFieldRequest.body = some unknownField :=
    Json.ofBytes_toBytes hwithin
  cases hroute : route unknownFieldRequest with
  | error rejection => exact ⟨rejection, rfl⟩
  | ok x =>
    rw [route, hend] at hroute
    obtain ⟨_, _, _, req, hreq⟩ := (Endpoint.extract_eq_ok_iff _ _).mp ⟨x, hroute⟩
    rw [hbody, Option.bind_some, hnone] at hreq
    cases hreq

end Sample

theorem wellAnswered_iff_sample :
    letI := Sample.hyphenatedUuids
    letI := Sample.chrono
    letI := Sample.serdeJson
    letI := Sample.axum
    letI := Sample.blake3
    letI := Sample.reqwest
    Router.WellAnswered (Env.sample 1 10) Sample.unknownFieldRequest AppState.default ↔
      Sample.unknownFieldRequest.Answerable AppState.default :=
  letI := Sample.hyphenatedUuids
  letI := Sample.chrono
  letI := Sample.serdeJson
  letI := Sample.axum
  letI := Sample.blake3
  letI := Sample.reqwest
  wellAnswered_iff Sample.hyphenatedUuids_lawful Sample.serdeJson_lawful
    Sample.axum_plainRejections (Env.sample 1 10) Sample.unknownFieldRequest AppState.default

/-- The unknown field is refused by `axum`, with a text. -/
theorem unknown_field_unshaped :
    letI := Sample.hyphenatedUuids
    letI := Sample.chrono
    letI := Sample.serdeJson
    letI := Sample.axum
    letI := Sample.blake3
    letI := Sample.reqwest
    ¬ ∀ (env : Env) (r : HttpRequest) (s : AppState), Router.WellAnswered env r s := by
  let := Sample.hyphenatedUuids
  let := Sample.chrono
  let := Sample.serdeJson
  let := Sample.axum
  let := Sample.blake3
  let := Sample.reqwest
  intro h
  obtain ⟨rejection, hroute⟩ := Sample.unknownFieldRequest_route
  have hshaped := (h (Env.sample 1 10) Sample.unknownFieldRequest AppState.default).shaped
  exact not_shaped_of_error Sample.axum_plainRejections Sample.serdeJson_lawful hroute hshaped

end Space
