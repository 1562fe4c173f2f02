import Space.Contracts.IdText
import Space.Client.Stub

/-! # Where ids come in as text

    An id comes in as a path parameter of five routes, and as the
    `x-request-id` header. A handler parses the parameter and never looks at
    its text again, so all texts of an id are answered alike. The middleware
    parses the header only to accept it, and goes on with its text.

    * **`answer_sameObject`**: two paths of one object get the same answers.
    * **`exists_second_path`**: no file has one path.
    * **`requestIdLayer_canonical_iff`**: when the request id that goes
      through the layers below is in its printed form. -/

namespace Space

open Rust Outcome

/-! ## Section 1: The request id -/

section requestId

variable [UuidCrate]

/-- `request_id_layer`: the request id that the middleware puts on the request
    and on its response, for the `x-request-id` that the request has. Either
    way it is visible ASCII, which `HeaderValue::from_str` takes. -/
def requestIdLayer (fresh : RequestId) (header : Option HeaderValue) : String :=
  let inbound := (header.bind HeaderValue.toStr).filter fun s => (RequestId.parse s).isOk
  inbound.getD fresh.display

/-- The text of an inbound header that the middleware accepts. -/
def InboundId (header : Option HeaderValue) (s : String) : Prop :=
  header.bind HeaderValue.toStr = some s ∧ ∃ id, RequestId.parse s = ok id

/-- What is accepted goes on as it came. -/
theorem requestIdLayer_of_accepted (fresh : RequestId) {header : Option HeaderValue} {s : String}
    (h : InboundId header s) : requestIdLayer fresh header = s := by
  obtain ⟨hs, hid⟩ := h
  unfold requestIdLayer
  rw [hs, Option.filter_some, if_pos (isOk_eq_true.mpr hid)]
  rfl

theorem requestIdLayer_of_not_accepted (fresh : RequestId) {header : Option HeaderValue}
    (h : ∀ s, ¬ InboundId header s) : requestIdLayer fresh header = fresh.display := by
  unfold requestIdLayer
  cases hs : header.bind HeaderValue.toStr with
  | none => rfl
  | some s =>
    have hno : ¬ (RequestId.parse s).isOk = true := fun hok => h s ⟨hs, isOk_eq_true.mp hok⟩
    rw [Option.filter_some, if_neg hno]
    rfl

/-- **The request id downstream** is in its printed form, unless a header was
    accepted that is not. -/
theorem requestIdLayer_canonical_iff (h : UuidCrate.Documented) (fresh : RequestId)
    (header : Option HeaderValue) :
    (∀ id, RequestId.parse (requestIdLayer fresh header) = ok id →
      id.display = requestIdLayer fresh header) ↔
    ∀ s, InboundId header s → StrictText "r_" s := by
  have hexact : TextsExact RequestId.parse RequestId.display (StrictText "r_") :=
    textsExact_tagged RequestId.equiv h
  rw [hexact.canonical_iff]
  by_cases haccepted : ∃ s, InboundId header s
  · obtain ⟨s, hs⟩ := haccepted
    rw [requestIdLayer_of_accepted fresh hs]
    constructor
    · intro hstrict t ht
      have hsame : t = s := Option.some.inj (ht.1.symm.trans hs.1)
      rwa [hsame]
    · intro hall
      exact hall s hs
  · push Not at haccepted
    rw [requestIdLayer_of_not_accepted fresh haccepted]
    constructor
    · intro _ s hs
      exact absurd hs (haccepted s)
    · intro _
      apply (hexact.canonical_iff _).mp
      intro id hid
      rw [hexact.parse_display] at hid
      cases hid
      rfl

end requestId

/-! ## Section 2: Path parameters -/

section requests

variable [UuidCrate]

/-- The same request, but for the text of the id in its path. -/
inductive Request.SameObject : Request → Request → Prop
  | statFile {a b : String} {id : FileId} (ha : FileId.parse a = ok id)
      (hb : FileId.parse b = ok id) : SameObject (.statFile a) (.statFile b)
  | listChildren {a b : String} {id : DirectoryId} (ha : DirectoryId.parse a = ok id)
      (hb : DirectoryId.parse b = ok id) : SameObject (.listChildren a) (.listChildren b)
  | createVersion {a b : String} {id : FileId} (ha : FileId.parse a = ok id)
      (hb : FileId.parse b = ok id) (req : CreateVersionRequest) :
      SameObject (.createVersion a req) (.createVersion b req)
  | commitVersion {a b : String} {id : VersionId} (ha : VersionId.parse a = ok id)
      (hb : VersionId.parse b = ok id) : SameObject (.commitVersion a) (.commitVersion b)
  | putManifest {a b : String} {id : ManifestId} (ha : ManifestId.parse a = ok id)
      (hb : ManifestId.parse b = ok id) (req : PutManifestRequest) :
      SameObject (.putManifest a req) (.putManifest b req)
  | getManifest {a b : String} {id : ManifestId} (ha : ManifestId.parse a = ok id)
      (hb : ManifestId.parse b = ok id) : SameObject (.getManifest a) (.getManifest b)

/-- A handler depends on the id alone. -/
theorem handle_sameObject {req req' : Request} (h : req.SameObject req') :
    Api.handle req = Api.handle req' := by
  cases h with
  | statFile ha hb =>
    rw [Api.handle_of_metaCall (Api.metaCall_statFile ha),
      Api.handle_of_metaCall (Api.metaCall_statFile hb)]
  | listChildren ha hb =>
    rw [Api.handle_of_metaCall (Api.metaCall_listChildren ha),
      Api.handle_of_metaCall (Api.metaCall_listChildren hb)]
  | createVersion ha hb req =>
    rw [Api.handle_of_metaCall (Api.metaCall_createVersion ha req),
      Api.handle_of_metaCall (Api.metaCall_createVersion hb req)]
  | commitVersion ha hb =>
    rw [Api.handle_of_metaCall (Api.metaCall_commitVersion ha),
      Api.handle_of_metaCall (Api.metaCall_commitVersion hb)]
  | putManifest ha hb req =>
    -- the path may name another manifest than the body
    show Api.putManifest _ req = Api.putManifest _ req
    unfold Api.putManifest
    rw [ha, hb]
  | getManifest ha hb =>
    rw [Api.handle_of_metaCall (Api.metaCall_getManifest ha),
      Api.handle_of_metaCall (Api.metaCall_getManifest hb)]

theorem serve_sameObject [Blake3] {env : Env} {s : AppState} {req req' : Request}
    (h : req.SameObject req') : Api.serve env req s = Api.serve env req' s := by
  unfold Api.serve
  rw [handle_sameObject h]

end requests

/-! ## Section 3: Paths -/

section paths

variable [UuidCrate]

/-- The same route, but for the text of the id in its path. -/
inductive Endpoint.SameObject : Endpoint → Endpoint → Prop
  | file {a b : String} {id : FileId} (ha : FileId.parse a = ok id)
      (hb : FileId.parse b = ok id) : SameObject (.file a) (.file b)
  | children {a b : String} {id : DirectoryId} (ha : DirectoryId.parse a = ok id)
      (hb : DirectoryId.parse b = ok id) : SameObject (.children a) (.children b)
  | versions {a b : String} {id : FileId} (ha : FileId.parse a = ok id)
      (hb : FileId.parse b = ok id) : SameObject (.versions a) (.versions b)
  | commit {a b : String} {id : VersionId} (ha : VersionId.parse a = ok id)
      (hb : VersionId.parse b = ok id) : SameObject (.commit a) (.commit b)
  | manifest {a b : String} {id : ManifestId} (ha : ManifestId.parse a = ok id)
      (hb : ManifestId.parse b = ok id) : SameObject (.manifest a) (.manifest b)

/-- What the extractors make of two such routes. -/
inductive Routed.SameObject : Except Rejection Routed → Except Rejection Routed → Prop
  | stores {req req' : Request} (h : req.SameObject req') :
      SameObject (.ok (.stores req)) (.ok (.stores req'))
  | error (rejection : Rejection) : SameObject (.error rejection) (.error rejection)

theorem Routed.SameObject.ite {c : Prop} [Decidable c] {x x' y y' : Except Rejection Routed}
    (hthen : SameObject x x') (helse : SameObject y y') :
    SameObject (if c then x else y) (if c then x' else y') := by
  by_cases hc : c
  · rwa [if_pos hc, if_pos hc]
  · rwa [if_neg hc, if_neg hc]

variable (h : UuidCrate.Documented)

include h

/-- A path carries every text of an id as it is. -/
theorem pathSafe_of_parseTagged {α : Type} {tag s : String} (e : Uuid ≃ α) {id : α}
    (hid : parseTagged tag e s = ok id) (hne : tag ≠ "") (hslash : '/' ∉ tag.toList)
    (hescape : '%' ∉ tag.toList) : PathSafe s := by
  obtain ⟨t, hs, ht⟩ := (parseTagged_eq_ok e).mp hid
  obtain ⟨form, hform⟩ := (h.parse t _).mp ht
  rw [hs]
  exact pathSafe_isText hform hne hslash hescape

theorem pathSafe_fileId {s : String} {id : FileId} (hid : FileId.parse s = ok id) :
    PathSafe s :=
  pathSafe_of_parseTagged h FileId.equiv hid (by decide) (by decide) (by decide)

theorem pathSafe_directoryId {s : String} {id : DirectoryId}
    (hid : DirectoryId.parse s = ok id) : PathSafe s :=
  pathSafe_of_parseTagged h DirectoryId.equiv hid (by decide) (by decide) (by decide)

theorem pathSafe_versionId {s : String} {id : VersionId} (hid : VersionId.parse s = ok id) :
    PathSafe s :=
  pathSafe_of_parseTagged h VersionId.equiv hid (by decide) (by decide) (by decide)

theorem pathSafe_manifestId {s : String} {id : ManifestId} (hid : ManifestId.parse s = ok id) :
    PathSafe s :=
  pathSafe_of_parseTagged h ManifestId.equiv hid (by decide) (by decide) (by decide)

variable [SerdeJson] [Axum] (haxum : Axum.Lawful)

include haxum

/-- The extractors tell two texts of one id apart only in what they hand on. -/
theorem extract_sameObject {e e' : Endpoint} (hsame : e.SameObject e') (r : HttpRequest) :
    Routed.SameObject (e.extract r) (e'.extract r) := by
  cases hsame with
  | file ha hb =>
    dsimp only [Endpoint.extract]
    rw [pathParam_of_pathSafe (pathSafe_fileId h ha) haxum,
      pathParam_of_pathSafe (pathSafe_fileId h hb) haxum]
    apply Routed.SameObject.ite _ (.error _)
    exact .stores (.statFile ha hb)
  | children ha hb =>
    dsimp only [Endpoint.extract]
    rw [pathParam_of_pathSafe (pathSafe_directoryId h ha) haxum,
      pathParam_of_pathSafe (pathSafe_directoryId h hb) haxum]
    apply Routed.SameObject.ite _ (.error _)
    exact .stores (.listChildren ha hb)
  | versions ha hb =>
    dsimp only [Endpoint.extract]
    rw [pathParam_of_pathSafe (pathSafe_fileId h ha) haxum,
      pathParam_of_pathSafe (pathSafe_fileId h hb) haxum]
    apply Routed.SameObject.ite _ (.error _)
    cases jsonBody CreateVersionRequest.ofJson r with
    | ok req => exact .stores (.createVersion ha hb req)
    | error rejection => exact .error rejection
  | commit ha hb =>
    dsimp only [Endpoint.extract]
    rw [pathParam_of_pathSafe (pathSafe_versionId h ha) haxum,
      pathParam_of_pathSafe (pathSafe_versionId h hb) haxum]
    apply Routed.SameObject.ite _ (.error _)
    exact .stores (.commitVersion ha hb)
  | manifest ha hb =>
    dsimp only [Endpoint.extract]
    rw [pathParam_of_pathSafe (pathSafe_manifestId h ha) haxum,
      pathParam_of_pathSafe (pathSafe_manifestId h hb) haxum]
    apply Routed.SameObject.ite
    · cases jsonBody PutManifestRequest.ofJson r with
      | ok req => exact .stores (.putManifest ha hb req)
      | error rejection => exact .error rejection
    · apply Routed.SameObject.ite _ (.error _)
      exact .stores (.getManifest ha hb)

end paths

/-! ## Section 4: Answers -/

section answers

variable [UuidCrate] [SerdeJson] [Axum] [Chrono] [Blake3] {env : Env} {s : AppState}

theorem answer_of_routed {r r' : HttpRequest} (hmethod : r'.method = r.method)
    (hsame : Routed.SameObject (route r) (route r')) :
    Router.answer env r' s = Router.answer env r s := by
  have hdispatch : Router.dispatch env r' s = Router.dispatch env r s := by
    unfold Router.dispatch
    generalize route r = x at hsame
    generalize route r' = x' at hsame
    cases hsame with
    | @stores req req' hreq =>
      show (respond (Api.serve env req' s).1, (Api.serve env req' s).2) =
        (respond (Api.serve env req s).1, (Api.serve env req s).2)
      rw [serve_sameObject hreq]
    | error rejection => rfl
  unfold Router.answer
  rw [hdispatch, hmethod]

variable (h : UuidCrate.Documented) (haxum : Axum.Lawful)

include h haxum

/-- **Two paths of one object** get the same answers, whatever is asked. -/
theorem answer_sameObject {e e' : Endpoint} (hsame : e.SameObject e') {r : HttpRequest}
    {path : String} (he : endpoint r.path = some e) (he' : endpoint path = some e') :
    Router.answer env { r with path := path } s = Router.answer env r s := by
  have hroute : route r = e.extract r := by
    unfold route
    rw [he]
  have hroute' : route { r with path := path } = e'.extract r := by
    unfold route
    rw [he']
    cases e' <;> rfl
  refine answer_of_routed (r := r) rfl ?_
  rw [hroute, hroute']
  exact extract_sameObject h haxum hsame r

/-- Every text of a file id is as good in a path as the one that the client
    sends. -/
theorem answer_file_text {id : FileId} {text : String} (htext : FileId.parse text = ok id)
    {r : HttpRequest} (hr : r.path = "/v1/files/" ++ text) :
    Router.answer env { r with path := "/v1/files/" ++ id.display } s =
      Router.answer env r s := by
  have hdisplay : FileId.parse id.display = ok id :=
    (textsExact_tagged FileId.equiv h).parse_display id
  have he : endpoint r.path = some (.file text) := by
    rw [hr]
    exact endpoint_file (pathSafe_fileId h htext)
  exact answer_sameObject h haxum (.file htext hdisplay) he
    (endpoint_file (pathSafe_fileId h hdisplay))

/-- **No file has one path.** -/
theorem exists_second_path (id : FileId) : ∃ path, path ≠ "/v1/files/" ++ id.display ∧
    ∀ r : HttpRequest, r.path = path →
      Router.answer env { r with path := "/v1/files/" ++ id.display } s =
        Router.answer env r s := by
  have hparse : FileId.parse ("f_" ++ id.uuid.simple) = ok id :=
    parseTagged_simple FileId.equiv h "f_" id.uuid
  refine ⟨"/v1/files/" ++ ("f_" ++ id.uuid.simple), ?_, fun r hr => ?_⟩
  · intro hpath
    exact simple_ne_display h "f_" id.uuid ((String.append_right_inj _).mp hpath)
  · exact answer_file_text h haxum hparse hr

end answers

end Space
