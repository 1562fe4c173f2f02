import Space.Data.Schema
import Space.Cloud.Router

/-! # The API description

    `schemas/api.openapi.yaml`: its schemas, and its operations with their
    paths, request bodies and responses, as they are written there.

    Beside it, what the types of `contracts::api` write and read is compared
    with the schemas: `File.describes_iff` and its neighbours say which of
    the documents that are written are described, and
    `PutManifestRequest.describes` and its neighbours that a document which
    is read is. -/

namespace Space

open Rust Outcome Data Effects Schema

/-! ## Section 1: Schemas -/

/-- The names under `components.schemas`. -/
inductive SchemaName where
  | errorCode
  | spaceError
  | errorResponse
  | healthResponse
  | file
  | versionState
  | version
  | chunk
  | manifestEntry
  | manifest
  | createFileRequest
  | createVersionRequest
  | putManifestRequest
  | fileResponse
  | listChildrenResponse
  | versionResponse
  | manifestResponse
  | chunkResponse

/-- `pattern: "^b3:[0-9a-f]{64}$"`. -/
def chunkIdPattern : Pattern := ⟨[.text "b3:", .chars [('0', '9'), ('a', 'f')] 64], true⟩

/-- `contract_version: { type: integer, const: 1 }` and one more property. -/
def versioned (field : String) (s : Schema SchemaName) : Schema SchemaName :=
  .object false ["contract_version", field] [("contract_version", .integer (some 1)), (field, s)]

/-- `components.schemas`. The formats are left out: they restrict no document. -/
def components : SchemaName → Schema SchemaName
  | .errorCode => .string (.oneOf ["CONFIG_MISSING", "CONFIG_INVALID",
      "CONFIG_UNSUPPORTED_VERSION", "FILE_NOT_FOUND", "FILE_EXISTS", "DIRECTORY_NOT_EMPTY",
      "VERSION_NOT_FOUND", "MANIFEST_NOT_FOUND", "CHUNK_NOT_FOUND", "INVALID_PARAMETER",
      "INVALID_HANDLE", "INTEGRITY_HASH_MISMATCH", "INTEGRITY_LENGTH_MISMATCH",
      "INTEGRITY_MANIFEST_INVALID", "INTEGRITY_CHUNK_ID_CONFLICT", "NETWORK_TIMEOUT",
      "NETWORK_UNAVAILABLE", "PROTOCOL_VIOLATION", "STORAGE_ERROR", "DISK_FULL",
      "RESOURCE_EXHAUSTED", "CANCELLED", "SHARING_VIOLATION", "AUTH_FAILED",
      "PERMISSION_DENIED", "INTERNAL_ERROR"])
  | .spaceError => .object false ["code", "message"]
      [("code", .ref .errorCode), ("message", .string .any),
        ("operation_id", .nullable (.string .any)), ("request_id", .nullable (.string .any)),
        ("source", .ref .spaceError)]
  | .errorResponse => versioned "error" (.ref .spaceError)
  | .healthResponse => .object false ["status", "service", "version", "contract_version"]
      [("status", .string (.oneOf ["ok"])), ("service", .string .any), ("version", .string .any),
        ("contract_version", .integer (some 1))]
  | .file => .object false ["file_id", "parent_id", "name", "created_at", "modified_at"]
      [("file_id", .string .any), ("parent_id", .string .any), ("name", .string .any),
        ("current_version_id", .nullable (.string .any)), ("created_at", .string .any),
        ("modified_at", .string .any)]
  | .versionState => .string (.oneOf ["CANDIDATE", "COMMITTED"])
  | .version => .object false ["version_id", "file_id", "manifest_id", "state", "created_at"]
      [("version_id", .string .any), ("file_id", .string .any),
        ("parent_version_id", .nullable (.string .any)), ("manifest_id", .string .any),
        ("state", .ref .versionState), ("created_at", .string .any)]
  | .chunk => .object false ["chunk_id", "size"]
      [("chunk_id", .string (.pattern chunkIdPattern)), ("size", .integer none)]
  | .manifestEntry => .object false ["logical_offset", "length", "chunk_id", "chunk_offset"]
      [("logical_offset", .integer none), ("length", .integer none), ("chunk_id", .string .any),
        ("chunk_offset", .integer none)]
  | .manifest => .object false ["manifest_id", "total_size", "chunk_count", "entries", "chunks"]
      [("manifest_id", .string .any), ("total_size", .integer none),
        ("chunk_count", .integer none), ("entries", .array (.ref .manifestEntry)),
        ("chunks", .array (.ref .chunk))]
  | .createFileRequest => .object true ["parent_id", "name", "idempotency_key"]
      [("parent_id", .string .any), ("name", .string .any), ("idempotency_key", .string .any)]
  | .createVersionRequest => .object true ["version_id", "manifest_id"]
      [("version_id", .string .any), ("parent_version_id", .nullable (.string .any)),
        ("manifest_id", .string .any)]
  | .putManifestRequest => .object true ["manifest"] [("manifest", .ref .manifest)]
  | .fileResponse => versioned "file" (.ref .file)
  | .listChildrenResponse => versioned "files" (.array (.ref .file))
  | .versionResponse => versioned "version" (.ref .version)
  | .manifestResponse => versioned "manifest" (.ref .manifest)
  | .chunkResponse => versioned "chunk" (.ref .chunk)

/-- The document is one of the schema `name`. -/
abbrev Describes (mode : Reading) (name : SchemaName) (j : Json) : Prop :=
  Accepts components mode (.ref name) j

/-! ## Section 2: Operations -/

/-- The operations, by their `operationId`. -/
inductive ApiOperation where
  | health
  | createFile
  | statFile
  | listChildren
  | createVersion
  | commitVersion
  | putManifest
  | getManifest
  | putChunk
  | getChunk
  deriving DecidableEq

/-- A part of a path: a text, or a parameter with its pattern. -/
inductive PathPart where
  | text (s : String)
  | param (pattern : Pattern)

/-- What a body is: a document or bytes. -/
inductive Content where
  | json (name : SchemaName)
  | octets

namespace ApiOperation

def method : ApiOperation → Method
  | health | statFile | listChildren | getManifest | getChunk => .get
  | createFile | createVersion | commitVersion => .post
  | putManifest | putChunk => .put

/-- `components.parameters`: the pattern of an id that starts with `tag`. -/
def tagged (tag : String) : PathPart := .param ⟨[.text tag], false⟩

/-- The path of the operation, after its first slash. -/
def path : ApiOperation → List PathPart
  | health => [.text "health"]
  | createFile => [.text "v1", .text "files"]
  | statFile => [.text "v1", .text "files", tagged "f_"]
  | listChildren => [.text "v1", .text "dirs", tagged "d_", .text "children"]
  | createVersion => [.text "v1", .text "files", tagged "f_", .text "versions"]
  | commitVersion => [.text "v1", .text "versions", tagged "v_", .text "commit"]
  | putManifest | getManifest => [.text "v1", .text "manifests", tagged "m_"]
  | putChunk | getChunk => [.text "v1", .text "chunks", .param chunkIdPattern]

/-- `requestBody`, which is required where there is one. -/
def requestBody : ApiOperation → Option Content
  | createFile => some (.json .createFileRequest)
  | createVersion => some (.json .createVersionRequest)
  | putManifest => some (.json .putManifestRequest)
  | putChunk => some .octets
  | _ => none

/-- The responses with a status of their own. -/
def successes : ApiOperation → List (Nat × Content)
  | health => [(200, .json .healthResponse)]
  | createFile | statFile => [(200, .json .fileResponse)]
  | listChildren => [(200, .json .listChildrenResponse)]
  | createVersion | commitVersion => [(200, .json .versionResponse)]
  | putManifest | getManifest => [(200, .json .manifestResponse)]
  | putChunk => [(200, .json .chunkResponse)]
  | getChunk => [(200, .octets), (206, .octets)]

/-- The `default` response. -/
def otherwise : ApiOperation → Option Content
  | health => none
  | _ => some (.json .errorResponse)

/-- What the body of a response with this status is. -/
def response (op : ApiOperation) (status : Nat) : Option Content :=
  (op.successes.lookup status).or op.otherwise

end ApiOperation

/-! ## Section 3: Conformance -/

/-- A segment of a URL is where the path has this part. -/
def PathPart.Covers : PathPart → String → Prop
  | .text s, segment => segment = s
  | .param _, _ => True

/-- The request is one for the operation. A path that ends in a slash is the
    path of none. -/
def ApiOperation.Serves (op : ApiOperation) (r : HttpRequest) : Prop :=
  r.method = op.method ∧ ∃ rest, segments r.path = "" :: rest ∧
    List.Forall₂ PathPart.Covers op.path rest ∧ rest.getLast? ≠ some ""

section conformance

variable [SerdeJson]

/-- The media type of a response and its body are as described. Bytes are
    described by their media type alone. -/
def Content.Describes (mode : Reading) : Content → HttpResponse → Prop
  | .json name, resp => resp.contentType = some "application/json" ∧
      ∃ j, SerdeJson.fromSlice resp.body = some j ∧ Space.Describes mode name j
  | .octets, resp => resp.contentType = some "application/octet-stream"

/-- The response is one of those that the operation has. -/
def ApiOperation.Documents (mode : Reading) (op : ApiOperation) (resp : HttpResponse) : Prop :=
  ∃ content, op.response resp.status = some content ∧ content.Describes mode resp

variable [Axum]

/-- A segment of a URL is as described: a parameter is one that the pattern
    of the path allows, once its escapes are decoded. -/
def PathPart.Describes : PathPart → String → Prop
  | .text s, segment => segment = s
  | .param pattern, segment =>
    ∃ text, Axum.percentDecode segment = some text ∧ pattern.test text = true

/-- The request has the body that the operation requires. -/
def Content.Required (mode : Reading) : Option Content → HttpRequest → Prop
  | some (.json name), r => Axum.isJson r.contentType = true ∧
      ∃ j, Axum.readJson r.body = some j ∧ Space.Describes mode name j
  | _, _ => True

/-- The request names the media type of the body that is required. -/
def Content.Announced : Option Content → HttpRequest → Prop
  | some (.json _), r => r.contentType = some "application/json"
  | some .octets, r => r.contentType = some "application/octet-stream"
  | none, _ => True

/-- The request is as the operation describes it. -/
structure ApiOperation.Conforms (mode : Reading) (op : ApiOperation) (r : HttpRequest) : Prop where
  method : r.method = op.method
  path : ∃ rest, segments r.path = "" :: rest ∧ List.Forall₂ PathPart.Describes op.path rest
  body : Content.Required mode op.requestBody r

end conformance

/-! ## Section 4: What the types write -/

/-- The pattern says what `ChunkId::parse` says. -/
theorem chunkIdPattern_test {s : String} :
    chunkIdPattern.test s = true ↔ ChunkId.WellFormed ⟨s⟩ := by
  have hranges : ∀ c : Char, inRanges [('0', '9'), ('a', 'f')] c = true ↔
      ('0' ≤ c ∧ c ≤ '9') ∨ ('a' ≤ c ∧ c ≤ 'f') := by
    intro c
    simp [inRanges]
  have hpre : "b3:".toList = ['b', '3', ':'] := by decide
  rw [Pattern.test_iff, chunkIdPattern, ChunkId.WellFormed]
  simp only [stripPieces_cons, strip_text, strip_chars, hranges, hpre, forall_const]
  constructor
  · intro h
    obtain ⟨_, ⟨hex, hs, _, ⟨_, rfl, hlen, hhex⟩, hnil⟩, rfl⟩ := h
    cases hnil
    exact ⟨_, by simpa using hs, hlen, hhex⟩
  · intro h
    obtain ⟨hex, hs, hlen, hhex⟩ := h
    exact ⟨[], ⟨hex, by simpa using hs, [], ⟨hex, by simp, hlen, hhex⟩, rfl⟩, rfl⟩

/-- The chunk ids of the table are ids. -/
def Manifest.IdsFormed (m : Manifest) : Prop := ∀ c ∈ m.chunks, c.chunkId.WellFormed

section types

variable {mode : Reading}

theorem Chunk.describes_iff {c : Chunk} :
    Describes mode .chunk c.toJson ↔ c.chunkId.WellFormed := by
  rw [← chunkIdPattern_test (s := c.chunkId.str)]
  simp [Describes, components, Chunk.toJson, ChunkId.toJson, accepts_obj, List.lookup_cons,
    StringRule.holds]

theorem ManifestEntry.describes (e : ManifestEntry) :
    Describes mode .manifestEntry e.toJson := by
  simp [Describes, components, ManifestEntry.toJson, ChunkId.toJson, accepts_obj,
    List.lookup_cons, StringRule.holds]

theorem VersionState.describes (state : VersionState) :
    Describes mode .versionState state.toJson := by
  cases state <;> simp [Describes, components, VersionState.toJson, StringRule.holds]

theorem ErrorCode.describes (code : ErrorCode) : Describes mode .errorCode code.toJson := by
  rw [Describes, accepts_ref, ErrorCode.toJson, components, accepts_str]
  cases code <;> decide

/-- The version of the contract, and one more field. -/
theorem describes_versioned {field : String} {s : Schema SchemaName} {value : Json}
    (hfield : field ≠ "contract_version") :
    Accepts components mode (versioned field s) (responseToJson field contractVersion value) ↔
      Accepts components mode s value := by
  have hne : (field == "contract_version") = false := by simpa using hfield
  have hversion : contractVersion.toUInt64 = 1 := rfl
  simp [versioned, responseToJson, accepts_obj, List.lookup_cons, hne, hversion]

variable [UuidCrate]

theorem Manifest.describes_iff {m : Manifest} :
    Describes mode .manifest m.toJson ↔ m.IdsFormed := by
  have hentries : ∀ e ∈ m.entries, Accepts components mode (components .manifestEntry) e.toJson :=
    fun e _ => accepts_ref.mp e.describes
  have hchunks : ∀ c : Chunk, Accepts components mode (components .chunk) c.toJson ↔
      c.chunkId.WellFormed := fun c => accepts_ref.symm.trans Chunk.describes_iff
  rw [Describes, accepts_ref, components, Manifest.IdsFormed]
  simp only [← hchunks]
  simp [Manifest.toJson, ManifestId.toJson, Uuid.toJson, accepts_obj, List.lookup_cons,
    StringRule.holds]
  intro _
  exact hentries

/-- An optional id is a string, or `null`. -/
theorem describes_versionId (o : Option VersionId) :
    Accepts components mode (.nullable (.string .any)) (Json.ofOption VersionId.toJson o) ↔
      mode.nullable = true ∨ o.isSome = true := by
  apply accepts_ofOption
  · intro v
    exact accepts_str.mpr rfl
  · intro h
    cases h

/-- A file is described, but for a current version that it does not have. -/
theorem File.describes_iff [Chrono] (f : File) : Describes mode .file f.toJson ↔
    mode.nullable = true ∨ f.currentVersionId.isSome = true := by
  rw [← describes_versionId]
  simp [Describes, components, File.toJson, FileId.toJson, DirectoryId.toJson, Uuid.toJson,
    DateTime.toJson, accepts_obj, List.lookup_cons, StringRule.holds]

/-- So is a version, but for a parent that it does not have. -/
theorem Version.describes_iff [Chrono] (v : Version) : Describes mode .version v.toJson ↔
    mode.nullable = true ∨ v.parentVersionId.isSome = true := by
  rw [← describes_versionId]
  have hstate : Accepts components mode (components .versionState) v.state.toJson :=
    accepts_ref.mp v.state.describes
  rw [Describes, accepts_ref, components]
  simp [Version.toJson, VersionId.toJson, FileId.toJson, ManifestId.toJson, Uuid.toJson,
    DateTime.toJson, accepts_obj, List.lookup_cons, StringRule.holds, hstate]

/-- The requests are described like the objects in them. -/
theorem CreateFileRequest.describes_toJson (r : CreateFileRequest) :
    Describes mode .createFileRequest r.toJson := by
  simp [Describes, components, CreateFileRequest.toJson, DirectoryId.toJson, Uuid.toJson,
    accepts_obj, List.lookup_cons, StringRule.holds]

theorem CreateVersionRequest.describes_iff (r : CreateVersionRequest) :
    Describes mode .createVersionRequest r.toJson ↔
      mode.nullable = true ∨ r.parentVersionId.isSome = true := by
  rw [← describes_versionId]
  simp [Describes, components, CreateVersionRequest.toJson, VersionId.toJson, ManifestId.toJson,
    Uuid.toJson, accepts_obj, List.lookup_cons, StringRule.holds]

theorem PutManifestRequest.describes_iff (r : PutManifestRequest) :
    Describes mode .putManifestRequest r.toJson ↔ r.manifest.IdsFormed := by
  have hmanifest : Accepts components mode (components .manifest) r.manifest.toJson ↔
      r.manifest.IdsFormed := accepts_ref.symm.trans Manifest.describes_iff
  rw [← hmanifest, Describes, accepts_ref]
  show Accepts components mode (.object true _ _) _ ↔ _
  simp [PutManifestRequest.toJson, accepts_obj, List.lookup_cons]

/-- The fields of an error, and a cause if there is one. -/
theorem describes_error (code : ErrorCode) (message : String) (operationId : Option OperationId)
    (requestId : Option RequestId) {cause : List (String × Json)}
    (hcause : ∀ f ∈ cause, f.1 = "source" ∧ Describes mode .spaceError f.2) :
    Describes mode .spaceError (.obj ([("code", code.toJson), ("message", .str message)] ++
      skipNone "operation_id" OperationId.toJson operationId ++
      skipNone "request_id" RequestId.toJson requestId ++ cause)) := by
  have hid : ∀ u : Uuid, Accepts components mode (.nullable (.string .any)) u.toJson :=
    fun u => .value (accepts_str.mpr rfl)
  rw [Describes, accepts_ref, components, accepts_obj]
  refine ⟨by simp, (fun h => by cases h), ?_⟩
  rw [List.forall_mem_append, List.forall_mem_append, List.forall_mem_append]
  refine ⟨⟨⟨?_, ?_⟩, ?_⟩, ?_⟩
  · have hcode : Accepts components mode (components .errorCode) code.toJson :=
      accepts_ref.mp code.describes
    simp [List.lookup_cons, StringRule.holds, hcode]
  · cases operationId with
    | none => simp [skipNone]
    | some id => simp [skipNone, List.lookup_cons, OperationId.toJson, hid]
  · cases requestId with
    | none => simp [skipNone]
    | some id => simp [skipNone, List.lookup_cons, RequestId.toJson, hid]
  · intro f hf s hs
    obtain ⟨hname, hvalue⟩ := hcause f hf
    rw [hname] at hs
    cases hs
    exact hvalue

/-- An error is described with its ids and its whole chain of causes. -/
theorem SpaceError.describes : ∀ e : SpaceError, Describes mode .spaceError e.toJson
  | .mk code message operationId requestId none =>
    describes_error code message operationId requestId fun f hf => by cases hf
  | .mk code message operationId requestId (some cause) =>
    describes_error code message operationId requestId fun f hf => by
      rw [List.mem_singleton.mp hf]
      exact ⟨rfl, SpaceError.describes cause⟩

theorem ErrorResponse.describes (e : SpaceError) :
    Describes mode .errorResponse (ErrorResponse.from e).toJson := by
  rw [Describes, accepts_ref, components]
  exact (describes_versioned (by decide)).mpr e.describes

omit [UuidCrate] in
theorem HealthResponse.describes : Describes mode .healthResponse HealthResponse.ok.toJson := by
  have hversion : Space.contractVersion.toUInt64 = 1 := rfl
  simp [Describes, components, HealthResponse.toJson, HealthResponse.ok, accepts_obj,
    List.lookup_cons, StringRule.holds, hversion]

end types

/-! ## Section 5: What is read

    What a request type is read from is described by its schema, but for the
    chunk ids of a manifest, which are not parsed when they are read. -/

/-- How `serde` reads a schema. -/
def serdeReading : Reading := ⟨true, true⟩

section read

variable [UuidCrate]

omit [UuidCrate] in
theorem describes_readString {j : Json} {s : String} (h : Json.readString j = some s) :
    Accepts components serdeReading (.string .any) j := by
  cases j with
  | str s => exact accepts_str.mpr rfl
  | _ => cases h

theorem describes_uuid {α : Type} {mk : Uuid → α} {j : Json} {id : α}
    (h : (Uuid.ofJson j).map mk = some id) :
    Accepts components serdeReading (.string .any) j := by
  cases j with
  | str s => exact accepts_str.mpr rfl
  | _ => cases h

omit [UuidCrate] in
theorem describes_readU64 {j : Json} {n : UInt64} (h : Json.readU64 j = some n) :
    Accepts components serdeReading (.integer none) j := by
  cases j with
  | uint n => exact accepts_uint.mpr fun m hm => by cases hm
  | _ => cases h

/-- What is read as a request is described as one. -/
theorem CreateFileRequest.describes {j : Json} {req : CreateFileRequest}
    (h : CreateFileRequest.ofJson j = some req) :
    Describes serdeReading .createFileRequest j := by
  obtain ⟨fields, hfields, h⟩ := Option.bind_eq_some_iff.mp h
  obtain ⟨parentId, hparent, h⟩ := Option.bind_eq_some_iff.mp h
  obtain ⟨name, hname, h⟩ := Option.bind_eq_some_iff.mp h
  obtain ⟨key, hkey, _⟩ := Option.bind_eq_some_iff.mp h
  obtain ⟨hin₁, hparent⟩ := accepts_required hparent fun j => describes_uuid
  obtain ⟨hin₂, hname⟩ := accepts_required hname fun j => describes_readString
  obtain ⟨hin₃, hkey⟩ := accepts_required hkey fun j => describes_readString
  rw [Describes, accepts_ref, components]
  apply accepts_structFields rfl hfields (by decide) fun _ => rfl
  · simp only [List.forall_mem_cons]
    exact ⟨hin₁, hin₂, hin₃, fun _ h => by cases h⟩
  · simp only [List.forall_mem_cons]
    exact ⟨hparent, hname, hkey, fun _ h => by cases h⟩

theorem CreateVersionRequest.describes {j : Json} {req : CreateVersionRequest}
    (h : CreateVersionRequest.ofJson j = some req) :
    Describes serdeReading .createVersionRequest j := by
  obtain ⟨fields, hfields, h⟩ := Option.bind_eq_some_iff.mp h
  obtain ⟨versionId, hversion, h⟩ := Option.bind_eq_some_iff.mp h
  obtain ⟨parent, hparent, h⟩ := Option.bind_eq_some_iff.mp h
  obtain ⟨manifestId, hmanifest, _⟩ := Option.bind_eq_some_iff.mp h
  obtain ⟨hin₁, hversion⟩ := accepts_required hversion fun j => describes_uuid
  obtain ⟨hin₂, hmanifest⟩ := accepts_required hmanifest fun j => describes_uuid
  have hparent := accepts_optional rfl hparent fun j a => describes_uuid
  rw [Describes, accepts_ref, components]
  apply accepts_structFields rfl hfields (by decide) fun _ => rfl
  · simp only [List.forall_mem_cons]
    exact ⟨hin₁, hin₂, fun _ h => by cases h⟩
  · simp only [List.forall_mem_cons]
    exact ⟨hversion, hparent, hmanifest, fun _ h => by cases h⟩

omit [UuidCrate] in
theorem Chunk.describes_ofJson {j : Json} {c : Chunk} (h : Chunk.ofJson j = some c)
    (hwf : c.chunkId.WellFormed) : Describes serdeReading .chunk j := by
  obtain ⟨fields, hfields, h⟩ := Option.bind_eq_some_iff.mp h
  obtain ⟨id, hid, h⟩ := Option.bind_eq_some_iff.mp h
  obtain ⟨size, hsize, h⟩ := Option.bind_eq_some_iff.mp h
  cases h
  have hpattern : ∀ j, ChunkId.ofJson j = some id →
      Accepts components serdeReading (.string (.pattern chunkIdPattern)) j := by
    intro j hj
    cases j with
    | str s =>
      cases hj
      exact accepts_str.mpr (chunkIdPattern_test.mpr hwf)
    | _ => cases hj
  obtain ⟨hin₁, hid⟩ := accepts_required hid hpattern
  obtain ⟨hin₂, hsize⟩ := accepts_required hsize fun j => describes_readU64
  rw [Describes, accepts_ref, components]
  apply accepts_structFields rfl hfields (by decide) fun h => by cases h
  · simp only [List.forall_mem_cons]
    exact ⟨hin₁, hin₂, fun _ h => by cases h⟩
  · simp only [List.forall_mem_cons]
    exact ⟨hid, hsize, fun _ h => by cases h⟩

omit [UuidCrate] in
theorem ManifestEntry.describes_ofJson {j : Json} {e : ManifestEntry}
    (h : ManifestEntry.ofJson j = some e) : Describes serdeReading .manifestEntry j := by
  obtain ⟨fields, hfields, h⟩ := Option.bind_eq_some_iff.mp h
  obtain ⟨offset, hoffset, h⟩ := Option.bind_eq_some_iff.mp h
  obtain ⟨length, hlength, h⟩ := Option.bind_eq_some_iff.mp h
  obtain ⟨id, hid, h⟩ := Option.bind_eq_some_iff.mp h
  obtain ⟨chunkOffset, hchunkOffset, _⟩ := Option.bind_eq_some_iff.mp h
  have hstring : ∀ j, ChunkId.ofJson j = some id →
      Accepts components serdeReading (.string .any) j := by
    intro j hj
    obtain ⟨s, hs, _⟩ := Option.map_eq_some_iff.mp hj
    exact describes_readString hs
  obtain ⟨hin₁, hoffset⟩ := accepts_required hoffset fun j => describes_readU64
  obtain ⟨hin₂, hlength⟩ := accepts_required hlength fun j => describes_readU64
  obtain ⟨hin₃, hid⟩ := accepts_required hid hstring
  obtain ⟨hin₄, hchunkOffset⟩ := accepts_required hchunkOffset fun j => describes_readU64
  rw [Describes, accepts_ref, components]
  apply accepts_structFields rfl hfields (by decide) fun h => by cases h
  · simp only [List.forall_mem_cons]
    exact ⟨hin₁, hin₂, hin₃, hin₄, fun _ h => by cases h⟩
  · simp only [List.forall_mem_cons]
    exact ⟨hoffset, hlength, hid, hchunkOffset, fun _ h => by cases h⟩

theorem Manifest.describes_ofJson {j : Json} {m : Manifest} (h : Manifest.ofJson j = some m)
    (hm : m.IdsFormed) : Describes serdeReading .manifest j := by
  obtain ⟨fields, hfields, h⟩ := Option.bind_eq_some_iff.mp h
  obtain ⟨id, hid, h⟩ := Option.bind_eq_some_iff.mp h
  obtain ⟨total, htotal, h⟩ := Option.bind_eq_some_iff.mp h
  obtain ⟨count, hcount, h⟩ := Option.bind_eq_some_iff.mp h
  obtain ⟨entries, hentries, h⟩ := Option.bind_eq_some_iff.mp h
  obtain ⟨chunks, hchunks, h⟩ := Option.bind_eq_some_iff.mp h
  cases h
  obtain ⟨hin₁, hid⟩ := accepts_required hid fun j => describes_uuid
  obtain ⟨hin₂, htotal⟩ := accepts_required htotal fun j => describes_readU64
  obtain ⟨hin₃, hcount⟩ := accepts_required hcount fun j => describes_readU64
  obtain ⟨hin₄, hentries⟩ := accepts_required hentries fun j hj =>
    accepts_readList hj (fun _ _ => trivial) fun x e hx _ => ManifestEntry.describes_ofJson hx
  obtain ⟨hin₅, hchunks⟩ := accepts_required hchunks fun j hj =>
    accepts_readList hj hm fun x c => Chunk.describes_ofJson
  rw [Describes, accepts_ref, components]
  apply accepts_structFields rfl hfields (by decide) fun h => by cases h
  · simp only [List.forall_mem_cons]
    exact ⟨hin₁, hin₂, hin₃, hin₄, hin₅, fun _ h => by cases h⟩
  · simp only [List.forall_mem_cons]
    exact ⟨hid, htotal, hcount, hentries, hchunks, fun _ h => by cases h⟩

theorem PutManifestRequest.describes {j : Json} {req : PutManifestRequest}
    (h : PutManifestRequest.ofJson j = some req) (hm : req.manifest.IdsFormed) :
    Describes serdeReading .putManifestRequest j := by
  obtain ⟨fields, hfields, h⟩ := Option.bind_eq_some_iff.mp h
  obtain ⟨manifest, hmanifest, h⟩ := Option.bind_eq_some_iff.mp h
  cases h
  obtain ⟨hin, hmanifest⟩ := accepts_required hmanifest fun j hj =>
    Manifest.describes_ofJson hj hm
  rw [Describes, accepts_ref, components]
  apply accepts_structFields rfl hfields (by decide) fun _ => rfl
  · simp only [List.forall_mem_cons]
    exact ⟨hin, fun _ h => by cases h⟩
  · simp only [List.forall_mem_cons]
    exact ⟨hmanifest, fun _ h => by cases h⟩

end read

end Space
