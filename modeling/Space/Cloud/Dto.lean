import Space.Cloud.Api
import Space.Contracts.Uuid
import Space.Data.Json

/-! # Requests and responses on the wire

    `contracts::api` and the types it is made of, as their derived
    `Serialize` and `Deserialize` write and read them. Only the four request
    types deny unknown fields; the model types do not.

    `serde_json` enters through `SerdeJson`, which takes texts to documents
    and back, and `chrono` through `Chrono`. -/

namespace Space

open Rust Outcome Data

/-! ## Section 1: The crates -/

/-- The depth down to which `serde_json` reads. -/
def recursionLimit : Nat := 127

/-- The `serde_json` crate, up to the document that a text denotes. -/
class SerdeJson where
  /-- `to_vec` -/
  toVec : Json → List UInt8
  /-- `from_slice` -/
  fromSlice : List UInt8 → Option Json
  /-- The text of the error of `from_slice`. -/
  error : List UInt8 → String

/-- What `serde_json` writes, it reads, and an empty text is no document. -/
structure SerdeJson.Lawful [SerdeJson] : Prop where
  fromSlice_toVec : ∀ j : Json, j.within recursionLimit = true →
    SerdeJson.fromSlice (SerdeJson.toVec j) = some j
  fromSlice_nil : SerdeJson.fromSlice [] = none

/-- The `chrono` crate: a time as text. -/
class Chrono where
  display : DateTime → String
  parse : String → Option DateTime

structure Chrono.Lawful [Chrono] : Prop where
  parse_display : ∀ t, Chrono.parse (Chrono.display t) = some t

/-! ## Section 2: Names of variants -/

/-- `rename_all = "SCREAMING_SNAKE_CASE"`. -/
def ErrorCode.name : ErrorCode → String
  | .configMissing => "CONFIG_MISSING"
  | .configInvalid => "CONFIG_INVALID"
  | .configUnsupportedVersion => "CONFIG_UNSUPPORTED_VERSION"
  | .fileNotFound => "FILE_NOT_FOUND"
  | .fileExists => "FILE_EXISTS"
  | .directoryNotEmpty => "DIRECTORY_NOT_EMPTY"
  | .versionNotFound => "VERSION_NOT_FOUND"
  | .manifestNotFound => "MANIFEST_NOT_FOUND"
  | .chunkNotFound => "CHUNK_NOT_FOUND"
  | .invalidParameter => "INVALID_PARAMETER"
  | .invalidHandle => "INVALID_HANDLE"
  | .integrityHashMismatch => "INTEGRITY_HASH_MISMATCH"
  | .integrityLengthMismatch => "INTEGRITY_LENGTH_MISMATCH"
  | .integrityManifestInvalid => "INTEGRITY_MANIFEST_INVALID"
  | .integrityChunkIdConflict => "INTEGRITY_CHUNK_ID_CONFLICT"
  | .networkTimeout => "NETWORK_TIMEOUT"
  | .networkUnavailable => "NETWORK_UNAVAILABLE"
  | .protocolViolation => "PROTOCOL_VIOLATION"
  | .storageError => "STORAGE_ERROR"
  | .diskFull => "DISK_FULL"
  | .resourceExhausted => "RESOURCE_EXHAUSTED"
  | .cancelled => "CANCELLED"
  | .sharingViolation => "SHARING_VIOLATION"
  | .authFailed => "AUTH_FAILED"
  | .permissionDenied => "PERMISSION_DENIED"
  | .internalError => "INTERNAL_ERROR"

/-- `ErrorCode::ALL`. -/
def ErrorCode.all : List ErrorCode :=
  [.configMissing, .configInvalid, .configUnsupportedVersion, .fileNotFound, .fileExists,
    .directoryNotEmpty, .versionNotFound, .manifestNotFound, .chunkNotFound, .invalidParameter,
    .invalidHandle, .integrityHashMismatch, .integrityLengthMismatch, .integrityManifestInvalid,
    .integrityChunkIdConflict, .networkTimeout, .networkUnavailable, .protocolViolation,
    .storageError, .diskFull, .resourceExhausted, .cancelled, .sharingViolation, .authFailed,
    .permissionDenied, .internalError]

def ErrorCode.toJson (code : ErrorCode) : Json := .str code.name

def ErrorCode.ofJson : Json → Option ErrorCode :=
  Json.readVariant (ErrorCode.all.map fun code => (code.name, code))

@[simp] theorem ErrorCode.ofJson_toJson (code : ErrorCode) : ofJson code.toJson = some code := by
  cases code <;> decide

def VersionState.toJson : VersionState → Json
  | .candidate => .str "CANDIDATE"
  | .committed => .str "COMMITTED"

def VersionState.ofJson : Json → Option VersionState :=
  Json.readVariant [("CANDIDATE", .candidate), ("COMMITTED", .committed)]

@[simp] theorem VersionState.ofJson_toJson (state : VersionState) :
    ofJson state.toJson = some state := by
  cases state <;> decide

section dto

variable [UuidCrate]

/-! ## Section 3: Ids

    In a document an identity is its bare UUID and a chunk id is its text.
    Neither is parsed any further. -/

def Uuid.toJson (u : Uuid) : Json := .str (UuidCrate.display u)

def Uuid.ofJson : Json → Option Uuid
  | .str s => UuidCrate.parseStr s
  | _ => none

def FileId.toJson (id : FileId) : Json := id.uuid.toJson

def FileId.ofJson (j : Json) : Option FileId := (Uuid.ofJson j).map FileId.mk

def DirectoryId.toJson (id : DirectoryId) : Json := id.uuid.toJson

def DirectoryId.ofJson (j : Json) : Option DirectoryId := (Uuid.ofJson j).map DirectoryId.mk

def VersionId.toJson (id : VersionId) : Json := id.uuid.toJson

def VersionId.ofJson (j : Json) : Option VersionId := (Uuid.ofJson j).map VersionId.mk

def ManifestId.toJson (id : ManifestId) : Json := id.uuid.toJson

def ManifestId.ofJson (j : Json) : Option ManifestId := (Uuid.ofJson j).map ManifestId.mk

def OperationId.toJson (id : OperationId) : Json := id.uuid.toJson

def OperationId.ofJson (j : Json) : Option OperationId := (Uuid.ofJson j).map OperationId.mk

def RequestId.toJson (id : RequestId) : Json := id.uuid.toJson

def RequestId.ofJson (j : Json) : Option RequestId := (Uuid.ofJson j).map RequestId.mk

def ChunkId.toJson (id : ChunkId) : Json := .str id.str

def ChunkId.ofJson (j : Json) : Option ChunkId := (Json.readString j).map ChunkId.mk

/-! ## Section 4: The model types -/

def Chunk.toJson (c : Chunk) : Json :=
  .obj [("chunk_id", c.chunkId.toJson), ("size", .uint c.size)]

def Chunk.ofJson (j : Json) : Option Chunk := do
  let fields ← j.structFields false ["chunk_id", "size"]
  let chunkId ← Json.required ChunkId.ofJson "chunk_id" fields
  let size ← Json.required Json.readU64 "size" fields
  return ⟨chunkId, size⟩

def ManifestEntry.toJson (e : ManifestEntry) : Json :=
  .obj [("logical_offset", .uint e.logicalOffset), ("length", .uint e.length),
    ("chunk_id", e.chunkId.toJson), ("chunk_offset", .uint e.chunkOffset)]

def ManifestEntry.ofJson (j : Json) : Option ManifestEntry := do
  let fields ← j.structFields false ["logical_offset", "length", "chunk_id", "chunk_offset"]
  let logicalOffset ← Json.required Json.readU64 "logical_offset" fields
  let length ← Json.required Json.readU64 "length" fields
  let chunkId ← Json.required ChunkId.ofJson "chunk_id" fields
  let chunkOffset ← Json.required Json.readU64 "chunk_offset" fields
  return ⟨logicalOffset, length, chunkId, chunkOffset⟩

def Manifest.toJson (m : Manifest) : Json :=
  .obj [("manifest_id", m.manifestId.toJson), ("total_size", .uint m.totalSize),
    ("chunk_count", .uint m.chunkCount), ("entries", .arr (m.entries.map ManifestEntry.toJson)),
    ("chunks", .arr (m.chunks.map Chunk.toJson))]

def Manifest.ofJson (j : Json) : Option Manifest := do
  let fields ← j.structFields false
    ["manifest_id", "total_size", "chunk_count", "entries", "chunks"]
  let manifestId ← Json.required ManifestId.ofJson "manifest_id" fields
  let totalSize ← Json.required Json.readU64 "total_size" fields
  let chunkCount ← Json.required Json.readU64 "chunk_count" fields
  let entries ← Json.required (Json.readList ManifestEntry.ofJson) "entries" fields
  let chunks ← Json.required (Json.readList Chunk.ofJson) "chunks" fields
  return ⟨manifestId, totalSize, chunkCount, entries, chunks⟩

section times

variable [Chrono]

def DateTime.toJson (t : DateTime) : Json := .str (Chrono.display t)

def DateTime.ofJson : Json → Option DateTime
  | .str s => Chrono.parse s
  | _ => none

def File.toJson (f : File) : Json :=
  .obj [("file_id", f.fileId.toJson), ("parent_id", f.parentId.toJson), ("name", .str f.name),
    ("current_version_id", Json.ofOption VersionId.toJson f.currentVersionId),
    ("created_at", f.createdAt.toJson), ("modified_at", f.modifiedAt.toJson)]

def File.ofJson (j : Json) : Option File := do
  let fields ← j.structFields false
    ["file_id", "parent_id", "name", "current_version_id", "created_at", "modified_at"]
  let fileId ← Json.required FileId.ofJson "file_id" fields
  let parentId ← Json.required DirectoryId.ofJson "parent_id" fields
  let name ← Json.required Json.readString "name" fields
  let currentVersionId ← Json.optional VersionId.ofJson "current_version_id" fields
  let createdAt ← Json.required DateTime.ofJson "created_at" fields
  let modifiedAt ← Json.required DateTime.ofJson "modified_at" fields
  return ⟨fileId, parentId, name, currentVersionId, createdAt, modifiedAt⟩

def Version.toJson (v : Version) : Json :=
  .obj [("version_id", v.versionId.toJson), ("file_id", v.fileId.toJson),
    ("parent_version_id", Json.ofOption VersionId.toJson v.parentVersionId),
    ("manifest_id", v.manifestId.toJson), ("state", v.state.toJson),
    ("created_at", v.createdAt.toJson)]

def Version.ofJson (j : Json) : Option Version := do
  let fields ← j.structFields false
    ["version_id", "file_id", "parent_version_id", "manifest_id", "state", "created_at"]
  let versionId ← Json.required VersionId.ofJson "version_id" fields
  let fileId ← Json.required FileId.ofJson "file_id" fields
  let parentVersionId ← Json.optional VersionId.ofJson "parent_version_id" fields
  let manifestId ← Json.required ManifestId.ofJson "manifest_id" fields
  let state ← Json.required VersionState.ofJson "state" fields
  let createdAt ← Json.required DateTime.ofJson "created_at" fields
  return ⟨versionId, fileId, parentVersionId, manifestId, state, createdAt⟩

end times

/-! ## Section 5: Requests -/

def CreateFileRequest.toJson (r : CreateFileRequest) : Json :=
  .obj [("parent_id", r.parentId.toJson), ("name", .str r.name),
    ("idempotency_key", .str r.idempotencyKey)]

def CreateFileRequest.ofJson (j : Json) : Option CreateFileRequest := do
  let fields ← j.structFields true ["parent_id", "name", "idempotency_key"]
  let parentId ← Json.required DirectoryId.ofJson "parent_id" fields
  let name ← Json.required Json.readString "name" fields
  let idempotencyKey ← Json.required Json.readString "idempotency_key" fields
  return ⟨parentId, name, idempotencyKey⟩

def CreateVersionRequest.toJson (r : CreateVersionRequest) : Json :=
  .obj [("version_id", r.versionId.toJson),
    ("parent_version_id", Json.ofOption VersionId.toJson r.parentVersionId),
    ("manifest_id", r.manifestId.toJson)]

def CreateVersionRequest.ofJson (j : Json) : Option CreateVersionRequest := do
  let fields ← j.structFields true ["version_id", "parent_version_id", "manifest_id"]
  let versionId ← Json.required VersionId.ofJson "version_id" fields
  let parentVersionId ← Json.optional VersionId.ofJson "parent_version_id" fields
  let manifestId ← Json.required ManifestId.ofJson "manifest_id" fields
  return ⟨versionId, parentVersionId, manifestId⟩

/-- The request without fields. No handler reads it. -/
structure CommitVersionRequest where
  deriving DecidableEq, Repr

def CommitVersionRequest.ofJson (j : Json) : Option CommitVersionRequest := do
  let _ ← j.structFields true []
  return {}

def PutManifestRequest.toJson (r : PutManifestRequest) : Json :=
  .obj [("manifest", r.manifest.toJson)]

def PutManifestRequest.ofJson (j : Json) : Option PutManifestRequest := do
  let fields ← j.structFields true ["manifest"]
  let manifest ← Json.required Manifest.ofJson "manifest" fields
  return ⟨manifest⟩

/-! ## Section 6: Responses -/

/-- What the `response!` types write: the contract version and one field. -/
def responseToJson (field : String) (version : UInt32) (value : Json) : Json :=
  .obj [("contract_version", .uint version.toUInt64), (field, value)]

/-- What they read: the version has a default. -/
def responseOfJson {α : Type} (field : String) (read : Json → Option α) (j : Json) :
    Option (UInt32 × α) := do
  let fields ← j.structFields false ["contract_version", field]
  let version ← Json.defaulted Json.readU32 contractVersion "contract_version" fields
  let value ← Json.required read field fields
  return (version, value)

def FileResponse.toJson [Chrono] (r : FileResponse) : Json :=
  responseToJson "file" r.contractVersion r.file.toJson

def FileResponse.ofJson [Chrono] (j : Json) : Option FileResponse :=
  (responseOfJson "file" File.ofJson j).map fun p => ⟨p.1, p.2⟩

def ListChildrenResponse.toJson [Chrono] (r : ListChildrenResponse) : Json :=
  responseToJson "files" r.contractVersion (.arr (r.files.map File.toJson))

def ListChildrenResponse.ofJson [Chrono] (j : Json) : Option ListChildrenResponse :=
  (responseOfJson "files" (Json.readList File.ofJson) j).map fun p => ⟨p.1, p.2⟩

def VersionResponse.toJson [Chrono] (r : VersionResponse) : Json :=
  responseToJson "version" r.contractVersion r.version.toJson

def VersionResponse.ofJson [Chrono] (j : Json) : Option VersionResponse :=
  (responseOfJson "version" Version.ofJson j).map fun p => ⟨p.1, p.2⟩

def ManifestResponse.toJson (r : ManifestResponse) : Json :=
  responseToJson "manifest" r.contractVersion r.manifest.toJson

def ManifestResponse.ofJson (j : Json) : Option ManifestResponse :=
  (responseOfJson "manifest" Manifest.ofJson j).map fun p => ⟨p.1, p.2⟩

def ChunkResponse.toJson (r : ChunkResponse) : Json :=
  responseToJson "chunk" r.contractVersion r.chunk.toJson

def ChunkResponse.ofJson (j : Json) : Option ChunkResponse :=
  (responseOfJson "chunk" Chunk.ofJson j).map fun p => ⟨p.1, p.2⟩

/-- A field that is left out when there is no value. -/
def skipNone {α : Type} (name : String) (write : α → Json) : Option α → List (String × Json)
  | none => []
  | some a => [(name, write a)]

def SpaceError.toJson : SpaceError → Json
  | .mk code message operationId requestId source =>
    .obj ([("code", code.toJson), ("message", .str message)] ++
      skipNone "operation_id" OperationId.toJson operationId ++
      skipNone "request_id" RequestId.toJson requestId ++
      match source with
      | none => []
      | some e => [("source", e.toJson)])

/-- An error whose chain of causes is shorter than `n`. -/
def SpaceError.ofJsonWithin : Nat → Json → Option SpaceError
  | 0, _ => none
  | n + 1, j => do
    let fields ← j.structFields false ["code", "message", "operation_id", "request_id", "source"]
    let code ← Json.required ErrorCode.ofJson "code" fields
    let message ← Json.required Json.readString "message" fields
    let operationId ← Json.optional OperationId.ofJson "operation_id" fields
    let requestId ← Json.optional RequestId.ofJson "request_id" fields
    let source ← Json.optional (SpaceError.ofJsonWithin n) "source" fields
    return .mk code message operationId requestId source

/-- Every cause is one level deeper in the document. -/
def SpaceError.ofJson : Json → Option SpaceError := SpaceError.ofJsonWithin recursionLimit

/-- The body of an error response. -/
structure ErrorResponse where
  contractVersion : UInt32
  error : SpaceError

/-- `From<SpaceError> for ErrorResponse`. -/
def ErrorResponse.from (error : SpaceError) : ErrorResponse := ⟨Space.contractVersion, error⟩

def ErrorResponse.toJson (r : ErrorResponse) : Json :=
  responseToJson "error" r.contractVersion r.error.toJson

def ErrorResponse.ofJson (j : Json) : Option ErrorResponse :=
  (responseOfJson "error" SpaceError.ofJson j).map fun p => ⟨p.1, p.2⟩

structure HealthResponse where
  status : String
  service : String
  version : String
  contractVersion : UInt32

/-- `HealthResponse::ok`. -/
def HealthResponse.ok : HealthResponse := ⟨"ok", "space-cloud", "0.0.1", Space.contractVersion⟩

def HealthResponse.toJson (r : HealthResponse) : Json :=
  .obj [("status", .str r.status), ("service", .str r.service), ("version", .str r.version),
    ("contract_version", .uint r.contractVersion.toUInt64)]

/-! ## Section 7: What is written is read back -/

theorem Uuid.ofJson_toJson (h : UuidCrate.Lawful) (u : Uuid) : Uuid.ofJson u.toJson = some u := by
  show UuidCrate.parseStr (UuidCrate.display u) = some u
  rw [h.display, h.parse]

theorem FileId.ofJson_toJson (h : UuidCrate.Lawful) (id : FileId) :
    FileId.ofJson id.toJson = some id := by
  rw [FileId.ofJson, FileId.toJson, Uuid.ofJson_toJson h]
  rfl

theorem DirectoryId.ofJson_toJson (h : UuidCrate.Lawful) (id : DirectoryId) :
    DirectoryId.ofJson id.toJson = some id := by
  rw [DirectoryId.ofJson, DirectoryId.toJson, Uuid.ofJson_toJson h]
  rfl

theorem VersionId.ofJson_toJson (h : UuidCrate.Lawful) (id : VersionId) :
    VersionId.ofJson id.toJson = some id := by
  rw [VersionId.ofJson, VersionId.toJson, Uuid.ofJson_toJson h]
  rfl

theorem ManifestId.ofJson_toJson (h : UuidCrate.Lawful) (id : ManifestId) :
    ManifestId.ofJson id.toJson = some id := by
  rw [ManifestId.ofJson, ManifestId.toJson, Uuid.ofJson_toJson h]
  rfl

theorem OperationId.ofJson_toJson (h : UuidCrate.Lawful) (id : OperationId) :
    OperationId.ofJson id.toJson = some id := by
  rw [OperationId.ofJson, OperationId.toJson, Uuid.ofJson_toJson h]
  rfl

theorem RequestId.ofJson_toJson (h : UuidCrate.Lawful) (id : RequestId) :
    RequestId.ofJson id.toJson = some id := by
  rw [RequestId.ofJson, RequestId.toJson, Uuid.ofJson_toJson h]
  rfl

omit [UuidCrate] in
theorem ChunkId.ofJson_toJson (id : ChunkId) : ChunkId.ofJson id.toJson = some id := rfl

omit [UuidCrate] in
theorem Chunk.ofJson_toJson (c : Chunk) : Chunk.ofJson c.toJson = some c := by
  simp [Chunk.ofJson, Chunk.toJson, Json.structFields, Json.required, ChunkId.ofJson_toJson,
    Json.readU64, List.lookup_cons]

omit [UuidCrate] in
theorem ManifestEntry.ofJson_toJson (e : ManifestEntry) :
    ManifestEntry.ofJson e.toJson = some e := by
  simp [ManifestEntry.ofJson, ManifestEntry.toJson, Json.structFields, Json.required,
    ChunkId.ofJson_toJson, Json.readU64, List.lookup_cons]

theorem Manifest.ofJson_toJson (h : UuidCrate.Lawful) (m : Manifest) :
    Manifest.ofJson m.toJson = some m := by
  have hentries := Json.readList_map ManifestEntry.ofJson_toJson m.entries
  have hchunks := Json.readList_map Chunk.ofJson_toJson m.chunks
  simp [Manifest.ofJson, Manifest.toJson, Json.structFields, Json.required, Json.readU64,
    List.lookup_cons, ManifestId.ofJson_toJson h, hentries, hchunks]

theorem VersionId.optional_ofOption (h : UuidCrate.Lawful) {name : String}
    {fields : List (String × Json)} {o : Option VersionId}
    (hl : fields.lookup name = some (Json.ofOption VersionId.toJson o)) :
    Json.optional VersionId.ofJson name fields = some o :=
  Json.optional_ofOption (VersionId.ofJson_toJson h) (fun _ hnull => by cases hnull) hl

theorem CreateFileRequest.ofJson_toJson (h : UuidCrate.Lawful) (r : CreateFileRequest) :
    CreateFileRequest.ofJson r.toJson = some r := by
  simp [CreateFileRequest.ofJson, CreateFileRequest.toJson, Json.structFields, Json.required,
    Json.readString, List.lookup_cons, DirectoryId.ofJson_toJson h]

theorem CreateVersionRequest.ofJson_toJson (h : UuidCrate.Lawful) (r : CreateVersionRequest) :
    CreateVersionRequest.ofJson r.toJson = some r := by
  have hparent : Json.optional VersionId.ofJson "parent_version_id"
      [("version_id", r.versionId.toJson),
        ("parent_version_id", Json.ofOption VersionId.toJson r.parentVersionId),
        ("manifest_id", r.manifestId.toJson)] = some r.parentVersionId :=
    VersionId.optional_ofOption h rfl
  simp [CreateVersionRequest.ofJson, CreateVersionRequest.toJson, Json.structFields,
    Json.required, List.lookup_cons, VersionId.ofJson_toJson h, ManifestId.ofJson_toJson h,
    hparent]

theorem PutManifestRequest.ofJson_toJson (h : UuidCrate.Lawful) (r : PutManifestRequest) :
    PutManifestRequest.ofJson r.toJson = some r := by
  simp [PutManifestRequest.ofJson, PutManifestRequest.toJson, Json.structFields, Json.required,
    Manifest.ofJson_toJson h]

section times

variable [Chrono]

omit [UuidCrate] in
theorem DateTime.ofJson_toJson (h : Chrono.Lawful) (t : DateTime) :
    DateTime.ofJson t.toJson = some t := h.parse_display t

theorem File.ofJson_toJson (h : UuidCrate.Lawful) (hc : Chrono.Lawful) (f : File) :
    File.ofJson f.toJson = some f := by
  have hcurrent : Json.optional VersionId.ofJson "current_version_id"
      [("file_id", f.fileId.toJson), ("parent_id", f.parentId.toJson), ("name", .str f.name),
        ("current_version_id", Json.ofOption VersionId.toJson f.currentVersionId),
        ("created_at", f.createdAt.toJson), ("modified_at", f.modifiedAt.toJson)] =
      some f.currentVersionId :=
    VersionId.optional_ofOption h rfl
  simp [File.ofJson, File.toJson, Json.structFields, Json.required, Json.readString,
    List.lookup_cons, FileId.ofJson_toJson h, DirectoryId.ofJson_toJson h,
    DateTime.ofJson_toJson hc, hcurrent]

theorem Version.ofJson_toJson (h : UuidCrate.Lawful) (hc : Chrono.Lawful) (v : Version) :
    Version.ofJson v.toJson = some v := by
  have hparent : Json.optional VersionId.ofJson "parent_version_id"
      [("version_id", v.versionId.toJson), ("file_id", v.fileId.toJson),
        ("parent_version_id", Json.ofOption VersionId.toJson v.parentVersionId),
        ("manifest_id", v.manifestId.toJson), ("state", v.state.toJson),
        ("created_at", v.createdAt.toJson)] = some v.parentVersionId :=
    VersionId.optional_ofOption h rfl
  simp [Version.ofJson, Version.toJson, Json.structFields, Json.required, List.lookup_cons,
    FileId.ofJson_toJson h, VersionId.ofJson_toJson h, ManifestId.ofJson_toJson h,
    DateTime.ofJson_toJson hc, hparent]

end times

omit [UuidCrate] in
theorem responseOfJson_toJson {α : Type} {field : String} {read : Json → Option α} {value : Json}
    {a : α} (hfield : field ≠ "contract_version") (version : UInt32) (h : read value = some a) :
    responseOfJson field read (responseToJson field version value) = some (version, a) := by
  have hne : "contract_version" ≠ field := Ne.symm hfield
  have hbeq : (field == "contract_version") = false := by simpa using hfield
  simp [responseOfJson, responseToJson, Json.structFields, Json.required, Json.defaulted,
    List.lookup_cons, hfield, hne, hbeq, h]

theorem FileResponse.ofJson_toJson [Chrono] (h : UuidCrate.Lawful) (hc : Chrono.Lawful)
    (r : FileResponse) : FileResponse.ofJson r.toJson = some r := by
  rw [FileResponse.ofJson, FileResponse.toJson,
    responseOfJson_toJson (by decide) _ (File.ofJson_toJson h hc r.file)]
  rfl

theorem ListChildrenResponse.ofJson_toJson [Chrono] (h : UuidCrate.Lawful) (hc : Chrono.Lawful)
    (r : ListChildrenResponse) : ListChildrenResponse.ofJson r.toJson = some r := by
  rw [ListChildrenResponse.ofJson, ListChildrenResponse.toJson, responseOfJson_toJson (by decide) _
    (Json.readList_map (File.ofJson_toJson h hc) r.files)]
  rfl

theorem VersionResponse.ofJson_toJson [Chrono] (h : UuidCrate.Lawful) (hc : Chrono.Lawful)
    (r : VersionResponse) : VersionResponse.ofJson r.toJson = some r := by
  rw [VersionResponse.ofJson, VersionResponse.toJson,
    responseOfJson_toJson (by decide) _ (Version.ofJson_toJson h hc r.version)]
  rfl

theorem ManifestResponse.ofJson_toJson (h : UuidCrate.Lawful) (r : ManifestResponse) :
    ManifestResponse.ofJson r.toJson = some r := by
  rw [ManifestResponse.ofJson, ManifestResponse.toJson,
    responseOfJson_toJson (by decide) _ (Manifest.ofJson_toJson h r.manifest)]
  rfl

omit [UuidCrate] in
theorem ChunkResponse.ofJson_toJson (r : ChunkResponse) :
    ChunkResponse.ofJson r.toJson = some r := by
  rw [ChunkResponse.ofJson, ChunkResponse.toJson,
    responseOfJson_toJson (by decide) _ (Chunk.ofJson_toJson r.chunk)]
  rfl

theorem SpaceError.toJson_ne_null (e : SpaceError) : e.toJson ≠ .null := by
  cases e with
  | mk code message operationId requestId source =>
    cases source <;> exact fun h => by cases h

/-- A cause is one level deeper than the error. -/
theorem SpaceError.within_source {n : Nat} {code : ErrorCode} {message : String}
    {operationId : Option OperationId} {requestId : Option RequestId} {cause : SpaceError}
    (h : (SpaceError.mk code message operationId requestId (some cause)).toJson.within (n + 1) =
      true) : cause.toJson.within n = true := by
  have hmem : ("source", cause.toJson) ∈ [("code", code.toJson), ("message", .str message)] ++
      skipNone "operation_id" OperationId.toJson operationId ++
      skipNone "request_id" RequestId.toJson requestId ++ [("source", cause.toJson)] := by
    simp
  rw [SpaceError.toJson, Json.within, Json.withinFields_eq, Bool.and_eq_true] at h
  exact List.all_eq_true.mp h.2 _ hmem

/-- **An error is read back** with its ids and its whole chain of causes, as
    far as the document is not too deep. -/
theorem SpaceError.ofJson_toJson_within (h : UuidCrate.Lawful) {n : Nat} {e : SpaceError}
    (he : e.toJson.within n = true) : SpaceError.ofJsonWithin n e.toJson = some e := by
  induction n generalizing e with
  | zero =>
    cases e with
    | mk code message operationId requestId source =>
      cases source <;> simp [SpaceError.toJson, Json.within] at he
  | succ n ih =>
    cases e with
    | mk code message operationId requestId source =>
      obtain ⟨fields, htoJson⟩ : ∃ fields,
          (SpaceError.mk code message operationId requestId source).toJson = .obj fields := by
        cases source <;> exact ⟨_, rfl⟩
      have hfields : Json.structFields false
          ["code", "message", "operation_id", "request_id", "source"] (.obj fields) =
            some fields := by
        cases operationId <;> cases requestId <;> cases source <;> cases htoJson <;> rfl
      have hcode : fields.lookup "code" = some code.toJson := by
        cases source <;> cases htoJson <;> rfl
      have hmessage : fields.lookup "message" = some (.str message) := by
        cases source <;> cases htoJson <;> rfl
      have hop : fields.lookup "operation_id" = operationId.map OperationId.toJson := by
        cases operationId <;> cases requestId <;> cases source <;> cases htoJson <;> rfl
      have hreq : fields.lookup "request_id" = requestId.map RequestId.toJson := by
        cases operationId <;> cases requestId <;> cases source <;> cases htoJson <;> rfl
      have hsource : fields.lookup "source" = source.map SpaceError.toJson := by
        cases operationId <;> cases requestId <;> cases source <;> cases htoJson <;> rfl
      have hcause : ∀ cause ∈ source, SpaceError.ofJsonWithin n cause.toJson = some cause := by
        intro cause hmem
        cases hmem
        exact ih (SpaceError.within_source he)
      have hnull : ∀ u : Uuid, u.toJson ≠ .null := fun u hu => by cases hu
      rw [htoJson, SpaceError.ofJsonWithin, hfields]
      simp only [Option.bind_eq_bind, Option.bind_some, Json.required, hcode, hmessage,
        ErrorCode.ofJson_toJson, Json.readString,
        Json.optional_map (fun a _ => OperationId.ofJson_toJson h a) (fun a => hnull a.uuid) hop,
        Json.optional_map (fun a _ => RequestId.ofJson_toJson h a) (fun a => hnull a.uuid) hreq,
        Json.optional_map hcause SpaceError.toJson_ne_null hsource]
      rfl

theorem SpaceError.ofJson_toJson (h : UuidCrate.Lawful) {e : SpaceError}
    (he : e.toJson.within recursionLimit = true) : SpaceError.ofJson e.toJson = some e :=
  SpaceError.ofJson_toJson_within h he

theorem ErrorResponse.ofJson_toJson (h : UuidCrate.Lawful) {r : ErrorResponse}
    (hr : r.error.toJson.within recursionLimit = true) :
    ErrorResponse.ofJson r.toJson = some r := by
  rw [ErrorResponse.ofJson, ErrorResponse.toJson,
    responseOfJson_toJson (by decide) _ (SpaceError.ofJson_toJson h hr)]
  rfl

/-! ## Section 8: How deep the documents are -/

omit [UuidCrate] in
theorem withinItems_map {α : Type} {n : Nat} {write : α → Json}
    (h : ∀ a, (write a).within n = true) (as : List α) :
    Json.withinItems n (as.map write) = true := by
  rw [Json.withinItems_eq, List.all_map]
  exact List.all_eq_true.mpr fun a _ => h a

omit [UuidCrate] in
theorem within_responseToJson (n : Nat) (field : String) (version : UInt32) (value : Json) :
    (responseToJson field version value).within (n + 1) = value.within n := by
  simp [responseToJson, Json.within, Json.withinFields]

theorem within_ofOption_versionId (n : Nat) (o : Option VersionId) :
    (Json.ofOption VersionId.toJson o).within n = true := by
  cases o <;> rfl

omit [UuidCrate] in
theorem Chunk.within_toJson (n : Nat) (c : Chunk) : c.toJson.within (n + 1) = true := by
  simp [Chunk.toJson, ChunkId.toJson, Json.within, Json.withinFields]

omit [UuidCrate] in
theorem ManifestEntry.within_toJson (n : Nat) (e : ManifestEntry) :
    e.toJson.within (n + 1) = true := by
  simp [ManifestEntry.toJson, ChunkId.toJson, Json.within, Json.withinFields]

theorem Manifest.within_toJson (n : Nat) (m : Manifest) : m.toJson.within (n + 3) = true := by
  simp [Manifest.toJson, ManifestId.toJson, Uuid.toJson, Json.within, Json.withinFields,
    withinItems_map (ManifestEntry.within_toJson n), withinItems_map (Chunk.within_toJson n)]

theorem File.within_toJson [Chrono] (n : Nat) (f : File) : f.toJson.within (n + 1) = true := by
  simp [File.toJson, FileId.toJson, DirectoryId.toJson, Uuid.toJson, DateTime.toJson, Json.within,
    Json.withinFields, within_ofOption_versionId]

theorem Version.within_toJson [Chrono] (n : Nat) (v : Version) :
    v.toJson.within (n + 1) = true := by
  have hstate : v.state.toJson.within n = true := by cases v.state <;> rfl
  simp [Version.toJson, VersionId.toJson, FileId.toJson, ManifestId.toJson, Uuid.toJson,
    DateTime.toJson, Json.within, Json.withinFields, within_ofOption_versionId, hstate]

theorem CreateFileRequest.within_toJson (r : CreateFileRequest) :
    r.toJson.within recursionLimit = true := rfl

theorem CreateVersionRequest.within_toJson (r : CreateVersionRequest) :
    r.toJson.within recursionLimit = true := by
  simp [CreateVersionRequest.toJson, VersionId.toJson, ManifestId.toJson, Uuid.toJson,
    recursionLimit, Json.within, Json.withinFields, within_ofOption_versionId]

theorem PutManifestRequest.within_toJson (r : PutManifestRequest) :
    r.toJson.within recursionLimit = true := by
  simp [PutManifestRequest.toJson, recursionLimit, Json.within, Json.withinFields,
    Manifest.within_toJson 123]

theorem FileResponse.within_toJson [Chrono] (r : FileResponse) :
    r.toJson.within recursionLimit = true := by
  rw [FileResponse.toJson, recursionLimit, within_responseToJson]
  exact r.file.within_toJson 125

theorem ListChildrenResponse.within_toJson [Chrono] (r : ListChildrenResponse) :
    r.toJson.within recursionLimit = true := by
  rw [ListChildrenResponse.toJson, recursionLimit, within_responseToJson]
  exact withinItems_map (File.within_toJson 124) r.files

theorem VersionResponse.within_toJson [Chrono] (r : VersionResponse) :
    r.toJson.within recursionLimit = true := by
  rw [VersionResponse.toJson, recursionLimit, within_responseToJson]
  exact r.version.within_toJson 125

theorem ManifestResponse.within_toJson (r : ManifestResponse) :
    r.toJson.within recursionLimit = true := by
  rw [ManifestResponse.toJson, recursionLimit, within_responseToJson]
  exact r.manifest.within_toJson 123

omit [UuidCrate] in
theorem ChunkResponse.within_toJson (r : ChunkResponse) :
    r.toJson.within recursionLimit = true := by
  rw [ChunkResponse.toJson, recursionLimit, within_responseToJson]
  exact r.chunk.within_toJson 125

theorem SpaceError.within_toJson_new (n : Nat) (code : ErrorCode) (message : String) :
    (SpaceError.new code message).toJson.within (n + 1) = true := by
  simp [SpaceError.new, SpaceError.toJson, ErrorCode.toJson, skipNone, Json.within,
    Json.withinFields]

end dto

end Space
