import Space.Cloud.MetadataInvariant
import Space.ObjectStore

/-! # The cloud API

    `space_cloud_api`: the `axum` handlers over the two stores. A handler
    is a program over the calls of the stores, so that handlers of different
    requests can interleave between any two calls.

    A request is what the router hands to a handler: the path parameters as
    text, the decoded body, and for a chunk read the `Range` header. -/

namespace Space

open Rust Outcome Effects

/-! ## Section 1: The stores -/

/-- `AppState`: the metadata store and the object store. -/
structure AppState where
  metaStore : Inner
  blobs : FakeObjectStore
  deriving DecidableEq

/-- `AppState::default`. -/
def AppState.default : AppState := ⟨Inner.new, FakeObjectStore.new⟩

/-- A call of one of the stores. -/
inductive StoreOp where
  | metadata (op : MetaOp)
  | blobs (op : BlobOp)

namespace StoreOp

abbrev Value : StoreOp → Type
  | metadata op => op.Value
  | blobs op => op.Value

def Fresh (env : Env) (s : AppState) : StoreOp → Prop
  | metadata op => op.Fresh env s.metaStore
  | blobs _ => True

variable [Blake3]

def exec (env : Env) : (op : StoreOp) → AppState → Res op.Value × AppState
  | metadata op, s =>
    ((op.exec env s.metaStore).1, { s with metaStore := (op.exec env s.metaStore).2 })
  | blobs op, s => ((op.exec s.blobs).1, { s with blobs := (op.exec s.blobs).2 })

end StoreOp

/-- The interface of the stores. -/
abbrev StoreI : Interface := ⟨StoreOp, fun op => Res op.Value⟩

/-- One call, with any environment that mints a fresh id. -/
def StoreOp.Step [Blake3] : Sem StoreI AppState := fun op s r s' =>
  ∃ env, op.Fresh env s ∧ op.exec env s = (r, s')

/-! ## Section 2: Requests and responses -/

def contractVersion : UInt32 := 1

structure CreateFileRequest where
  parentId : DirectoryId
  name : String
  idempotencyKey : String
  deriving DecidableEq, Repr

structure CreateVersionRequest where
  versionId : VersionId
  parentVersionId : Option VersionId
  manifestId : ManifestId
  deriving DecidableEq, Repr

structure PutManifestRequest where
  manifest : Manifest
  deriving DecidableEq, Repr

structure FileResponse where
  contractVersion : UInt32
  file : File
  deriving DecidableEq, Repr

structure ListChildrenResponse where
  contractVersion : UInt32
  files : List File
  deriving DecidableEq, Repr

structure VersionResponse where
  contractVersion : UInt32
  version : Version
  deriving DecidableEq, Repr

structure ManifestResponse where
  contractVersion : UInt32
  manifest : Manifest
  deriving DecidableEq, Repr

structure ChunkResponse where
  contractVersion : UInt32
  chunk : Chunk
  deriving DecidableEq, Repr

/-- The value of a header. `to_str` fails when it is not visible ASCII. -/
structure HeaderValue where
  toStr : Option String
  deriving DecidableEq, Repr

/-- A request, as it reaches its handler. -/
inductive Request where
  | createFile (req : CreateFileRequest)
  | statFile (fileId : String)
  | listChildren (dirId : String)
  | createVersion (fileId : String) (req : CreateVersionRequest)
  | commitVersion (versionId : String)
  | putManifest (manifestId : String) (req : PutManifestRequest)
  | getManifest (manifestId : String)
  | putChunk (chunkId : String) (body : Bytes)
  | getChunk (chunkId : String) (range : Option HeaderValue)
  deriving DecidableEq

/-- A successful response. All have status 200 but `partialContent`, which
    has status 206 and a `Content-Range` header. -/
inductive Response where
  | file (r : FileResponse)
  | children (r : ListChildrenResponse)
  | version (r : VersionResponse)
  | manifest (r : ManifestResponse)
  | chunk (r : ChunkResponse)
  | body (bytes : Bytes)
  | partialContent (bytes : Bytes) (contentRange : String)
  deriving DecidableEq

/-- `status_for`: the status of an error response. -/
def statusFor : ErrorCode → Nat
  | .fileNotFound | .versionNotFound | .manifestNotFound | .chunkNotFound => 404
  | .fileExists | .directoryNotEmpty | .sharingViolation | .integrityChunkIdConflict => 409
  | .invalidParameter | .invalidHandle | .protocolViolation | .configInvalid | .configMissing
  | .configUnsupportedVersion => 400
  | .integrityHashMismatch | .integrityLengthMismatch | .integrityManifestInvalid => 422
  | .authFailed => 401
  | .permissionDenied => 403
  | .networkTimeout | .networkUnavailable => 504
  | .resourceExhausted => 429
  | .diskFull | .storageError | .cancelled | .internalError => 500

/-! ## Section 3: The `Range` header -/

/-- The end of a range; an omitted end is the last byte of the object. -/
def rangeEnd (e : List Char) (size : UInt64) : Option UInt64 :=
  if e.isEmpty then some (max size 1 - 1) else parseU64 e

/-- `parse_range`: `bytes=<start>-<end>` with an optional end, as an
    inclusive pair. Whether the range fits the object is not decided here. -/
def parseRange (raw : String) (size : UInt64) : Option (UInt64 × UInt64) := do
  let spec ← stripPrefix "bytes=".toList raw.toList
  let (s, e) ← splitOnce '-' spec
  let start ← parseU64 s
  let endInclusive ← rangeEnd e size
  if start > endInclusive then none else some (start, endInclusive)

/-- `(end_inclusive - start + 1) as u32`. -/
def rangeLength (start endInclusive : UInt64) : Res UInt32 := do
  let d ← subU64 endInclusive start
  let n ← addU64 d 1
  return n.toUInt32

/-- The `Content-Range` of a partial response. -/
def contentRange (start endInclusive size : UInt64) : String :=
  "bytes " ++ decimal start ++ "-" ++ decimal endInclusive ++ "/" ++ decimal size

/-! ## Section 4: Handlers -/

namespace Api

/-- A handler returns a response or an `ApiError`. -/
abbrev Handler := Fallible StoreI SpaceError Response

/-- `st.meta.<method>(..).await`. -/
def callMeta (op : MetaOp) : Fallible StoreI SpaceError op.Value :=
  Prog.perform (I := StoreI) (.metadata op)

/-- `st.blobs.<method>(..).await`. -/
def callBlobs (op : BlobOp) : Fallible StoreI SpaceError op.Value :=
  Prog.perform (I := StoreI) (.blobs op)

def createFile (req : CreateFileRequest) : Handler := do
  let file ← callMeta (.createFile req.parentId req.name req.idempotencyKey)
  return .file ⟨contractVersion, file⟩

def statFile [UuidCrate] (fileId : String) : Handler := do
  let fileId ← FileId.parse fileId
  let file ← callMeta (.getFile fileId)
  return .file ⟨contractVersion, file⟩

def listChildren [UuidCrate] (dirId : String) : Handler := do
  let dirId ← DirectoryId.parse dirId
  let files ← callMeta (.listChildren dirId)
  return .children ⟨contractVersion, files⟩

def createVersion [UuidCrate] (fileId : String) (req : CreateVersionRequest) : Handler := do
  let fileId ← FileId.parse fileId
  let version ← callMeta
    (.createVersion fileId req.versionId req.parentVersionId req.manifestId)
  return .version ⟨contractVersion, version⟩

def commitVersion [UuidCrate] (versionId : String) : Handler := do
  let versionId ← VersionId.parse versionId
  let version ← callMeta (.commitVersion versionId)
  return .version ⟨contractVersion, version⟩

def putManifest [UuidCrate] (manifestId : String) (req : PutManifestRequest) : Handler := do
  let id ← ManifestId.parse manifestId
  rejectIf (req.manifest.manifestId != id)
    (SpaceError.invalidParam "manifest_id in path and body disagree")
  let manifest ← callMeta (.putManifest req.manifest)
  return .manifest ⟨contractVersion, manifest⟩

def getManifest [UuidCrate] (manifestId : String) : Handler := do
  let manifestId ← ManifestId.parse manifestId
  let manifest ← callMeta (.getManifest manifestId)
  return .manifest ⟨contractVersion, manifest⟩

/-- `put_chunk`: two calls, of the two stores, with nothing to undo the first
    when the second fails. -/
def putChunk (chunkId : String) (body : Bytes) : Handler := do
  let id ← ChunkId.parse chunkId
  callBlobs (.put id body)
  let chunk ← callMeta (.registerChunk id body.len)
  return .chunk ⟨contractVersion, chunk⟩

/-- The half of `get_chunk` that serves a `Range` header. -/
def getChunkRange (id : ChunkId) (size : UInt64) (range : HeaderValue) : Handler := do
  let (start, endInclusive) ← okOr (parseRange (range.toStr.getD "") size)
    (SpaceError.invalidParam "malformed Range header")
  let length ← rangeLength start endInclusive
  let bytes ← callBlobs (.getRange id start length)
  return .partialContent bytes (contentRange start endInclusive size)

def getChunk (chunkId : String) (range : Option HeaderValue) : Handler := do
  let id ← ChunkId.parse chunkId
  let size ← callBlobs (.head id)
  match range with
  | none => do
    let bytes ← callBlobs (.get id)
    return .body bytes
  | some range => getChunkRange id size range

/-- The router: every request goes to its handler. -/
def handle [UuidCrate] : Request → Prog StoreI (Res Response)
  | .createFile req => createFile req
  | .statFile fileId => statFile fileId
  | .listChildren dirId => listChildren dirId
  | .createVersion fileId req => createVersion fileId req
  | .commitVersion versionId => commitVersion versionId
  | .putManifest manifestId req => putManifest manifestId req
  | .getManifest manifestId => getManifest manifestId
  | .putChunk chunkId body => putChunk chunkId body
  | .getChunk chunkId range => getChunk chunkId range

/-! ## Section 5: Handlers that make one call

    All handlers but the two of the chunks parse their path, make one call
    of the metadata store and wrap what it returns. `metaCall` is what such
    a handler decides before the call. -/

/-- A call of the metadata store, and the response made of what it returns. -/
structure MetaCall where
  op : MetaOp
  respond : op.Value → Response

def MetaCall.prog (call : MetaCall) : Prog StoreI (Res Response) :=
  .call (.metadata call.op) (Fallible.onOk fun a => .ret (ok (call.respond a)))

/-- The call that a request leads to; `none` for the two chunk requests. -/
def metaCall [UuidCrate] : Request → Option (Res MetaCall)
  | .createFile req => some (ok ⟨.createFile req.parentId req.name req.idempotencyKey,
      fun file => .file ⟨contractVersion, file⟩⟩)
  | .statFile fileId => some do
      let id ← FileId.parse fileId
      return ⟨.getFile id, fun file => .file ⟨contractVersion, file⟩⟩
  | .listChildren dirId => some do
      let id ← DirectoryId.parse dirId
      return ⟨.listChildren id, fun files => .children ⟨contractVersion, files⟩⟩
  | .createVersion fileId req => some do
      let id ← FileId.parse fileId
      return ⟨.createVersion id req.versionId req.parentVersionId req.manifestId,
        fun version => .version ⟨contractVersion, version⟩⟩
  | .commitVersion versionId => some do
      let id ← VersionId.parse versionId
      return ⟨.commitVersion id, fun version => .version ⟨contractVersion, version⟩⟩
  | .putManifest manifestId req => some do
      let id ← ManifestId.parse manifestId
      rejectIf (req.manifest.manifestId != id)
        (SpaceError.invalidParam "manifest_id in path and body disagree")
      return ⟨.putManifest req.manifest, fun m => .manifest ⟨contractVersion, m⟩⟩
  | .getManifest manifestId => some do
      let id ← ManifestId.parse manifestId
      return ⟨.getManifest id, fun m => .manifest ⟨contractVersion, m⟩⟩
  | .putChunk .. => none
  | .getChunk .. => none

section parsed

variable [UuidCrate] {text : String}

/-- Once its path is parsed, a request is one call. -/
theorem metaCall_statFile {id : FileId} (h : FileId.parse text = ok id) :
    metaCall (.statFile text) =
      some (ok ⟨.getFile id, fun file => .file ⟨contractVersion, file⟩⟩) := by
  rw [metaCall, h]
  rfl

theorem metaCall_listChildren {id : DirectoryId} (h : DirectoryId.parse text = ok id) :
    metaCall (.listChildren text) =
      some (ok ⟨.listChildren id, fun files => .children ⟨contractVersion, files⟩⟩) := by
  rw [metaCall, h]
  rfl

theorem metaCall_createVersion {id : FileId} (h : FileId.parse text = ok id)
    (req : CreateVersionRequest) : metaCall (.createVersion text req) =
      some (ok ⟨.createVersion id req.versionId req.parentVersionId req.manifestId,
        fun version => .version ⟨contractVersion, version⟩⟩) := by
  rw [metaCall, h]
  rfl

theorem metaCall_commitVersion {id : VersionId} (h : VersionId.parse text = ok id) :
    metaCall (.commitVersion text) =
      some (ok ⟨.commitVersion id, fun version => .version ⟨contractVersion, version⟩⟩) := by
  rw [metaCall, h]
  rfl

/-- Path and body agree. -/
theorem metaCall_putManifest {req : PutManifestRequest}
    (h : ManifestId.parse text = ok req.manifest.manifestId) : metaCall (.putManifest text req) =
      some (ok ⟨.putManifest req.manifest, fun m => .manifest ⟨contractVersion, m⟩⟩) := by
  rw [metaCall, h, ok_bind, bne_self_eq_false]
  rfl

theorem metaCall_getManifest {id : ManifestId} (h : ManifestId.parse text = ok id) :
    metaCall (.getManifest text) =
      some (ok ⟨.getManifest id, fun m => .manifest ⟨contractVersion, m⟩⟩) := by
  rw [metaCall, h]
  rfl

end parsed

/-- A handler that makes one call decides on it first. -/
theorem handle_of_metaCall [UuidCrate] {req : Request} {x : Res MetaCall}
    (h : metaCall req = some x) : handle req = Fallible.onOk MetaCall.prog x := by
  cases req with
  | createFile req =>
    cases h
    rfl
  | putChunk text body => cases h
  | getChunk text range => cases h
  | statFile text =>
    cases h
    simp only [handle, statFile, callMeta, Prog.perform, ↓Fallible.bind_eq, ↓Fallible.lift_eq,
      ↓Fallible.pure_eq, Prog.bind_call, Prog.bind_ret]
    cases FileId.parse text <;> rfl
  | listChildren text =>
    cases h
    simp only [handle, listChildren, callMeta, Prog.perform, ↓Fallible.bind_eq, ↓Fallible.lift_eq,
      ↓Fallible.pure_eq, Prog.bind_call, Prog.bind_ret]
    cases DirectoryId.parse text <;> rfl
  | createVersion text req =>
    cases h
    simp only [handle, createVersion, callMeta, Prog.perform, ↓Fallible.bind_eq,
      ↓Fallible.lift_eq, ↓Fallible.pure_eq, Prog.bind_call, Prog.bind_ret]
    cases FileId.parse text <;> rfl
  | commitVersion text =>
    cases h
    simp only [handle, commitVersion, callMeta, Prog.perform, ↓Fallible.bind_eq,
      ↓Fallible.lift_eq, ↓Fallible.pure_eq, Prog.bind_call, Prog.bind_ret]
    cases VersionId.parse text <;> rfl
  | putManifest text req =>
    cases h
    simp only [handle, putManifest, callMeta, Prog.perform, ↓Fallible.bind_eq, ↓Fallible.lift_eq,
      ↓Fallible.pure_eq, Prog.bind_call, Prog.bind_ret]
    cases ManifestId.parse text with
    | ok id =>
      simp only [Fallible.onOk_ok, ok_bind]
      -- the check of the path against the body comes before the call
      cases rejectIf (req.manifest.manifestId != id)
        (SpaceError.invalidParam "manifest_id in path and body disagree") <;> rfl
    | err e => rfl
    | panic => rfl
  | getManifest text =>
    cases h
    simp only [handle, getManifest, callMeta, Prog.perform, ↓Fallible.bind_eq, ↓Fallible.lift_eq,
      ↓Fallible.pure_eq, Prog.bind_call, Prog.bind_ret]
    cases ManifestId.parse text <;> rfl

/-- Handle a request from start to end, with nothing in between. -/
def serve [UuidCrate] [Blake3] (env : Env) (req : Request) (s : AppState) :
    Res Response × AppState :=
  (handle req).run (StoreOp.exec env) s

/-- The calls of the stores that are made in handling it. -/
def calls [UuidCrate] [Blake3] (env : Env) (req : Request) (s : AppState) : List StoreOp :=
  (handle req).performed (StoreOp.exec env) s

end Api

/-! ## Section 6: Serving a request -/

variable [UuidCrate] [Blake3]

/-- Serving a request that makes one call. -/
theorem serve_metaCall (env : Env) {req : Request} {x : Res Api.MetaCall} (s : AppState)
    (h : Api.metaCall req = some x) :
    Api.serve env req s = x.tryAt s fun call =>
      (call.respond <$> (call.op.exec env s.metaStore).1,
        { s with metaStore := (call.op.exec env s.metaStore).2 }) := by
  unfold Api.serve
  rw [Api.handle_of_metaCall h, Fallible.run_onOk]
  -- what is left is one call of the metadata store
  refine congrArg (x.tryAt s) (funext fun call => ?_)
  unfold Api.MetaCall.prog
  rw [Prog.run_call, Fallible.run_onOk]
  exact tryAt_map _ _ _

/-- Serving an upload. -/
theorem serve_putChunk (env : Env) (text : String) (body : Bytes) (s : AppState) :
    Api.serve env (.putChunk text body) s =
      (ChunkId.parse text).tryAt s fun id =>
        (s.blobs.put id body).1.tryAt { s with blobs := (s.blobs.put id body).2 } fun _ =>
          ((fun chunk => .chunk ⟨contractVersion, chunk⟩) <$>
              (s.metaStore.registerChunk id body.len).1,
            ⟨(s.metaStore.registerChunk id body.len).2, (s.blobs.put id body).2⟩) := by
  simp only [Api.serve, Api.handle, Api.putChunk, Api.callBlobs, Api.callMeta, Prog.perform,
    ↓Fallible.bind_eq, ↓Fallible.lift_eq, ↓Fallible.pure_eq, Prog.bind_ret, Prog.bind_call,
    Fallible.run_onOk, Prog.run_call, Prog.run_ret, tryAt_map]
  rfl

end Space
