import Space.Contracts.Validate
import Space.Data.Table
import Mathlib.Data.Multiset.Sort

/-! # The metadata store

    `space_cloud_metadata::InMemoryMetadataStore`. One mutex guards five
    maps, and each method holds it from its first look at the maps to its
    end, so a method is a function of the state under the mutex.

    What a method takes from outside is an `Env`: the id that `FileId::new`
    returns, the time that `Utc::now` returns, and the order in which the
    hash map yields its values. -/

namespace Space

open Rust Outcome Data

/-- The state under the mutex. -/
structure Inner where
  files : Table FileId File
  fileIdempotency : Table String FileId
  versions : Table VersionId Version
  manifests : Table ManifestId Manifest
  chunks : Table ChunkId Chunk
  deriving DecidableEq

/-- What a method takes from outside the store. -/
structure Env where
  /-- `FileId::new()` -/
  newId : FileId
  /-- `Utc::now()` -/
  now : DateTime
  /-- The iteration order of `HashMap::values`. -/
  hashOrder : (files : Multiset File) → { order : List File // (order : Multiset File) = files }

namespace Inner

/-- `InMemoryMetadataStore::new`. -/
def new : Inner := ⟨∅, ∅, ∅, ∅, ∅⟩

def notFound (code : ErrorCode) (what : String) : SpaceError :=
  SpaceError.new code (what ++ " not found")

/-! ## Section 1: Files -/

/-- The names `create_file` refuses: empty, or with a separator or a NUL. -/
def illegalName (name : String) : Bool :=
  name == "" || name.toList.any fun c => ['/', '\\', '\x00'].contains c

def addFile (g : Inner) (key : String) (file : File) : Inner :=
  { g with
    fileIdempotency := g.fileIdempotency.insert key file.fileId
    files := g.files.insert file.fileId file }

/-- The row `create_file` adds. -/
def freshFile (env : Env) (parentId : DirectoryId) (name : String) : File :=
  { fileId := env.newId
    parentId := parentId
    name := name
    currentVersionId := none
    createdAt := env.now
    modifiedAt := env.now }

/-- `create_file`. A key that is known already answers with its file; the
    map index panics when that file is missing. -/
def createFile (env : Env) (g : Inner) (parentId : DirectoryId) (name key : String) :
    Res File × Inner :=
  if illegalName name then (err (SpaceError.invalidParam "illegal file name"), g)
  else
    match g.fileIdempotency.lookup key with
    | some existing =>
      match g.files.lookup existing with
      | some file => (ok file, g)
      | none => (panic, g)
    | none =>
      let file := freshFile env parentId name
      (ok file, g.addFile key file)

def getFile (g : Inner) (fileId : FileId) : Res File :=
  okOr (g.files.lookup fileId) (notFound .fileNotFound "file")

/-- `list_children`: filtered in hash order, then sorted by name. The sort
    is stable. -/
def listChildren (env : Env) (g : Inner) (dirId : DirectoryId) : List File :=
  let values := (env.hashOrder (g.files.entries.map Sigma.snd)).val
  (values.filter fun f => f.parentId == dirId).mergeSort fun a b => a.name ≤ b.name

/-! ## Section 2: Chunks and manifests -/

def addChunk (g : Inner) (chunk : Chunk) : Inner :=
  { g with chunks := g.chunks.insert chunk.chunkId chunk }

def chunkSizeConflict : SpaceError :=
  SpaceError.new .integrityChunkIdConflict "chunk already registered with a different size"

/-- `register_chunk`. -/
def registerChunk (g : Inner) (chunkId : ChunkId) (size : UInt64) : Res Chunk × Inner :=
  (ChunkId.parse chunkId.str).tryAt g fun _ =>
    match g.chunks.lookup chunkId with
    | some existing =>
      if existing.size != size then (err chunkSizeConflict, g) else (ok existing, g)
    | none =>
      let chunk : Chunk := ⟨chunkId, size⟩
      (ok chunk, g.addChunk chunk)

/-- The referential integrity of a manifest against the registered chunks. -/
def checkRegistered (g : Inner) (m : Manifest) : Res Unit :=
  forM m.chunks fun c =>
    match g.chunks.lookup c.chunkId with
    | some reg =>
      rejectIf (reg.size != c.size) (invalid "manifest chunk size disagrees with registration")
    | none => err (SpaceError.new .chunkNotFound "manifest references an unregistered chunk")

/-- A manifest id that is known already must stand for the same content. -/
def checkSameContent (g : Inner) (m : Manifest) : Res Unit :=
  match g.manifests.lookup m.manifestId with
  | some existing =>
    rejectIf (existing != m) (invalid "manifest id already stores different content")
  | none => ok ()

/-- What `put_manifest` requires before it stores anything. -/
def checkManifest (g : Inner) (m : Manifest) : Res Unit := do
  validateManifest m
  checkRegistered g m
  checkSameContent g m

def addManifest (g : Inner) (m : Manifest) : Inner :=
  { g with manifests := g.manifests.insert m.manifestId m }

/-- `put_manifest`. The insert happens also when the manifest is stored
    already. -/
def putManifest (g : Inner) (m : Manifest) : Res Manifest × Inner :=
  (g.checkManifest m).tryAt g fun _ => (ok m, g.addManifest m)

def getManifest (g : Inner) (manifestId : ManifestId) : Res Manifest :=
  okOr (g.manifests.lookup manifestId) (notFound .manifestNotFound "manifest")

/-! ## Section 3: Versions -/

/-- The parent of a new version must exist and belong to the same file. Its
    state is not looked at. -/
def checkParent (g : Inner) (fileId : FileId) (parent : Option VersionId) : Res Unit :=
  match parent with
  | none => ok ()
  | some parent =>
    match g.versions.lookup parent with
    | some p =>
      rejectIf (p.fileId != fileId) (invalid "parent version belongs to a different file")
    | none => err (notFound .versionNotFound "parent version")

/-- What `create_version` requires of the objects it refers to. -/
def checkRefs (g : Inner) (fileId : FileId) (parent : Option VersionId)
    (manifestId : ManifestId) : Res Unit := do
  rejectIf (g.files.lookup fileId).isNone (notFound .fileNotFound "file")
  rejectIf (g.manifests.lookup manifestId).isNone (notFound .manifestNotFound "manifest")
  g.checkParent fileId parent

def addVersion (g : Inner) (version : Version) : Inner :=
  { g with versions := g.versions.insert version.versionId version }

/-- The row `create_version` adds. -/
def freshVersion (env : Env) (fileId : FileId) (versionId : VersionId)
    (parent : Option VersionId) (manifestId : ManifestId) : Version :=
  { versionId := versionId
    fileId := fileId
    parentVersionId := parent
    manifestId := manifestId
    state := .candidate
    createdAt := env.now }

def versionIdConflict : SpaceError :=
  SpaceError.new .integrityChunkIdConflict "version_id already used with different content"

/-- `create_version`, idempotent by the client's `version_id`. -/
def createVersion (env : Env) (g : Inner) (fileId : FileId) (versionId : VersionId)
    (parent : Option VersionId) (manifestId : ManifestId) : Res Version × Inner :=
  (g.checkRefs fileId parent manifestId).tryAt g fun _ =>
    match g.versions.lookup versionId with
    | some existing =>
      if existing.fileId = fileId ∧ existing.parentVersionId = parent ∧
          existing.manifestId = manifestId then (ok existing, g)
      else (err versionIdConflict, g)
    | none =>
      let version := freshVersion env fileId versionId parent manifestId
      (ok version, g.addVersion version)

/-- What `commit_version` requires of a version that is not committed yet. -/
def checkCommit (g : Inner) (version : Version) : Res Unit := do
  validateVersionTransition version.state .committed
  let manifest ← okOr (g.manifests.lookup version.manifestId)
    (notFound .manifestNotFound "manifest")
  validateManifest manifest

/-- `file.current_version_id = Some(v); file.modified_at = now`, if the file
    exists. -/
def setCurrent (g : Inner) (now : DateTime) (fileId : FileId) (v : VersionId) : Inner :=
  match g.files.lookup fileId with
  | some file =>
    { g with
      files := g.files.insert fileId { file with currentVersionId := some v, modifiedAt := now } }
  | none => g

/-- The two rows a commit changes. -/
def commit (env : Env) (g : Inner) (versionId : VersionId) (version : Version) : Inner :=
  let committed : Version := { version with state := .committed }
  Inner.setCurrent { g with versions := g.versions.insert versionId committed }
    env.now version.fileId versionId

/-- `commit_version`. A version that is committed already is returned as it
    is. Neither the state of its parent nor the current version of the file
    is looked at. -/
def commitVersion (env : Env) (g : Inner) (versionId : VersionId) : Res Version × Inner :=
  (okOr (g.versions.lookup versionId) (notFound .versionNotFound "version")).tryAt g fun version =>
    if version.state = .committed then (ok version, g)
    else
      (g.checkCommit version).tryAt g fun _ =>
        (ok { version with state := .committed }, g.commit env versionId version)

/-- `get_current_version`: a candidate is not found. -/
def getCurrentVersion (g : Inner) (versionId : VersionId) : Res Version :=
  match g.versions.lookup versionId with
  | some v =>
    if v.state = .committed then ok v
    else err (notFound .versionNotFound "committed version")
  | none => err (notFound .versionNotFound "committed version")

end Inner

/-! ## Section 4: The store as an interface -/

/-- The calls of the `MetadataStore` trait. -/
inductive MetaOp where
  | createFile (parentId : DirectoryId) (name idempotencyKey : String)
  | getFile (fileId : FileId)
  | listChildren (dirId : DirectoryId)
  | registerChunk (chunkId : ChunkId) (size : UInt64)
  | putManifest (manifest : Manifest)
  | getManifest (manifestId : ManifestId)
  | createVersion (fileId : FileId) (versionId : VersionId) (parentVersionId : Option VersionId)
      (manifestId : ManifestId)
  | commitVersion (versionId : VersionId)
  | getCurrentVersion (versionId : VersionId)

namespace MetaOp

/-- What a successful call returns. -/
abbrev Value : MetaOp → Type
  | createFile .. => File
  | getFile .. => File
  | listChildren .. => List File
  | registerChunk .. => Chunk
  | putManifest .. => Manifest
  | getManifest .. => Manifest
  | createVersion .. => Version
  | commitVersion .. => Version
  | getCurrentVersion .. => Version

def exec (env : Env) : (op : MetaOp) → Inner → Res op.Value × Inner
  | createFile parentId name key, g => g.createFile env parentId name key
  | getFile fileId, g => (g.getFile fileId, g)
  | listChildren dirId, g => (ok (g.listChildren env dirId), g)
  | registerChunk chunkId size, g => g.registerChunk chunkId size
  | putManifest m, g => g.putManifest m
  | getManifest manifestId, g => (g.getManifest manifestId, g)
  | createVersion fileId versionId parent manifestId, g =>
    g.createVersion env fileId versionId parent manifestId
  | commitVersion versionId, g => g.commitVersion env versionId
  | getCurrentVersion versionId, g => (g.getCurrentVersion versionId, g)

/-- `FileId::new` returns an id that was never used before. The method that
    calls it is `create_file` with a new key. -/
def Fresh (env : Env) (g : Inner) : MetaOp → Prop
  | createFile _ _ key => g.fileIdempotency.lookup key = none → g.files.lookup env.newId = none
  | _ => True

end MetaOp

end Space
