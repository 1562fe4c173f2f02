import Space.Contracts.Ids

/-! # Domain model

    `contracts::model`: a `File` names bytes, a `Version` is an immutable
    snapshot, a `Manifest` maps logical byte ranges onto immutable chunks. -/

namespace Space

open Rust

/-- `DateTime<Utc>`, in nanoseconds since the epoch. -/
structure DateTime where
  nanos : Int
  deriving DecidableEq, Repr

inductive VersionState where
  | candidate
  | committed
  deriving DecidableEq, Repr

/-- The only legal move is `Candidate -> Committed`. -/
def VersionState.canTransitionTo : VersionState → VersionState → Bool
  | .candidate, .committed => true
  | _, _ => false

/-- `Debug` of a state, as it appears in error texts. -/
def VersionState.debug : VersionState → String
  | .candidate => "Candidate"
  | .committed => "Committed"

/-- A named entry in the namespace. Holds no bytes. -/
structure File where
  fileId : FileId
  parentId : DirectoryId
  name : String
  /-- `none` until the first version commits. -/
  currentVersionId : Option VersionId
  createdAt : DateTime
  modifiedAt : DateTime
  deriving DecidableEq, Repr

/-- An immutable snapshot of a file's bytes. -/
structure Version where
  versionId : VersionId
  fileId : FileId
  parentVersionId : Option VersionId
  manifestId : ManifestId
  state : VersionState
  createdAt : DateTime
  deriving DecidableEq, Repr

/-- Metadata of one immutable, content-addressed chunk. -/
structure Chunk where
  chunkId : ChunkId
  size : UInt64
  deriving DecidableEq, Repr

/-- One contiguous logical byte range, served from a slice of one chunk. -/
structure ManifestEntry where
  logicalOffset : UInt64
  length : UInt64
  chunkId : ChunkId
  chunkOffset : UInt64
  deriving DecidableEq, Repr

/-- The full logical-to-physical map for one version. -/
structure Manifest where
  manifestId : ManifestId
  totalSize : UInt64
  chunkCount : UInt64
  entries : List ManifestEntry
  chunks : List Chunk
  deriving DecidableEq, Repr

/-- `Manifest::chunk_size`: the declared size of the first row with this id. -/
def Manifest.chunkSize (m : Manifest) (id : ChunkId) : Option UInt64 :=
  (m.chunks.find? fun c => c.chunkId == id).map Chunk.size

theorem Manifest.chunkSize_eq_none {m : Manifest} {id : ChunkId} :
    m.chunkSize id = none ↔ ∀ c ∈ m.chunks, c.chunkId ≠ id := by
  simp [Manifest.chunkSize]

end Space
