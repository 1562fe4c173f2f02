import Space.Contracts.Errors

/-! # The classification of the error codes

    `contracts::errors`: which codes may be retried, which side they can
    come from, which `NTSTATUS` they become, and how they are printed. -/

namespace Space

abbrev NtStatus := UInt32

/-! The constants of `ntstatus.h`. -/

def statusObjectNameNotFound : NtStatus := 0xC0000034
def statusObjectNameCollision : NtStatus := 0xC0000035
def statusDirectoryNotEmpty : NtStatus := 0xC0000101
def statusInvalidParameter : NtStatus := 0xC000000D
def statusInvalidHandle : NtStatus := 0xC0000008
def statusFileCorruptError : NtStatus := 0xC0000102
def statusIoTimeout : NtStatus := 0xC00000B5
def statusUnexpectedNetworkError : NtStatus := 0xC00000C4
def statusIoDeviceError : NtStatus := 0xC0000185
def statusDiskFull : NtStatus := 0xC000007F
def statusInsufficientResources : NtStatus := 0xC000009A
def statusCancelled : NtStatus := 0xC0000120
def statusSharingViolation : NtStatus := 0xC0000043
def statusAccessDenied : NtStatus := 0xC0000022
def statusInternalError : NtStatus := 0xC00000E5

namespace ErrorCode

def isStartupOnly : ErrorCode → Bool
  | configMissing => true
  | configInvalid => true
  | configUnsupportedVersion => true
  | _ => false

def retryable : ErrorCode → Bool
  | networkTimeout => true
  | networkUnavailable => true
  | resourceExhausted => true
  | _ => false

/-- Which side of the boundary a code can originate from. -/
inductive Origin where
  | client
  | server
  | either
  deriving DecidableEq

def origin : ErrorCode → Origin
  | configMissing => .client
  | configInvalid => .client
  | configUnsupportedVersion => .client
  | invalidHandle => .client
  | networkTimeout => .client
  | networkUnavailable => .client
  | cancelled => .client
  | sharingViolation => .client
  | authFailed => .server
  | permissionDenied => .server
  | _ => .either

/-- The `NTSTATUS` of a code; `none` for the errors of the startup, which
    happen before there is a file system. -/
def ntstatus : ErrorCode → Option NtStatus
  | configMissing => none
  | configInvalid => none
  | configUnsupportedVersion => none
  | fileNotFound => some statusObjectNameNotFound
  | versionNotFound => some statusObjectNameNotFound
  | manifestNotFound => some statusObjectNameNotFound
  | chunkNotFound => some statusObjectNameNotFound
  | fileExists => some statusObjectNameCollision
  | directoryNotEmpty => some statusDirectoryNotEmpty
  | invalidParameter => some statusInvalidParameter
  | invalidHandle => some statusInvalidHandle
  | integrityHashMismatch => some statusFileCorruptError
  | integrityLengthMismatch => some statusFileCorruptError
  | integrityManifestInvalid => some statusFileCorruptError
  | integrityChunkIdConflict => some statusFileCorruptError
  | networkTimeout => some statusIoTimeout
  | networkUnavailable => some statusUnexpectedNetworkError
  | protocolViolation => some statusIoDeviceError
  | storageError => some statusIoDeviceError
  | diskFull => some statusDiskFull
  | resourceExhausted => some statusInsufficientResources
  | cancelled => some statusCancelled
  | sharingViolation => some statusSharingViolation
  | authFailed => some statusAccessDenied
  | permissionDenied => some statusAccessDenied
  | internalError => some statusInternalError

/-- The derived `Debug`. -/
def debug : ErrorCode → String
  | configMissing => "ConfigMissing"
  | configInvalid => "ConfigInvalid"
  | configUnsupportedVersion => "ConfigUnsupportedVersion"
  | fileNotFound => "FileNotFound"
  | fileExists => "FileExists"
  | directoryNotEmpty => "DirectoryNotEmpty"
  | versionNotFound => "VersionNotFound"
  | manifestNotFound => "ManifestNotFound"
  | chunkNotFound => "ChunkNotFound"
  | invalidParameter => "InvalidParameter"
  | invalidHandle => "InvalidHandle"
  | integrityHashMismatch => "IntegrityHashMismatch"
  | integrityLengthMismatch => "IntegrityLengthMismatch"
  | integrityManifestInvalid => "IntegrityManifestInvalid"
  | integrityChunkIdConflict => "IntegrityChunkIdConflict"
  | networkTimeout => "NetworkTimeout"
  | networkUnavailable => "NetworkUnavailable"
  | protocolViolation => "ProtocolViolation"
  | storageError => "StorageError"
  | diskFull => "DiskFull"
  | resourceExhausted => "ResourceExhausted"
  | cancelled => "Cancelled"
  | sharingViolation => "SharingViolation"
  | authFailed => "AuthFailed"
  | permissionDenied => "PermissionDenied"
  | internalError => "InternalError"

/-- The documented table is complete: exactly the codes of the startup have
    no `NTSTATUS`, and they come from the client. -/
theorem ntstatus_eq_none (code : ErrorCode) :
    (code.ntstatus = none ↔ code.isStartupOnly = true) ∧
      (code.isStartupOnly = true → code.origin = .client ∧ code.retryable = false) := by
  cases code <;> decide

end ErrorCode

/-- `Display`: the code, the text and the causes. -/
def SpaceError.display : SpaceError → String
  | .mk code message _ _ none => code.debug ++ ": " ++ message
  | .mk code message _ _ (some src) =>
    code.debug ++ ": " ++ message ++ " (caused by " ++ src.display ++ ")"

end Space
