import Space.Rust.Outcome

/-! # The error that crosses every boundary

    `contracts::errors`: one error type, one code per distinct failure. -/

namespace Space

open Rust

/-- A 128-bit UUID. -/
structure Uuid where
  bits : BitVec 128
  deriving DecidableEq, Repr

structure OperationId where
  uuid : Uuid
  deriving DecidableEq, Repr

structure RequestId where
  uuid : Uuid
  deriving DecidableEq, Repr

/-- Every distinct failure mode. -/
inductive ErrorCode where
  | configMissing
  | configInvalid
  | configUnsupportedVersion
  | fileNotFound
  | fileExists
  | directoryNotEmpty
  | versionNotFound
  | manifestNotFound
  | chunkNotFound
  | invalidParameter
  | invalidHandle
  | integrityHashMismatch
  | integrityLengthMismatch
  | integrityManifestInvalid
  | integrityChunkIdConflict
  | networkTimeout
  | networkUnavailable
  | protocolViolation
  | storageError
  | diskFull
  | resourceExhausted
  | cancelled
  | sharingViolation
  | authFailed
  | permissionDenied
  | internalError
  deriving DecidableEq, Repr

/-- A code, a text, and optionally the ids it concerns and the error that
    caused it. -/
inductive SpaceError where
  | mk (code : ErrorCode) (message : String) (operationId : Option OperationId)
      (requestId : Option RequestId) (source : Option SpaceError)

namespace SpaceError

def code : SpaceError → ErrorCode
  | .mk code _ _ _ _ => code

def message : SpaceError → String
  | .mk _ message _ _ _ => message

/-- `SpaceError::new`: no ids and no cause. -/
def new (code : ErrorCode) (message : String) : SpaceError :=
  .mk code message none none none

/-- `SpaceError::invalid_param`. -/
def invalidParam (message : String) : SpaceError :=
  new .invalidParameter message

@[simp] theorem code_new (c : ErrorCode) (m : String) : (new c m).code = c := rfl

@[simp] theorem code_invalidParam (m : String) : (invalidParam m).code = .invalidParameter := rfl

/-- Without ids and without a cause, as the server makes all its errors. -/
def Bare (e : SpaceError) : Prop := ∃ code message, e = new code message

theorem bare_new (code : ErrorCode) (message : String) : (new code message).Bare :=
  ⟨code, message, rfl⟩

def IsInvalidParam (e : SpaceError) : Prop := ∃ message, e = invalidParam message

theorem isInvalidParam_invalidParam (message : String) : (invalidParam message).IsInvalidParam :=
  ⟨message, rfl⟩

theorem IsInvalidParam.bare {e : SpaceError} (h : e.IsInvalidParam) : e.Bare := by
  obtain ⟨message, rfl⟩ := h
  exact bare_new _ message

theorem IsInvalidParam.code {e : SpaceError} (h : e.IsInvalidParam) :
    e.code = .invalidParameter := by
  obtain ⟨message, rfl⟩ := h
  rfl

end SpaceError

/-- `Result<T, SpaceError>`, or a panic. -/
abbrev Res (α : Type) := Outcome SpaceError α

end Space
