import Space.Contracts.Ids
import Space.Data.Table
import Space.Effects.Prog

/-! # The object store

    `objectstore::FakeObjectStore`: immutable chunk bodies under their
    content addresses. Each operation takes the lock once, so it is a
    function of the map; the operations that only read return no new map.

    The test hooks that damage a stored object are modelled as well. They
    are not operations of the store: no handler can call them. -/

namespace Space

open Rust Outcome Data Effects

structure FakeObjectStore where
  inner : Table ChunkId Bytes
  deriving DecidableEq

namespace FakeObjectStore

variable [Blake3]

/-- `FakeObjectStore::new`. -/
def new : FakeObjectStore := ⟨∅⟩

/-! ## Section 1: Operations -/

def noSuchChunk : SpaceError := SpaceError.new .chunkNotFound "no such chunk"

def hashMismatch : SpaceError :=
  SpaceError.new .integrityHashMismatch "stored bytes do not match chunk_id"

def notAddressed : SpaceError :=
  SpaceError.new .integrityChunkIdConflict "chunk_id does not address these bytes"

def storesDifferent : SpaceError :=
  SpaceError.new .integrityChunkIdConflict "chunk_id already stores different bytes"

/-- Storing the same bytes again is `Ok`; the id must address the bytes. -/
def put (s : FakeObjectStore) (id : ChunkId) (bytes : Bytes) : Res Unit × FakeObjectStore :=
  if !id.verify bytes then (err notAddressed, s)
  else
    match s.inner.lookup id with
    | some existing =>
      if existing = bytes then (ok (), s) else (err storesDifferent, s)
    | none => (ok (), ⟨s.inner.insert id bytes⟩)

/-- Fetch the whole object, verified against its id. -/
def get (s : FakeObjectStore) (id : ChunkId) : Res Bytes := do
  let obj ← okOr (s.inner.lookup id) noSuchChunk
  rejectIf (!id.verify obj) hashMismatch
  return obj

/-- Fetch exactly `length` bytes from `offset` on. Only a read of the whole
    object is verified. -/
def getRange (s : FakeObjectStore) (id : ChunkId) (offset : UInt64) (length : UInt32) :
    Res Bytes := do
  let obj ← okOr (s.inner.lookup id) noSuchChunk
  let stop ← okOr (checkedAdd offset length.toUInt64)
    (SpaceError.invalidParam "offset + length overflow")
  rejectIf (stop > obj.len)
    (SpaceError.new .integrityLengthMismatch "requested range extends past the object")
  rejectIf (offset == 0 && length.toUInt64 == obj.len && !id.verify obj) hashMismatch
  obj.slice offset stop

/-- Size of the stored object. -/
def head (s : FakeObjectStore) (id : ChunkId) : Res UInt64 := do
  let obj ← okOr (s.inner.lookup id) noSuchChunk
  return obj.len

/-- `ObjectStoreAdmin::delete`. No handler can call it. -/
def delete (s : FakeObjectStore) (id : ChunkId) : Res Unit × FakeObjectStore :=
  (ok (), ⟨s.inner.erase id⟩)

/-! ## Section 2: Test hooks -/

/-- `corrupt_for_test`: flip the byte at `i`, if there is one. -/
def corruptForTest (s : FakeObjectStore) (id : ChunkId) (i : UInt64) : FakeObjectStore :=
  match s.inner.lookup id with
  | some obj => ⟨s.inner.insert id (obj.flip i.toNat)⟩
  | none => s

/-- `truncate_for_test`: keep the first `len` bytes. -/
def truncateForTest (s : FakeObjectStore) (id : ChunkId) (len : UInt64) : FakeObjectStore :=
  match s.inner.lookup id with
  | some obj => ⟨s.inner.insert id (obj.truncate len.toNat)⟩
  | none => s

end FakeObjectStore

/-- Whether an object is stored. -/
def FakeObjectStore.exists (s : FakeObjectStore) (id : ChunkId) : Res Bool :=
  ok (s.inner.lookup id).isSome

/-- One call of a test hook. -/
inductive Damage where
  | corrupt (id : ChunkId) (i : UInt64)
  | truncate (id : ChunkId) (len : UInt64)
  deriving DecidableEq

def FakeObjectStore.damage (s : FakeObjectStore) : Damage → FakeObjectStore
  | .corrupt id i => s.corruptForTest id i
  | .truncate id len => s.truncateForTest id len

/-- Any number of calls, one after the other. -/
def FakeObjectStore.damageAll (s : FakeObjectStore) (ds : List Damage) : FakeObjectStore :=
  ds.foldl FakeObjectStore.damage s

/-! ## Section 3: The store as an interface -/

/-- The calls of the `ObjectStore` trait. -/
inductive BlobOp where
  | put (id : ChunkId) (bytes : Bytes)
  | get (id : ChunkId)
  | getRange (id : ChunkId) (offset : UInt64) (length : UInt32)
  | head (id : ChunkId)
  | exists (id : ChunkId)

/-- What a successful call returns. -/
abbrev BlobOp.Value : BlobOp → Type
  | .put .. => Unit
  | .get .. => Bytes
  | .getRange .. => Bytes
  | .head .. => UInt64
  | .exists .. => Bool

variable [Blake3]

def BlobOp.exec : (op : BlobOp) → FakeObjectStore → Res op.Value × FakeObjectStore
  | .put id bytes, s => s.put id bytes
  | .get id, s => (s.get id, s)
  | .getRange id offset length, s => (s.getRange id offset length, s)
  | .head id, s => (s.head id, s)
  | .exists id, s => (s.exists id, s)

/-! ## Section 4: What each operation does -/

namespace FakeObjectStore

variable {s : FakeObjectStore} {id : ChunkId}

/-- **What a put can do**: add an object under its own address, find it
    stored already, or fail and change nothing. -/
theorem put_cases (s : FakeObjectStore) (id : ChunkId) (bytes : Bytes) :
    (id.verify bytes = true ∧ s.inner.lookup id = none ∧
        s.put id bytes = (ok (), ⟨s.inner.insert id bytes⟩)) ∨
      (id.verify bytes = true ∧ s.inner.lookup id = some bytes ∧ s.put id bytes = (ok (), s)) ∨
      ∃ e, e.code = .integrityChunkIdConflict ∧ s.put id bytes = (err e, s) := by
  unfold put
  cases hv : id.verify bytes with
  | false => exact .inr (.inr ⟨notAddressed, rfl, rfl⟩)
  | true =>
    cases hl : s.inner.lookup id with
    | none => exact .inl ⟨rfl, rfl, rfl⟩
    | some existing =>
      by_cases heq : existing = bytes
      · subst heq
        exact .inr (.inl ⟨rfl, rfl, by simp⟩)
      · exact .inr (.inr ⟨storesDifferent, rfl, if_neg heq⟩)

/-- The state after any call: only a put changes it, by adding a verified
    object under a new id. -/
theorem exec_state (op : BlobOp) (s : FakeObjectStore) :
    (op.exec s).2 = s ∨ ∃ id bytes, id.verify bytes = true ∧ s.inner.lookup id = none ∧
      (op.exec s).2 = ⟨s.inner.insert id bytes⟩ := by
  cases op with
  | put id bytes =>
    rcases put_cases s id bytes with ⟨hv, hl, heq⟩ | ⟨_, _, heq⟩ | ⟨e, _, heq⟩
    · exact .inr ⟨id, bytes, hv, hl, congrArg Prod.snd heq⟩
    · exact .inl (congrArg Prod.snd heq)
    · exact .inl (congrArg Prod.snd heq)
  | _ => exact .inl rfl

/-- A call that does not return `Ok` leaves the store as it was. -/
theorem exec_unchanged {op : BlobOp} {s : FakeObjectStore} (h : (op.exec s).1.isOk = false) :
    (op.exec s).2 = s := by
  cases op with
  | put id bytes =>
    have hput : (s.put id bytes).1.isOk = false := h
    show (s.put id bytes).2 = s
    rcases put_cases s id bytes with ⟨_, _, heq⟩ | ⟨_, _, heq⟩ | ⟨e, _, heq⟩
    · rw [heq] at hput
      cases hput
    · rw [heq]
    · rw [heq]
  | _ => rfl

theorem get_eq_ok {bytes : Bytes} :
    s.get id = ok bytes ↔ s.inner.lookup id = some bytes ∧ id.verify bytes = true := by
  unfold get
  simp only [bind_eq_ok, okOr_eq_ok, rejectIf_eq_ok, Bool.not_eq_false', pure_eq, ok.injEq,
    exists_and_left, exists_const]
  constructor
  · rintro ⟨obj, hl, hv, rfl⟩
    exact ⟨hl, hv⟩
  · intro h
    obtain ⟨hl, hv⟩ := h
    exact ⟨bytes, hl, hv, rfl⟩

omit [Blake3] in
theorem head_eq_ok {size : UInt64} :
    s.head id = ok size ↔ ∃ obj, s.inner.lookup id = some obj ∧ obj.len = size := by
  unfold head
  simp only [bind_eq_ok, okOr_eq_ok, pure_eq, ok.injEq]

/-- **What a range read returns**: the slice, when it lies inside the object
    and a read of the whole object verifies. -/
theorem getRange_eq_ok {offset : UInt64} {length : UInt32} {bytes : Bytes} :
    s.getRange id offset length = ok bytes ↔
      ∃ obj, s.inner.lookup id = some obj ∧ offset.toNat + length.toNat ≤ obj.data.length ∧
        (offset = 0 → length.toNat = obj.data.length → id.verify obj = true) ∧
        bytes = obj.cut offset.toNat (offset.toNat + length.toNat) := by
  unfold getRange
  simp only [bind_eq_ok, okOr_eq_ok, rejectIf_eq_ok, checkedAdd_eq_some, exists_and_left,
    exists_const]
  refine exists_congr fun obj => and_congr_right fun _ => ?_
  have hlen := obj.length_lt
  -- the guard of the source, said with lengths
  have hwhole : (length.toUInt64 == obj.len) = true ↔ length.toNat = obj.data.length := by
    rw [beq_iff_eq, ← UInt64.toNat_inj, Bytes.toNat_len]
    rfl
  have hverify : (offset == 0 && length.toUInt64 == obj.len && !id.verify obj) = false ↔
      (offset = 0 → length.toNat = obj.data.length → id.verify obj = true) := by
    rw [← hwhole]
    cases h0 : offset == 0 <;> cases hl : length.toUInt64 == obj.len <;>
      simp_all
  simp only [hverify]
  constructor
  · intro h
    obtain ⟨stop, hstop, hle, hv, hslice⟩ := h
    have hstop' : stop.toNat = offset.toNat + length.toNat := hstop
    have hbound : stop.toNat ≤ obj.data.length := by
      simpa [UInt64.le_iff_toNat_le] using hle
    rw [Bytes.slice_of_le (by omega) hbound, ok.injEq, hstop'] at hslice
    exact ⟨by omega, hv, hslice.symm⟩
  · rintro ⟨hle, hv, rfl⟩
    have hstop : (offset + length.toUInt64).toNat = offset.toNat + length.toNat :=
      toNat_add_of_lt (b := length.toUInt64) (by
        have : length.toUInt64.toNat = length.toNat := rfl
        omega)
    refine ⟨offset + length.toUInt64, hstop, ?_, hv, ?_⟩
    · simpa [UInt64.le_iff_toNat_le, hstop] using hle
    · rw [Bytes.slice_of_le (by omega) (by omega), hstop]

/-- Reading never panics: the slice is taken after the bounds check. -/
theorem getRange_checks (offset : UInt64) (length : UInt32) :
    (s.getRange id offset length).Checks SpaceError.Bare := by
  have hbare := SpaceError.bare_new
  refine Checks.bind (checks_okOr (hbare _ _)) fun obj => ?_
  refine Checks.bind_of_eq (checks_okOr (hbare _ _)) fun stop hstop => ?_
  refine Checks.bind_of_eq (checks_rejectIf (hbare _ _)) fun _ hle => ?_
  refine Checks.bind (checks_rejectIf (hbare _ _)) fun _ => ?_
  -- after the checks the slice is inside the object
  have hsum := checkedAdd_eq_some.mp (okOr_eq_ok.mp hstop)
  have hbound : stop.toNat ≤ obj.data.length := by
    simpa [UInt64.le_iff_toNat_le] using rejectIf_eq_ok.mp hle
  rw [Bytes.slice_of_le (by omega) hbound]
  exact checks_ok _

end FakeObjectStore

end Space
