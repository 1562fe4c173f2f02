import Space.ObjectStore

/-! # Whole runs of the object store

    What the store is for: a partial map from addresses to immutable bodies.
    The map is read off the history, as the body of the last successful put
    that no delete came after, and every operation answers from it.

    Hashes come in at two places. A put checks that the id addresses the
    bytes, which is why every object hashes to its key and the read error for
    a mismatch never occurs. And a put of other bytes under a key in use
    would need a collision, so without one it does not fail. -/

namespace Space

open Rust Outcome Data

variable [Blake3]

/-! ## Section 1: The calls and their effect on one key -/

/-- The calls of the `ObjectStoreAdmin` trait. -/
inductive AdminOp where
  | store (op : BlobOp)
  | delete (id : ChunkId)

namespace AdminOp

abbrev Value : AdminOp → Type
  | store op => op.Value
  | delete _ => Unit

def exec : (op : AdminOp) → FakeObjectStore → Res op.Value × FakeObjectStore
  | store op, s => op.exec s
  | delete id, s => s.delete id

/-- What the call leaves under `id`, when `body` was there: a successful put
    its bytes, and a delete nothing. -/
def leaves (s : FakeObjectStore) (id : ChunkId) (body : Option Bytes) : AdminOp → Option Bytes
  | store (.put id' bytes) => if id' = id ∧ (s.put id' bytes).1.isOk then some bytes else body
  | delete id' => if id' = id then none else body
  | _ => body

/-- The bodies that the call carries. -/
def bodies : AdminOp → List Bytes
  | store (.put _ bytes) => [bytes]
  | _ => []

end AdminOp

namespace FakeObjectStore

/-- The store after the calls. -/
def runAll : FakeObjectStore → List AdminOp → FakeObjectStore
  | s, [] => s
  | s, op :: rest => runAll (op.exec s).2 rest

/-- The bytes of the last successful put of `id` that no delete of `id`
    follows; `body` is what was there before the calls. -/
def lastPut (id : ChunkId) : FakeObjectStore → Option Bytes → List AdminOp → Option Bytes
  | _, body, [] => body
  | s, body, op :: rest => lastPut id (op.exec s).2 (op.leaves s id body) rest

/-! ## Section 2: One call and a whole run -/

/-- **One call** leaves under every key what it should. -/
theorem lookup_exec (op : AdminOp) (s : FakeObjectStore) (id : ChunkId) :
    (op.exec s).2.inner.lookup id = op.leaves s id (s.inner.lookup id) := by
  cases op with
  | delete id' =>
    show (s.inner.erase id').lookup id = _
    rw [Table.lookup_erase_ite]
    by_cases hid : id = id'
    · rw [if_pos hid]
      exact (if_pos hid.symm).symm
    · rw [if_neg hid]
      exact (if_neg fun h => hid h.symm).symm
  | store op =>
    cases op with
    | put id' bytes =>
      show (s.put id' bytes).2.inner.lookup id =
        if id' = id ∧ (s.put id' bytes).1.isOk then some bytes else s.inner.lookup id
      rcases put_cases s id' bytes with ⟨_, _, heq⟩ | ⟨_, hl, heq⟩ | ⟨e, _, heq⟩
      · -- the bytes are stored
        rw [heq, isOk_ok]
        dsimp only
        rw [Table.lookup_insert_ite]
        by_cases hid : id = id'
        · rw [if_pos hid, if_pos ⟨hid.symm, rfl⟩]
        · rw [if_neg hid, if_neg fun h => hid h.1.symm]
      · -- the bytes were there already
        rw [heq, isOk_ok]
        by_cases hid : id' = id
        · rw [if_pos ⟨hid, rfl⟩, ← hid]
          exact hl
        · rw [if_neg fun h => hid h.1]
      · -- the put is refused, and the store is as it was
        rw [heq, isOk_err, if_neg fun h => Bool.false_ne_true h.2]
    | _ => rfl

/-- **A whole run**: under every key is the last put. -/
theorem lookup_runAll (s : FakeObjectStore) (calls : List AdminOp) (id : ChunkId) :
    (s.runAll calls).inner.lookup id = lastPut id s (s.inner.lookup id) calls := by
  induction calls generalizing s with
  | nil => rfl
  | cons op rest ih =>
    show ((op.exec s).2.runAll rest).inner.lookup id = _
    rw [ih, lookup_exec]
    rfl

/-- Every object is stored under its own address. -/
def Addressed (s : FakeObjectStore) : Prop :=
  ∀ id obj, s.inner.lookup id = some obj → id.verify obj = true

theorem addressed_exec {s : FakeObjectStore} (h : s.Addressed) (op : AdminOp) :
    (op.exec s).2.Addressed := by
  intro id obj hl
  cases op with
  | delete id' =>
    have hl' : (s.inner.erase id').lookup id = some obj := hl
    rw [Table.lookup_erase_ite] at hl'
    by_cases hid : id = id'
    · rw [if_pos hid] at hl'
      cases hl'
    · rw [if_neg hid] at hl'
      exact h id obj hl'
  | store op =>
    have hl' : (op.exec s).2.inner.lookup id = some obj := hl
    -- only a put of bytes under their address changes the store
    rcases exec_state op s with heq | ⟨id', bytes, hv, _, heq⟩
    · rw [heq] at hl'
      exact h id obj hl'
    · rw [heq] at hl'
      dsimp only at hl'
      rw [Table.lookup_insert_ite] at hl'
      by_cases hid : id = id'
      · rw [if_pos hid] at hl'
        cases hl'
        rw [hid]
        exact hv
      · rw [if_neg hid] at hl'
        exact h id obj hl'

theorem addressed_runAll {s : FakeObjectStore} (h : s.Addressed) (calls : List AdminOp) :
    (s.runAll calls).Addressed := by
  induction calls generalizing s with
  | nil => exact h
  | cons op rest ih => exact ih (addressed_exec h op)

/-- Every body in the store was there before the calls or came with one. -/
theorem lastPut_mem {id : ChunkId} {s : FakeObjectStore} {body : Option Bytes}
    {calls : List AdminOp} {obj : Bytes} (h : lastPut id s body calls = some obj) :
    body = some obj ∨ obj ∈ calls.flatMap AdminOp.bodies := by
  induction calls generalizing s body with
  | nil => exact .inl h
  | cons op rest ih =>
    rw [List.flatMap_cons, List.mem_append]
    -- the induction is on the calls, for any store and any body before them
    rcases ih h with hleaves | hrest
    · cases op with
      | delete id' =>
        have hleaves' : (if id' = id then none else body) = some obj := hleaves
        by_cases hid : id' = id
        · rw [if_pos hid] at hleaves'
          cases hleaves'
        · rw [if_neg hid] at hleaves'
          exact .inl hleaves'
      | store op =>
        cases op with
        | put id' bytes =>
          have hleaves' : (if id' = id ∧ (s.put id' bytes).1.isOk then some bytes else body) =
              some obj := hleaves
          by_cases hput : id' = id ∧ (s.put id' bytes).1.isOk
          · rw [if_pos hput] at hleaves'
            cases hleaves'
            exact .inr (.inl (List.mem_singleton_self obj))
          · rw [if_neg hput] at hleaves'
            exact .inl hleaves'
        | _ => exact .inl hleaves
    · exact .inr (.inr hrest)

/-! ## Section 3: The store as a map of immutable objects -/

/-- Under the invariant a read never finds a mismatch. -/
theorem Addressed.get_eq {s : FakeObjectStore} (h : s.Addressed) (id : ChunkId) :
    s.get id = okOr (s.inner.lookup id) noSuchChunk := by
  unfold get
  cases hl : s.inner.lookup id with
  | none => rfl
  | some obj =>
    rw [okOr_some, ok_bind, h id obj hl]
    rfl

theorem Addressed.getRange_ne {s : FakeObjectStore} (h : s.Addressed) (id : ChunkId)
    (offset : UInt64) (length : UInt32) {e : SpaceError}
    (he : s.getRange id offset length = err e) : e.code ≠ .integrityHashMismatch := by
  have hchecks : (s.getRange id offset length).Checks fun e => e.code ≠ .integrityHashMismatch := by
    refine Checks.bind_of_eq (checks_okOr (by decide)) fun obj hobj => ?_
    refine Checks.bind_of_eq (checks_okOr (by decide)) fun stop hstop => ?_
    refine Checks.bind_of_eq (checks_rejectIf (by decide)) fun _ hle => ?_
    -- the object hashes to its key, so the third guard lets it pass
    rw [h id obj (okOr_eq_ok.mp hobj), Bool.not_true, Bool.and_false, rejectIf_false, ok_bind]
    have hsum := checkedAdd_eq_some.mp (okOr_eq_ok.mp hstop)
    have hbound : stop.toNat ≤ obj.data.length := by
      simpa [UInt64.le_iff_toNat_le] using rejectIf_eq_ok.mp hle
    rw [Bytes.slice_of_le (by omega) hbound]
    exact checks_ok _
  rw [he] at hchecks
  exact hchecks

/-- What the store after the calls answers, in terms of the history. -/
structure AnswersFrom (calls : List AdminOp) (s : FakeObjectStore) (abs : ChunkId → Option Bytes) :
    Prop where
  /-- Every object hashes to its key. -/
  addressed : ∀ id obj, s.inner.lookup id = some obj → id = ChunkId.fromBytes obj
  get : ∀ id, s.get id = okOr (abs id) noSuchChunk
  head : ∀ id, s.head id = okOr ((abs id).map Bytes.len) noSuchChunk
  stored : ∀ id, s.exists id = ok (abs id).isSome
  /-- A put of bytes under their address succeeds, and changes nothing when
      the id is in use. -/
  put : ∀ id bytes, id.verify bytes = true →
    Blake3.CollisionFree {b | b = bytes ∨ b ∈ calls.flatMap AdminOp.bodies} →
    (s.put id bytes).1 = ok () ∧ (abs id ≠ none → (s.put id bytes).2 = s)
  /-- Any other put is refused. -/
  refused : ∀ id bytes, id.verify bytes = false →
    ∃ e, e.code = .integrityChunkIdConflict ∧ s.put id bytes = (err e, s)
  /-- No read finds a mismatch. -/
  sound : ∀ e, e.code = .integrityHashMismatch → ∀ id, s.get id ≠ err e ∧
    ∀ offset length, s.getRange id offset length ≠ err e

/-- **Content-addressed storage over whole runs**: after any calls on an empty
    store, every operation answers from the history of puts and deletes. -/
theorem answersFrom_history (calls : List AdminOp) :
    AnswersFrom calls (FakeObjectStore.new.runAll calls)
      fun id => lastPut id FakeObjectStore.new none calls := by
  have hempty : FakeObjectStore.new.Addressed := Table.allRows_empty _
  have haddr := addressed_runAll hempty calls
  have hlookup : ∀ id, (FakeObjectStore.new.runAll calls).inner.lookup id =
      lastPut id FakeObjectStore.new none calls := fun id => lookup_runAll _ calls id
  constructor
  · exact fun id obj hl => ChunkId.verify_iff.mp (haddr id obj hl)
  · intro id
    rw [haddr.get_eq, hlookup]
  · intro id
    unfold FakeObjectStore.head
    rw [hlookup]
    cases lastPut id FakeObjectStore.new none calls <;> rfl
  · intro id
    unfold FakeObjectStore.exists
    rw [hlookup]
  · intro id bytes hv hfree
    rcases put_cases (FakeObjectStore.new.runAll calls) id bytes with
      ⟨_, hl, heq⟩ | ⟨_, _, heq⟩ | ⟨e, _, heq⟩
    · rw [heq, ← hlookup, hl]
      exact ⟨rfl, fun hne => absurd rfl hne⟩
    · rw [heq]
      exact ⟨rfl, fun _ => rfl⟩
    · -- the key would have to hold other bytes with the same hash
      exfalso
      unfold FakeObjectStore.put at heq
      rw [hv] at heq
      cases hl : (FakeObjectStore.new.runAll calls).inner.lookup id with
      | none =>
        rw [hl] at heq
        cases heq
      | some obj =>
        -- the other bytes came with an earlier put
        have hmem : obj ∈ calls.flatMap AdminOp.bodies := by
          rcases lastPut_mem ((hlookup id).symm.trans hl) with hnone | hmem
          · cases hnone
          · exact hmem
        have hsame : obj = bytes := hfree.eq (.inr hmem) (.inl rfl) (haddr id obj hl) hv
        rw [hl] at heq
        simp only [hsame, if_true] at heq
        cases heq
  · intro id bytes hv
    refine ⟨notAddressed, rfl, ?_⟩
    unfold FakeObjectStore.put
    rw [hv]
    rfl
  · intro e he id
    constructor
    · intro hget
      rw [haddr.get_eq] at hget
      cases hl : (FakeObjectStore.new.runAll calls).inner.lookup id with
      | none =>
        rw [hl] at hget
        cases hget
        cases he
      | some obj =>
        rw [hl] at hget
        cases hget
    · intro offset length hrange
      exact haddr.getRange_ne id offset length hrange he

end FakeObjectStore

end Space
