import Space.ObjectStore

/-! # Reading, also from damaged storage

    `get` checks the hash first and `get_range` the bounds, and `get_range`
    checks the hash only of a read that covers the object as it is now. So
    the two agree on a read of the whole object, whatever has happened to it:
    put, delete and the test hooks can leave any bytes under any id, and
    nothing below assumes how the store came about. -/

namespace Space

open Rust Outcome Data

/-- Each range starts where the one before it ended, from `a` to `b`. -/
def Consecutive (a b : Nat) : List (UInt64 × UInt32) → Prop
  | [] => a = b
  | (offset, length) :: rest => offset.toNat = a ∧ Consecutive (a + length.toNat) b rest

theorem Consecutive.le {a b : Nat} {ranges : List (UInt64 × UInt32)}
    (h : Consecutive a b ranges) : a ≤ b := by
  induction ranges generalizing a with
  | nil => exact Nat.le_of_eq h
  | cons r rest ih => exact Nat.le_of_add_right_le (ih h.2)

namespace FakeObjectStore

variable [Blake3] {s : FakeObjectStore} {id : ChunkId} {obj : Bytes}

/-! ## Section 1: Whole reads -/

/-- What was put is read back. -/
theorem get_put {bytes : Bytes} (h : (s.put id bytes).1 = ok ()) :
    (s.put id bytes).2.get id = ok bytes := by
  rcases put_cases s id bytes with ⟨hv, _, heq⟩ | ⟨hv, hl, heq⟩ | ⟨e, _, heq⟩
  · rw [heq]
    exact get_eq_ok.mpr ⟨Finmap.lookup_insert _, hv⟩
  · rw [heq]
    exact get_eq_ok.mpr ⟨hl, hv⟩
  · rw [heq] at h
    cases h

/-- **The two read paths agree on the whole object**, with the same bytes or
    the same error. -/
theorem getRange_whole {size : UInt64} (h : s.head id = ok size) (hsize : size.toNat < 2 ^ 32) :
    s.getRange id 0 size.toUInt32 = s.get id := by
  obtain ⟨obj, hl, rfl⟩ := head_eq_ok.mp h
  have hlen : obj.len.toNat = obj.data.length := obj.toNat_len
  -- the cast loses nothing, so the range is the whole object
  have hcast : obj.len.toUInt32.toNat = obj.data.length := by
    rw [UInt64.toNat_toUInt32, hlen, Nat.mod_eq_of_lt (hlen ▸ hsize)]
  have hback : obj.len.toUInt32.toUInt64 = obj.len := by
    rw [← UInt64.toNat_inj, hlen]
    exact hcast
  cases hv : id.verify obj with
  | true =>
    have hget : s.get id = ok obj := get_eq_ok.mpr ⟨hl, hv⟩
    have hzero : (0 : UInt64).toNat = 0 := rfl
    rw [hget]
    apply getRange_eq_ok.mpr
    refine ⟨obj, hl, ?_, fun _ _ => hv, ?_⟩
    · rw [hcast, hzero, Nat.zero_add]
    · rw [hcast, hzero, Nat.zero_add, obj.cut_all]
  | false =>
    -- the bounds are met, so both paths come to the hash
    have hsum : checkedAdd 0 obj.len = some obj.len := by
      apply checkedAdd_eq_some.mpr
      rw [show (0 : UInt64).toNat = 0 from rfl, Nat.zero_add]
    have hget : s.get id = err hashMismatch := by
      unfold get
      rw [hl, okOr_some, ok_bind, hv]
      rfl
    rw [hget]
    unfold getRange
    rw [hl, okOr_some, ok_bind, hback, hsum, okOr_some, ok_bind, hv]
    simp

/-! ## Section 2: Range reads -/

/-- Any range inside an undamaged object is read. -/
theorem getRange_inside (hl : s.inner.lookup id = some obj) (hv : id.verify obj = true)
    {offset : UInt64} {length : UInt32} (h : offset.toNat + length.toNat ≤ obj.data.length) :
    s.getRange id offset length =
      ok (obj.cut offset.toNat (offset.toNat + length.toNat)) :=
  getRange_eq_ok.mpr ⟨obj, hl, h, fun _ _ => hv, rfl⟩

/-- A range read whose length was cast to `u32`: it returns bytes of the length
    that was meant only when the cast lost nothing. -/
theorem getRange_cast (hl : s.inner.lookup id = some obj) {offset length : UInt64} {n : UInt32}
    (hn : n.toNat = length.toNat % 2 ^ 32) {bytes : Bytes} :
    (s.getRange id offset n = ok bytes ∧ bytes.data.length = length.toNat) ↔
      length.toNat < 2 ^ 32 ∧ offset.toNat + length.toNat ≤ obj.data.length ∧
        (offset = 0 → length.toNat = obj.data.length → id.verify obj = true) ∧
          bytes = obj.cut offset.toNat (offset.toNat + length.toNat) := by
  constructor
  · intro h
    obtain ⟨hread, hlen⟩ := h
    obtain ⟨obj', hobj', hbound, hwhole, rfl⟩ := getRange_eq_ok.mp hread
    rw [hl] at hobj'
    cases hobj'
    rw [Bytes.length_cut hbound] at hlen
    have hn' : n.toNat = length.toNat := by omega
    rw [hn'] at hbound hwhole
    exact ⟨hn' ▸ n.toNat_lt, hbound, hwhole, by rw [hn']⟩
  · rintro ⟨hshort, hbound, hwhole, rfl⟩
    rw [Nat.mod_eq_of_lt hshort] at hn
    constructor
    · exact getRange_eq_ok.mpr ⟨obj, hl, by omega, by rw [hn]; exact hwhole, by rw [hn]⟩
    · rw [Bytes.length_cut hbound]
      omega

/-- **Consecutive ranges are put together to the object.** -/
theorem getRange_pieces (hl : s.inner.lookup id = some obj) (hv : id.verify obj = true) {a : Nat}
    {ranges : List (UInt64 × UInt32)} (h : Consecutive a obj.data.length ranges) :
    ∃ parts, ranges.mapM (fun r => s.getRange id r.1 r.2) = ok parts ∧
      parts.flatMap Bytes.data = obj.data.drop a := by
  induction ranges generalizing a with
  | nil =>
    refine ⟨[], rfl, ?_⟩
    have ha : a = obj.data.length := h
    rw [ha, List.drop_length]
    rfl
  | cons r rest ih =>
    obtain ⟨offset, length⟩ := r
    obtain ⟨rfl, hrest⟩ := h
    obtain ⟨parts, hparts, hdata⟩ := ih hrest
    have hread := getRange_inside hl hv hrest.le
    refine ⟨obj.cut offset.toNat (offset.toNat + length.toNat) :: parts, ?_, ?_⟩
    · rw [List.mapM_cons, hread, ok_bind, hparts, ok_bind]
      rfl
    · rw [List.flatMap_cons, hdata]
      -- the piece in front is what the drop leaves out
      show obj.data.extract offset.toNat (offset.toNat + length.toNat) ++ _ = _
      rw [List.extract_eq_take_drop, Nat.add_sub_cancel_left, ← List.drop_drop,
        List.take_append_drop]

/-- A range that ends past the object is an error, and never a short read. -/
theorem getRange_past (hl : s.inner.lookup id = some obj) {offset : UInt64} {length : UInt32}
    (h : obj.data.length < offset.toNat + length.toNat) :
    ∃ e, s.getRange id offset length = err e ∧
      e.code = if offset.toNat + length.toNat < 2 ^ 64 then .integrityLengthMismatch
        else .invalidParameter := by
  have hcast : length.toUInt64.toNat = length.toNat := rfl
  by_cases hlt : offset.toNat + length.toNat < 2 ^ 64
  · obtain ⟨stop, hstop⟩ : ∃ stop, checkedAdd offset length.toUInt64 = some stop :=
      ⟨_, checkedAdd_eq_some.mpr (toNat_add_of_lt hlt)⟩
    have hgt : decide (stop > obj.len) = true := by
      have hval := checkedAdd_eq_some.mp hstop
      rw [decide_eq_true_eq, gt_iff_lt, UInt64.lt_iff_toNat_lt, hval, hcast, Bytes.toNat_len]
      exact h
    refine ⟨SpaceError.new .integrityLengthMismatch "requested range extends past the object", ?_,
      (if_pos hlt).symm⟩
    unfold getRange
    rw [hl, okOr_some, ok_bind, hstop, okOr_some, ok_bind, hgt]
    rfl
  · -- the end of the range does not fit in `u64`
    have hnone : checkedAdd offset length.toUInt64 = none := by
      unfold checkedAdd
      exact if_neg hlt
    refine ⟨SpaceError.invalidParam "offset + length overflow", ?_, (if_neg hlt).symm⟩
    unfold getRange
    rw [hl, okOr_some, ok_bind, hnone]
    rfl

/-! ## Section 3: Reads can be trusted -/

/-- What the reads of a store promise. -/
structure Trustworthy (s : FakeObjectStore) : Prop where
  /-- A successful put is read back. -/
  put : ∀ id bytes, (s.put id bytes).1 = ok () → (s.put id bytes).2.get id = ok bytes
  /-- What `get` returns has the address it was asked for. -/
  verified : ∀ id bytes, s.get id = ok bytes → id.verify bytes = true
  /-- The two read paths agree on the whole object. -/
  whole : ∀ id size, s.head id = ok size → size.toNat < 2 ^ 32 →
    s.getRange id 0 size.toUInt32 = s.get id
  /-- An undamaged object may be read in pieces. -/
  pieces : ∀ id obj, s.inner.lookup id = some obj → id.verify obj = true →
    ∀ ranges, Consecutive 0 obj.data.length ranges →
      ∃ parts, ranges.mapM (fun r => s.getRange id r.1 r.2) = ok parts ∧
        ∃ all, s.get id = ok all ∧ all.data = parts.flatMap Bytes.data
  /-- A range that ends past the object is an error. -/
  past : ∀ id obj, s.inner.lookup id = some obj → ∀ (offset : UInt64) (length : UInt32),
    obj.data.length < offset.toNat + length.toNat →
      ∃ e, s.getRange id offset length = err e ∧
        e.code = if offset.toNat + length.toNat < 2 ^ 64 then .integrityLengthMismatch
          else .invalidParameter

/-- **Whole reads are trustworthy and the two read paths agree**, in every
    store: also in one that the test hooks have damaged. -/
theorem reads_trustworthy (s : FakeObjectStore) : s.Trustworthy := by
  constructor
  · exact fun id bytes h => get_put h
  · exact fun id bytes h => (get_eq_ok.mp h).2
  · exact fun id size h hsize => getRange_whole h hsize
  · intro id obj hl hv ranges h
    obtain ⟨parts, hparts, hdata⟩ := getRange_pieces hl hv h
    exact ⟨parts, hparts, obj, get_eq_ok.mpr ⟨hl, hv⟩, hdata.symm⟩
  · exact fun id obj hl offset length h => getRange_past hl h

end FakeObjectStore

end Space
