import Space.Rust.Outcome
import Mathlib.Algebra.Ring.Nat

/-! # Machine words and byte buffers

    `u64` arithmetic as the language defines it: `checked_add` answers
    `None` on overflow, the plain operators must not overflow, and `as u32`
    drops the high bits. `usize` has 64 bits.

    A byte buffer never holds more than `isize::MAX` bytes; that bound is a
    field of `Bytes`, so no later proof has to re-establish it. -/

namespace Rust

variable {ε : Type}

/-! ## Section 1: `u64` -/

/-- `u64::checked_add`. -/
def checkedAdd (a b : UInt64) : Option UInt64 :=
  if a.toNat + b.toNat < 2 ^ 64 then some (a + b) else none

/-- `a + b` on `u64`. A debug build panics on overflow and a release build
    wraps; either way the sum is lost, and the model stops. -/
def addU64 (a b : UInt64) : Outcome ε UInt64 :=
  if a.toNat + b.toNat < 2 ^ 64 then .ok (a + b) else .panic

/-- `a - b` on `u64`, with underflow treated as overflow is in `addU64`. -/
def subU64 (a b : UInt64) : Outcome ε UInt64 :=
  if b.toNat ≤ a.toNat then .ok (a - b) else .panic

/-- `u64::saturating_sub`. -/
def satSubU64 (a b : UInt64) : UInt64 :=
  if b.toNat ≤ a.toNat then a - b else 0

theorem toNat_add_of_lt {a b : UInt64} (h : a.toNat + b.toNat < 2 ^ 64) :
    (a + b).toNat = a.toNat + b.toNat := by
  rw [UInt64.toNat_add, Nat.mod_eq_of_lt h]

theorem eq_zero_iff_toNat {a : UInt64} : a = 0 ↔ a.toNat = 0 := by
  rw [← UInt64.toNat_inj, UInt64.toNat_zero]

theorem toNat_sub_of_le {a b : UInt64} (h : b.toNat ≤ a.toNat) :
    (a - b).toNat = a.toNat - b.toNat :=
  UInt64.toNat_sub_of_le a b (UInt64.le_iff_toNat_le.mpr h)

theorem toNat_min (a b : UInt64) : (min a b).toNat = min a.toNat b.toNat := by
  by_cases h : a ≤ b
  · have hmin : min a b = a := if_pos h
    rw [hmin, Nat.min_eq_left (UInt64.le_iff_toNat_le.mp h)]
  · have hmin : min a b = b := if_neg h
    rw [UInt64.le_iff_toNat_le] at h
    rw [hmin, Nat.min_eq_right (by omega)]

theorem toNat_max (a b : UInt64) : (max a b).toNat = max a.toNat b.toNat := by
  by_cases h : a ≤ b
  · have hmax : max a b = b := if_pos h
    rw [hmax, Nat.max_eq_right (UInt64.le_iff_toNat_le.mp h)]
  · have hmax : max a b = a := if_neg h
    rw [UInt64.le_iff_toNat_le] at h
    rw [hmax, Nat.max_eq_left (by omega)]

/-- Taking off a part does not underflow. -/
theorem toNat_sub_min (a b : UInt64) : (a - min a b).toNat = a.toNat - min a.toNat b.toNat := by
  rw [toNat_sub_of_le (by rw [toNat_min]; omega), toNat_min]

theorem checkedAdd_eq_some {a b c : UInt64} :
    checkedAdd a b = some c ↔ c.toNat = a.toNat + b.toNat := by
  unfold checkedAdd
  split
  · rename_i h
    rw [Option.some.injEq, ← UInt64.toNat_inj, toNat_add_of_lt h]
    exact eq_comm
  · rename_i h
    have hc := c.toNat_lt
    constructor
    · intro hn
      cases hn
    · intro hc'
      omega

/-- A checked sum with a property: the exact sum fits and has it. -/
theorem exists_checkedAdd {a b : UInt64} (P : Nat → Prop) :
    (∃ c, checkedAdd a b = some c ∧ P c.toNat) ↔
      a.toNat + b.toNat < 2 ^ 64 ∧ P (a.toNat + b.toNat) := by
  constructor
  · intro ⟨c, hc, hP⟩
    rw [checkedAdd_eq_some] at hc
    exact ⟨hc ▸ c.toNat_lt, hc ▸ hP⟩
  · intro ⟨hlt, hP⟩
    have hsum := toNat_add_of_lt hlt
    exact ⟨a + b, checkedAdd_eq_some.mpr hsum, hsum ▸ hP⟩

theorem addU64_of_lt {a b : UInt64} (h : a.toNat + b.toNat < 2 ^ 64) :
    (addU64 a b : Outcome ε UInt64) = .ok (a + b) :=
  if_pos h

theorem subU64_of_le {a b : UInt64} (h : b.toNat ≤ a.toNat) :
    (subU64 a b : Outcome ε UInt64) = .ok (a - b) :=
  if_pos h

/-! ## Section 2: Byte buffers -/

/-- `isize::MAX`, the largest number of bytes a Rust allocation can have. -/
def isizeMax : Nat := 2 ^ 63 - 1

theorem isizeMax_lt : isizeMax < 2 ^ 64 := by decide

/-- A byte buffer: `Vec<u8>`, `bytes::Bytes` or a borrowed `&[u8]`. -/
structure Bytes where
  data : List UInt8
  length_le : data.length ≤ isizeMax
  deriving DecidableEq

namespace Bytes

@[ext] theorem ext {a b : Bytes} (h : a.data = b.data) : a = b := by
  cases a
  cases b
  cases h
  rfl

def empty : Bytes := ⟨[], Nat.zero_le _⟩

instance : Inhabited Bytes := ⟨empty⟩

/-- `b.len() as u64`. -/
def len (b : Bytes) : UInt64 := UInt64.ofNat b.data.length

theorem length_lt (b : Bytes) : b.data.length < 2 ^ 64 :=
  Nat.lt_of_le_of_lt b.length_le isizeMax_lt

@[simp] theorem toNat_len (b : Bytes) : b.len.toNat = b.data.length :=
  UInt64.toNat_ofNat_of_lt' b.length_lt

/-- `vec![0u8; n as usize]`. The allocation panics with "capacity overflow"
    above `isize::MAX`. -/
def zeroed (n : UInt64) : Outcome ε Bytes :=
  if h : n.toNat ≤ isizeMax then
    .ok ⟨List.replicate n.toNat 0, by rw [List.length_replicate]; exact h⟩
  else .panic

/-- The bytes `b[lo..hi]`, for bounds already known to be in range. -/
def cut (b : Bytes) (lo hi : Nat) : Bytes :=
  ⟨b.data.extract lo hi, by
    have := b.length_le
    simp only [List.extract_eq_take_drop, List.length_take, List.length_drop]
    omega⟩

/-- `b[lo..hi]`; an index out of range panics. -/
def slice (b : Bytes) (lo hi : UInt64) : Outcome ε Bytes :=
  if lo.toNat ≤ hi.toNat ∧ hi.toNat ≤ b.data.length then
    .ok (b.cut lo.toNat hi.toNat)
  else .panic

/-- `out` with the bytes from `i` on replaced by `src`, for `src` known to fit. -/
def overwrite (out : Bytes) (i : Nat) (src : Bytes) (h : i + src.data.length ≤ out.data.length) :
    Bytes :=
  ⟨out.data.take i ++ src.data ++ out.data.drop (i + src.data.length), by
    have := out.length_le
    simp only [List.length_append, List.length_take, List.length_drop]
    omega⟩

/-- `out[i..i + src.len()].copy_from_slice(&src)`. The sum must not
    overflow and the range must lie inside `out`. -/
def copyInto (out : Bytes) (i : UInt64) (src : Bytes) : Outcome ε Bytes :=
  if h : i.toNat + src.data.length ≤ out.data.length then
    .ok (out.overwrite i.toNat src h)
  else .panic

/-- `v[i] ^= 0xFF`, when there is a byte at `i`. -/
def flip (b : Bytes) (i : Nat) : Bytes :=
  ⟨b.data.modify i (· ^^^ 0xFF), by
    rw [List.length_modify]
    exact b.length_le⟩

/-- `Vec::truncate`. -/
def truncate (b : Bytes) (n : Nat) : Bytes :=
  ⟨b.data.take n, Nat.le_trans (List.length_take_le' n b.data) b.length_le⟩

theorem zeroed_of_le {n : UInt64} (h : n.toNat ≤ isizeMax) :
    ∃ b, (zeroed n : Outcome ε Bytes) = .ok b ∧ b.data = List.replicate n.toNat 0 := by
  unfold zeroed
  rw [dif_pos h]
  exact ⟨_, rfl, rfl⟩

theorem data_of_zeroed {n : UInt64} {b : Bytes} (h : (zeroed n : Outcome ε Bytes) = .ok b) :
    b.data = List.replicate n.toNat 0 := by
  unfold zeroed at h
  split at h
  · cases h
    rfl
  · cases h

theorem zeroed_of_gt {n : UInt64} (h : isizeMax < n.toNat) :
    (zeroed n : Outcome ε Bytes) = .panic :=
  dif_neg (Nat.not_le.mpr h)

theorem length_cut {b : Bytes} {lo hi : Nat} (hhi : hi ≤ b.data.length) :
    (b.cut lo hi).data.length = hi - lo := by
  simp only [cut, List.extract_eq_take_drop, List.length_take, List.length_drop]
  omega

theorem cut_all (b : Bytes) : b.cut 0 b.data.length = b := by
  ext1
  simp [cut]

theorem slice_of_le {b : Bytes} {lo hi : UInt64} (hlo : lo.toNat ≤ hi.toNat)
    (hhi : hi.toNat ≤ b.data.length) :
    (b.slice lo hi : Outcome ε Bytes) = .ok (b.cut lo.toNat hi.toNat) :=
  if_pos ⟨hlo, hhi⟩

theorem copyInto_of_le {out src : Bytes} {i : UInt64}
    (h : i.toNat + src.data.length ≤ out.data.length) :
    (out.copyInto i src : Outcome ε Bytes) = .ok (out.overwrite i.toNat src h) :=
  dif_pos h

theorem length_flip (b : Bytes) (i : Nat) : (b.flip i).data.length = b.data.length :=
  List.length_modify _ _ _

theorem length_truncate_le (b : Bytes) (n : Nat) :
    (b.truncate n).data.length ≤ b.data.length :=
  List.length_take_le' n b.data

/-- A flip shows in every cut that starts at it. -/
theorem cut_flip_ne {b : Bytes} {lo hi : Nat} (hlo : lo < hi) (hhi : hi ≤ b.data.length) :
    (b.flip lo).cut lo hi ≠ b.cut lo hi := by
  intro h
  have hfirst : ((b.flip lo).cut lo hi).data[0]? = (b.cut lo hi).data[0]? := by rw [h]
  have hlt : lo < b.data.length := by omega
  simp only [cut, flip, List.extract_eq_take_drop, List.getElem?_take, List.getElem?_drop,
    Nat.add_zero, List.getElem?_modify_eq, List.getElem?_eq_getElem hlt] at hfirst
  rw [if_pos (by omega), if_pos (by omega)] at hfirst
  have hbyte : b.data[lo] ^^^ 0xFF = b.data[lo] ^^^ 0 := by
    rw [UInt8.xor_zero]
    exact Option.some.inj hfirst
  exact absurd ((UInt8.xor_right_inj _).mp hbyte) (by decide)

theorem length_overwrite {out src : Bytes} {i : Nat}
    (h : i + src.data.length ≤ out.data.length) :
    (out.overwrite i src h).data.length = out.data.length := by
  show (out.data.take i ++ src.data ++ out.data.drop (i + src.data.length)).length = _
  simp only [List.length_append, List.length_take, List.length_drop]
  omega

/-- What a write leaves in place, and what it puts behind it. -/
theorem take_overwrite {out src : Bytes} {i : Nat}
    (h : i + src.data.length ≤ out.data.length) :
    (out.overwrite i src h).data.take (i + src.data.length) = out.data.take i ++ src.data := by
  have hlen : (out.data.take i ++ src.data).length = i + src.data.length := by
    rw [List.length_append, List.length_take]
    omega
  show (out.data.take i ++ src.data ++ out.data.drop (i + src.data.length)).take _ = _
  rw [← hlen, List.take_left]

/-- Writing to the front of the zeros that end a buffer. -/
theorem overwrite_zeros {out src : Bytes} {done : List UInt8} {i k : Nat}
    {h : i + src.data.length ≤ out.data.length} (hi : i = done.length)
    (hout : out.data = done ++ List.replicate k 0) :
    (out.overwrite i src h).data =
      done ++ src.data ++ List.replicate (k - src.data.length) 0 := by
  subst hi
  show out.data.take done.length ++ src.data ++ out.data.drop (done.length + src.data.length) = _
  rw [hout, List.take_left, List.drop_length_add_append, List.drop_replicate]

end Bytes

end Rust
