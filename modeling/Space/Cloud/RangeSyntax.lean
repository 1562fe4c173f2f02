import Space.Cloud.Api

/-! # The syntax of the `Range` header

    `parse_range` documents the form `bytes=<start>-<end>` with an optional
    end. It is put together from `strip_prefix`, `split_once` and
    `u64::from_str`, and the last of these has a grammar of its own.

    `RangeText` is the documented form. `parseRange_eq_some` says what is
    accepted, and `parseRange_exact_iff` on which headers the two agree. -/

namespace Space

open Rust

/-- The documented form: `bytes=`, digits, a dash, and digits or nothing.
    An omitted end is the last byte of the object, so there has to be one. -/
def RangeText (raw : String) (size start endInclusive : UInt64) : Prop :=
  ∃ s e : List Char, raw.toList = "bytes=".toList ++ (s ++ '-' :: e) ∧ Digits s start ∧
    (e = [] ∧ endInclusive.toNat + 1 = size.toNat ∨ Digits e endInclusive) ∧
      start.toNat ≤ endInclusive.toNat

/-- What the parser makes of the form: both numbers may carry a plus sign,
    and an empty object is treated as one of a single byte. -/
def LooseRangeText (raw : String) (size start endInclusive : UInt64) : Prop :=
  ∃ s e : List Char, raw.toList = "bytes=".toList ++ (s ++ '-' :: e) ∧
    Digits (stripPlus s) start ∧
      (e = [] ∧ endInclusive.toNat = max size.toNat 1 - 1 ∨ Digits (stripPlus e) endInclusive) ∧
        start.toNat ≤ endInclusive.toNat

/-! ## Section 1: What the parser accepts -/

theorem toNat_lastOf (size : UInt64) : (max size 1 - 1).toNat = max size.toNat 1 - 1 := by
  have hone := UInt64.toNat_one
  have hmax := toNat_max size 1
  rw [toNat_sub_of_le (by omega), hmax, hone]

theorem rangeEnd_eq_some {e : List Char} {size n : UInt64} : rangeEnd e size = some n ↔
    e = [] ∧ n.toNat = max size.toNat 1 - 1 ∨ Digits (stripPlus e) n := by
  unfold rangeEnd
  by_cases he : e = []
  · subst he
    have hno : ¬ Digits (stripPlus []) n := fun h => h.nonempty rfl
    rw [List.isEmpty_nil, if_pos rfl, Option.some.injEq, ← UInt64.toNat_inj, toNat_lastOf,
      or_iff_left hno, and_iff_right rfl]
    exact eq_comm
  · have hempty : ¬ e.isEmpty = true := by simpa using he
    rw [if_neg hempty, parseU64_eq_some, or_iff_right fun h => he h.1]

/-- **What the parser accepts**, and the range it reads. -/
theorem parseRange_eq_some {raw : String} {size start endInclusive : UInt64} :
    parseRange raw size = some (start, endInclusive) ↔
      LooseRangeText raw size start endInclusive := by
  unfold parseRange LooseRangeText
  simp only [Option.bind_eq_bind, Option.bind_eq_some_iff, Prod.exists]
  constructor
  · intro h
    obtain ⟨spec, hspec, s, e, hsplit, start', hstart, end', hend, hlast⟩ := h
    rw [stripPrefix_eq_some] at hspec
    obtain ⟨hspec', _⟩ := splitOnce_eq_some.mp hsplit
    split at hlast
    · cases hlast
    · rename_i hle
      cases hlast
      rw [gt_iff_lt, UInt64.not_lt, UInt64.le_iff_toNat_le] at hle
      exact ⟨s, e, by rw [hspec, hspec'], parseU64_eq_some.mp hstart, rangeEnd_eq_some.mp hend, hle⟩
  · intro h
    obtain ⟨s, e, hraw, hstart, hend, hle⟩ := h
    have hle' : ¬ start > endInclusive := by
      rw [gt_iff_lt, UInt64.not_lt, UInt64.le_iff_toNat_le]
      exact hle
    -- the first dash is the one behind the first number
    have hdash : '-' ∉ s := by
      rw [← mem_stripPlus (by decide)]
      exact hstart.notMem rfl
    exact ⟨_, stripPrefix_eq_some.mpr hraw, s, e, splitOnce_append hdash, start,
      parseU64_eq_some.mpr hstart, endInclusive, rangeEnd_eq_some.mpr hend, if_neg hle'⟩

/-! ## Section 2: Where that is the documented form -/

/-- A range whose numbers the parser reads although one has a plus sign. -/
def SignedRange (raw : String) (size : UInt64) : Prop :=
  '+' ∈ raw.toList ∧ ∃ start endInclusive, LooseRangeText raw size start endInclusive

/-- From byte 0 to the end of an object that has no bytes. -/
def OpenRangeOfNothing (raw : String) (size : UInt64) : Prop :=
  size = 0 ∧ ∃ s : List Char, raw.toList = "bytes=".toList ++ (s ++ ['-']) ∧ Digits s 0

variable {raw : String} {size start endInclusive : UInt64}

theorem RangeText.loose (h : RangeText raw size start endInclusive) :
    LooseRangeText raw size start endInclusive := by
  obtain ⟨s, e, hraw, hstart, hend, hle⟩ := h
  refine ⟨s, e, hraw, ?_, ?_, hle⟩
  · rw [stripPlus_of_notMem (hstart.notMem rfl)]
    exact hstart
  · rcases hend with ⟨he, hlast⟩ | hend
    · exact .inl ⟨he, by omega⟩
    · right
      rw [stripPlus_of_notMem (hend.notMem rfl)]
      exact hend

/-- The documented form has no plus sign. -/
theorem RangeText.unsigned (h : RangeText raw size start endInclusive) : '+' ∉ raw.toList := by
  obtain ⟨s, e, hraw, hstart, hend, _⟩ := h
  have hs : '+' ∉ s := hstart.notMem rfl
  have he : '+' ∉ e := by
    rcases hend with ⟨he, _⟩ | hend
    · simp [he]
    · exact hend.notMem rfl
  rw [hraw]
  simp [hs, he]

/-- Nothing else is accepted beyond the documented form. -/
theorem LooseRangeText.documented (h : LooseRangeText raw size start endInclusive)
    (hsign : '+' ∉ raw.toList) (hopen : ¬ OpenRangeOfNothing raw size) :
    RangeText raw size start endInclusive := by
  obtain ⟨s, e, hraw, hstart, hend, hle⟩ := h
  have hparts : '+' ∉ s ∧ '+' ∉ e := by
    rw [hraw] at hsign
    simp only [List.mem_append, List.mem_cons, not_or] at hsign
    exact ⟨hsign.2.1, hsign.2.2.2⟩
  rw [stripPlus_of_notMem hparts.1] at hstart
  rw [stripPlus_of_notMem hparts.2] at hend
  refine ⟨s, e, hraw, hstart, ?_, hle⟩
  rcases hend with ⟨he, hlast⟩ | hend
  · left
    refine ⟨he, ?_⟩
    by_cases hsize : size = 0
    · -- an open range of nothing ends at 0, so it starts there
      exfalso
      have hzero : size.toNat = 0 := by rw [hsize]; rfl
      have hstart0 : start = 0 := by
        rw [← UInt64.toNat_inj]
        show start.toNat = 0
        omega
      subst he hstart0
      exact hopen ⟨hsize, s, hraw, hstart⟩
    · have hpos : size.toNat ≠ 0 := by
        intro hzero
        exact hsize (UInt64.toNat_inj.mp hzero)
      omega
  · exact .inr hend

theorem OpenRangeOfNothing.accepted (h : OpenRangeOfNothing raw size) :
    LooseRangeText raw size 0 0 ∧ ¬ RangeText raw size 0 0 := by
  obtain ⟨hsize, s, hraw, hs⟩ := h
  subst hsize
  have hplus : stripPlus s = s := stripPlus_of_notMem (hs.notMem rfl)
  refine ⟨⟨s, [], hraw, by rw [hplus]; exact hs, .inl ⟨rfl, rfl⟩, Nat.le_refl _⟩, ?_⟩
  intro h
  obtain ⟨s', e', hraw', hs', hend', _⟩ := h
  -- the header can be split at its first dash in one way only
  have hsame : s ++ '-' :: [] = s' ++ '-' :: e' := by
    rw [hraw] at hraw'
    exact List.append_cancel_left hraw'
  have hsplit := splitOnce_append (b := []) (hs.notMem (c := '-') rfl)
  rw [hsame, splitOnce_append (hs'.notMem rfl)] at hsplit
  cases hsplit
  rcases hend' with ⟨_, hlast⟩ | hend'
  · cases hlast
  · exact hend'.nonempty rfl

/-- **On which headers the parser accepts exactly the documented form**: on
    all but those with a plus sign in front of a number and those that ask
    for an empty object from byte 0 on. -/
theorem parseRange_exact_iff (raw : String) (size : UInt64) :
    (∀ start endInclusive, parseRange raw size = some (start, endInclusive) ↔
      RangeText raw size start endInclusive) ↔
        ¬ SignedRange raw size ∧ ¬ OpenRangeOfNothing raw size := by
  constructor
  · intro h
    constructor
    · intro hsigned
      obtain ⟨hplus, start, endInclusive, hloose⟩ := hsigned
      exact ((h start endInclusive).mp (parseRange_eq_some.mpr hloose)).unsigned hplus
    · intro hopen
      obtain ⟨hloose, hno⟩ := hopen.accepted
      exact hno ((h 0 0).mp (parseRange_eq_some.mpr hloose))
  · intro h start endInclusive
    obtain ⟨hsigned, hopen⟩ := h
    rw [parseRange_eq_some]
    constructor
    · intro hloose
      refine hloose.documented ?_ hopen
      intro hplus
      exact hsigned ⟨hplus, start, endInclusive, hloose⟩
    · intro hrange
      exact hrange.loose

/-- A plus sign is accepted. -/
theorem signed_accepted : ¬ ∀ (raw : String) (size start endInclusive : UInt64),
    parseRange raw size = some (start, endInclusive) ↔
      RangeText raw size start endInclusive := by
  intro h
  have haccepted : parseRange "bytes=+1-+5" 10 = some (1, 5) := by
    decide
  exact ((h "bytes=+1-+5" 10 1 5).mp haccepted).unsigned (by decide)

/-- The first byte of an object that has none. -/
example : parseRange "bytes=0-" 0 = some (0, 0) := by decide

end Space
