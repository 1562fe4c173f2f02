import Space.Data.TextFormat
import Space.Contracts.Uuid

/-! # The texts that name a UUID

    The `uuid` crate writes a UUID in one form and documents four that it
    reads: hyphenated, simple, URN and braced, with hexadecimal digits in
    either letter case.

    * **`UuidCrate.Documented`**: the crate as it is documented.
    * **`Uuid.IsText.eq_hyphenated_iff`**: which of the texts that are read
      is the one that is written.
    * **`Uuid.ofText`**: a parser that does what is documented. -/

namespace Space

open Rust Data

/-! ## Section 1: Letter case -/

/-- The uppercase letters are those that have another lowercase letter. -/
theorem toLower_eq_self {c : Char} : c.toLower = c ↔ c.isUpper = false := by
  by_cases hrange : c.val ≥ 'A'.val ∧ c.val ≤ 'Z'.val
  · have hupper : c.isUpper = true := decide_eq_true hrange
    rw [hupper]
    constructor
    · intro h
      have hval : c.toLower.val = c.val + ('a'.val - 'A'.val) := congrArg Char.val (dif_pos hrange)
      rw [h] at hval
      exact absurd hval (by simp)
    · intro h
      cases h
  · have hupper : c.isUpper = false := decide_eq_false hrange
    rw [hupper]
    constructor
    · intro _
      rfl
    · intro _
      exact dif_neg hrange

theorem map_toLower_eq_self {t : List Char} :
    t.map Char.toLower = t ↔ ∀ c ∈ t, c.isUpper = false := by
  have hself : t.map Char.toLower = t ↔ ∀ c ∈ t, c.toLower = id c := by
    rw [← List.map_inj_left, List.map_id]
  rw [hself]
  constructor
  · intro h c hc
    exact toLower_eq_self.mp (h c hc)
  · intro h c hc
    exact toLower_eq_self.mpr (h c hc)

/-! ## Section 2: Forms -/

/-- The hexadecimal digits of a UUID, in lower case. -/
def Uuid.digits (u : Uuid) : List Char := hexPad 32 u.bits.toNat

/-- The digits without hyphens. -/
def Uuid.simple (u : Uuid) : String := String.ofList u.digits

/-- The forms that are documented for `Uuid::parse_str`. -/
inductive UuidForm where
  | simple
  | hyphenated
  | urn
  | braced
  deriving DecidableEq, Repr

namespace UuidForm

/-- What stands in front of the digits. -/
def before : UuidForm → List Char
  | simple => []
  | hyphenated => []
  | urn => "urn:uuid:".toList
  | braced => ['{']

/-- What stands behind the digits. -/
def after : UuidForm → List Char
  | simple => []
  | hyphenated => []
  | urn => []
  | braced => ['}']

/-- The digits as the form groups them, in lower case. -/
def lower (u : Uuid) : UuidForm → List Char
  | simple => u.digits
  | hyphenated => hyphenate u.digits
  | urn => hyphenate u.digits
  | braced => hyphenate u.digits

/-- The length of a text of the form. -/
def length : UuidForm → Nat
  | simple => 32
  | hyphenated => 36
  | urn => 45
  | braced => 38

/-- The form of a text is decided by its length. -/
def ofLength : Nat → Option UuidForm
  | 32 => some simple
  | 36 => some hyphenated
  | 45 => some urn
  | 38 => some braced
  | _ => none

@[simp] theorem before_simple : before simple = [] := rfl

@[simp] theorem after_simple : after simple = [] := rfl

@[simp] theorem before_hyphenated : before hyphenated = [] := rfl

@[simp] theorem after_hyphenated : after hyphenated = [] := rfl

end UuidForm

/-- The text is the UUID in this form, each digit in either case. -/
def Uuid.IsText (u : Uuid) (form : UuidForm) (s : List Char) : Prop :=
  ∃ t, s = form.before ++ t ++ form.after ∧ t.map Char.toLower = form.lower u

/-- The text is a UUID in one of the forms. -/
def IsUuidText (s : List Char) : Prop := ∃ u form, Uuid.IsText u form s

/-- **The `uuid` crate as it is documented**: `Display` writes the hyphenated
    form in lower case, and `parse_str` accepts the four forms, with digits
    in either case, and nothing else. -/
structure UuidCrate.Documented [UuidCrate] : Prop where
  display : ∀ u, UuidCrate.display u = u.hyphenated
  parse : ∀ s u, UuidCrate.parseStr s = some u ↔ ∃ form, u.IsText form s.toList

/-! ## Section 3: The form that is written -/

theorem Uuid.length_digits (u : Uuid) : u.digits.length = 32 := length_hexPad 32 _

theorem Uuid.toList_hyphenated (u : Uuid) : u.hyphenated.toList = hyphenate u.digits :=
  String.toList_ofList

theorem Uuid.toList_simple (u : Uuid) : u.simple.toList = u.digits := String.toList_ofList

theorem UuidForm.length_lower (u : Uuid) (form : UuidForm) :
    form.before.length + (form.lower u).length + form.after.length = form.length := by
  have hhyphens : (hyphenate u.digits).length = 36 := length_hyphenate u.length_digits
  cases form with
  | simple =>
    show 0 + u.digits.length + 0 = 32
    rw [u.length_digits]
  | hyphenated =>
    show 0 + (hyphenate u.digits).length + 0 = 36
    rw [hhyphens]
  | urn =>
    show 9 + (hyphenate u.digits).length + 0 = 45
    rw [hhyphens]
  | braced =>
    show 1 + (hyphenate u.digits).length + 1 = 38
    rw [hhyphens]

theorem UuidForm.isUuidChar_of_mem_lower (form : UuidForm) {u : Uuid} {c : Char}
    (h : c ∈ form.lower u) : IsUuidChar c := by
  cases form with
  | simple => exact .inr (mem_hexPad h)
  | hyphenated => exact (mem_hyphenate h).imp_right mem_hexPad
  | urn => exact (mem_hyphenate h).imp_right mem_hexPad
  | braced => exact (mem_hyphenate h).imp_right mem_hexPad

/-- No two forms have texts of the same length. -/
theorem UuidForm.ofLength_eq_some {n : Nat} {form : UuidForm} :
    ofLength n = some form ↔ n = form.length := by
  constructor
  · intro h
    unfold ofLength at h
    split at h <;> cases h <;> rfl
  · intro h
    rw [h]
    cases form <;> rfl

theorem UuidForm.length_injective {form form' : UuidForm} (h : form.length = form'.length) :
    form = form' := by
  have hform := ofLength_eq_some.mpr (rfl : form.length = form.length)
  rw [ofLength_eq_some.mpr h] at hform
  exact (Option.some.inj hform).symm

/-- The digits have no uppercase letters. -/
theorem Uuid.isUpper_digits (u : Uuid) {c : Char} (h : c ∈ u.digits) : c.isUpper = false := by
  have hdigit : ∀ d < 16, (Nat.digitChar d).isUpper = false := by decide
  have hdigits : ∀ c ∈ u.digits, c.isUpper = false := forall_mem_hexPad hdigit 32 _
  exact hdigits c h

theorem Uuid.isUpper_hyphenated (u : Uuid) {c : Char} (h : c ∈ u.hyphenated.toList) :
    c.isUpper = false := by
  rw [u.toList_hyphenated] at h
  rcases mem_hyphenate h with rfl | hdigit
  · rfl
  · exact u.isUpper_digits hdigit

namespace Uuid.IsText

variable {u : Uuid} {form : UuidForm} {s : List Char}

theorem length (h : u.IsText form s) : s.length = form.length := by
  obtain ⟨t, hs, ht⟩ := h
  have hlen : t.length = (form.lower u).length := by rw [← ht, List.length_map]
  rw [hs, List.length_append, List.length_append, hlen]
  exact form.length_lower u

/-- What is written is a text. -/
theorem hyphenated (u : Uuid) : u.IsText .hyphenated u.hyphenated.toList := by
  refine ⟨u.hyphenated.toList, by simp, ?_⟩
  rw [map_toLower_eq_self.mpr fun c hc => u.isUpper_hyphenated hc]
  exact u.toList_hyphenated

/-- So are the digits without hyphens. -/
theorem simple (u : Uuid) : u.IsText .simple u.simple.toList := by
  rw [u.toList_simple]
  refine ⟨u.digits, by simp, ?_⟩
  rw [map_toLower_eq_self.mpr fun c hc => u.isUpper_digits hc]
  rfl

/-- **The text that is written**, of all those that are read: it has the
    length of the hyphenated form and no uppercase letter. -/
theorem eq_hyphenated_iff (h : u.IsText form s) :
    s = u.hyphenated.toList ↔ s.length = 36 ∧ ∀ c ∈ s, c.isUpper = false := by
  constructor
  · intro hs
    rw [hs]
    exact ⟨(hyphenated u).length, fun c hc => u.isUpper_hyphenated hc⟩
  · intro hs
    obtain ⟨hlen, hcase⟩ := hs
    have hform : form = .hyphenated := by
      apply UuidForm.length_injective
      rw [← h.length, hlen]
      rfl
    obtain ⟨t, hst, ht⟩ := h
    rw [hform] at hst ht
    have hsame : s = t := by simpa using hst
    rw [← hsame, map_toLower_eq_self.mpr hcase] at ht
    rw [ht, u.toList_hyphenated]
    rfl

/-- A character that is neither a digit nor part of what stands around them
    is not in a text. -/
theorem notMem (h : u.IsText form s) {c : Char} (hbefore : c ∉ form.before)
    (hafter : c ∉ form.after) (hc : ¬ IsUuidChar c.toLower) : c ∉ s := by
  obtain ⟨t, hs, ht⟩ := h
  intro hmem
  rw [hs, List.mem_append, List.mem_append] at hmem
  rcases hmem with (hmem | hmem) | hmem
  · exact hbefore hmem
  · apply hc
    have hlower : c.toLower ∈ form.lower u := by
      rw [← ht]
      exact List.mem_map_of_mem hmem
    exact form.isUuidChar_of_mem_lower hlower
  · exact hafter hmem

end Uuid.IsText

/-! ## Section 4: A parser of the forms -/

namespace UuidForm

/-- The text between what stands in front of the digits and what stands
    behind them. -/
def unwrap (form : UuidForm) (s : List Char) : Option (List Char) := do
  let rest ← stripPrefix form.before s
  let back ← stripPrefix form.after.reverse rest.reverse
  return back.reverse

/-- The UUID that a text of the form names. -/
def read (form : UuidForm) (s : List Char) : Option Uuid := do
  let t ← form.unwrap s
  let n ← parseHex 0 ((t.map Char.toLower).filter (· != '-'))
  let u : Uuid := ⟨BitVec.ofNat 128 n⟩
  if t.map Char.toLower = form.lower u then some u else none

theorem unwrap_eq_some {form : UuidForm} {s t : List Char} :
    form.unwrap s = some t ↔ s = form.before ++ t ++ form.after := by
  unfold unwrap
  simp only [Option.bind_eq_bind, Option.bind_eq_some_iff, stripPrefix_eq_some, Option.pure_def,
    Option.some.injEq]
  constructor
  · intro h
    obtain ⟨rest, hs, back, hback, ht⟩ := h
    rw [hs, ← List.reverse_reverse rest, hback, ← ht]
    simp
  · intro h
    exact ⟨t ++ form.after, by rw [h, List.append_assoc], t.reverse, by simp, by simp⟩

/-- The digits are what is left of a form without its hyphens. -/
theorem filter_lower (form : UuidForm) (u : Uuid) :
    (form.lower u).filter (· != '-') = u.digits := by
  have hno : '-' ∉ u.digits := hyphen_notMem_hexPad 32 _
  cases form with
  | simple => exact filter_of_hyphen_notMem hno
  | hyphenated => exact filter_hyphenate hno
  | urn => exact filter_hyphenate hno
  | braced => exact filter_hyphenate hno

theorem read_eq_some {form : UuidForm} {s : List Char} {u : Uuid} :
    form.read s = some u ↔ u.IsText form s := by
  unfold read Uuid.IsText
  simp only [Option.bind_eq_bind, Option.bind_eq_some_iff, unwrap_eq_some]
  refine exists_congr fun t => and_congr_right fun _ => ?_
  constructor
  · intro h
    obtain ⟨n, _, h⟩ := h
    split at h
    · rename_i ht
      cases h
      exact ht
    · cases h
  · intro ht
    refine ⟨u.bits.toNat, ?_, ?_⟩
    · rw [ht, filter_lower]
      exact u.parseHex_digits
    · have hu : (⟨BitVec.ofNat 128 u.bits.toNat⟩ : Uuid) = u := by rw [BitVec.ofNat_toNat]; simp
      rw [hu, if_pos ht]

end UuidForm

/-- `Uuid::parse_str`, as it is documented. -/
def Uuid.ofText (s : String) : Option Uuid :=
  (UuidForm.ofLength s.toList.length).bind fun form => form.read s.toList

theorem Uuid.ofText_eq_some {s : String} {u : Uuid} :
    Uuid.ofText s = some u ↔ ∃ form, u.IsText form s.toList := by
  unfold Uuid.ofText
  rw [Option.bind_eq_some_iff]
  refine exists_congr fun form => ?_
  rw [UuidForm.ofLength_eq_some, UuidForm.read_eq_some]
  exact and_iff_right_of_imp Uuid.IsText.length

/-! ## Section 5: The format -/

namespace UuidCrate.Documented

variable [UuidCrate] (h : UuidCrate.Documented)

include h

/-- What is documented covers what the rest of the development relies on. -/
theorem lawful : UuidCrate.Lawful where
  display := h.display
  parse u := (h.parse _ u).mpr ⟨.hyphenated, Uuid.IsText.hyphenated u⟩

end UuidCrate.Documented

/-- UUIDs as texts. -/
def UuidCrate.Documented.format [UuidCrate] (h : UuidCrate.Documented) : TextFormat Uuid where
  read := UuidCrate.parseStr
  write := UuidCrate.display
  read_write u := by
    rw [h.display]
    exact h.lawful.parse u

/-- A UUID is canonical without uppercase letters and in the hyphenated
    form. -/
def StrictUuidText (s : List Char) : Prop :=
  IsUuidText s → s.length = 36 ∧ ∀ c ∈ s, c.isUpper = false

theorem UuidCrate.Documented.canonical_iff [UuidCrate] (h : UuidCrate.Documented) {s : String} :
    h.format.Canonical s ↔ StrictUuidText s.toList := by
  constructor
  · intro hs htext
    obtain ⟨u, form, hu⟩ := htext
    have hwrite : UuidCrate.display u = s := hs u ((h.parse s u).mpr ⟨form, hu⟩)
    rw [h.display] at hwrite
    apply hu.eq_hyphenated_iff.mp
    rw [hwrite]
  · intro hs u hread
    obtain ⟨form, hu⟩ := (h.parse s u).mp hread
    have heq : s.toList = u.hyphenated.toList := hu.eq_hyphenated_iff.mpr (hs ⟨u, form, hu⟩)
    show UuidCrate.display u = s
    rw [h.display]
    exact (String.toList_injective heq).symm

namespace Sample

/-- The `uuid` crate, as it is documented. -/
@[reducible] def documentedUuids : UuidCrate where
  parseStr := Uuid.ofText
  display := Uuid.hyphenated

theorem documentedUuids_documented :
    letI := documentedUuids
    UuidCrate.Documented :=
  letI := documentedUuids
  ⟨fun _ => rfl, fun _ _ => Uuid.ofText_eq_some⟩

end Sample

end Space
