import Space.Rust.Word

/-! # Text

    The few string functions a hand-written parser is made of, on lists of
    characters: `strip_prefix`, `split_once`, `u64::from_str` and the
    decimal `Display` of a `u64`. The law every encoder relies on is that a
    printed number parses back (`parseU64_decimal`). -/

namespace Rust

/-- `str::strip_prefix`. -/
def stripPrefix (p s : List Char) : Option (List Char) :=
  if p.isPrefixOf s then some (s.drop p.length) else none

/-- `str::split_once` on a character: the text before and after its first
    occurrence. -/
def splitOnce (c : Char) : List Char → Option (List Char × List Char)
  | [] => none
  | x :: xs =>
    if x = c then some ([], xs)
    else (splitOnce c xs).map fun p => (x :: p.1, p.2)

/-- The leading `+` that `from_str` accepts, taken off. -/
def stripPlus : List Char → List Char
  | '+' :: rest => rest
  | s => s

/-- `u64::from_str`: an optional `+`, then at least one ASCII digit and
    nothing else, with a value that fits. -/
def parseU64 (s : List Char) : Option UInt64 :=
  let digits := stripPlus s
  if digits ≠ [] ∧ digits.all Char.isDigit ∧ Nat.ofDigitChars 10 digits 0 < 2 ^ 64 then
    some (UInt64.ofNat (Nat.ofDigitChars 10 digits 0))
  else none

/-- `Display` of a `u64`. -/
def decimal (n : UInt64) : String := toString n.toNat

/-- The UTF-8 length of a text, which is what `str::len` counts. -/
def utf8Len (s : List Char) : Nat := (s.map Char.utf8Size).sum

/-- The last `k` hexadecimal digits of `n`, in lower case and padded with
    zeros. -/
def hexPad : Nat → Nat → List Char
  | 0, _ => []
  | k + 1, n => hexPad k (n / 16) ++ [Nat.digitChar (n % 16)]

/-- The value of a hexadecimal digit, in lower case. -/
def hexValue (c : Char) : Option Nat := (List.range 16).find? fun d => Nat.digitChar d == c

/-- `str::split_once` with a text: the parts around its first occurrence. -/
def splitOnceText (pat : List Char) : List Char → Option (List Char × List Char)
  | [] => (stripPrefix pat []).map fun rest => ([], rest)
  | c :: cs =>
    match stripPrefix pat (c :: cs) with
    | some rest => some ([], rest)
    | none => (splitOnceText pat cs).map fun parts => (c :: parts.1, parts.2)

/-- The number that hexadecimal digits denote, after the digits `n`. -/
def parseHex : Nat → List Char → Option Nat
  | n, [] => some n
  | n, c :: cs => (hexValue c).bind fun d => parseHex (16 * n + d) cs

theorem stripPrefix_eq_some {p s rest : List Char} :
    stripPrefix p s = some rest ↔ s = p ++ rest := by
  unfold stripPrefix
  split
  · rename_i h
    obtain ⟨t, rfl⟩ := List.isPrefixOf_iff_prefix.mp h
    rw [List.drop_left, Option.some.injEq, List.append_cancel_left_eq]
  · rename_i h
    constructor
    · intro hn
      cases hn
    · rintro rfl
      exact absurd (List.isPrefixOf_iff_prefix.mpr (List.prefix_append p rest)) h

theorem isSome_stripPrefix {p s : List Char} : (stripPrefix p s).isSome = true ↔ p <+: s := by
  rw [Option.isSome_iff_exists]
  refine exists_congr fun rest => ?_
  rw [stripPrefix_eq_some, eq_comm]

/-- A text is split where the pattern occurs, if it does. -/
theorem isSome_splitOnceText {pat s : List Char} :
    (splitOnceText pat s).isSome = true ↔ pat <:+: s := by
  induction s with
  | nil => simp [splitOnceText, isSome_stripPrefix]
  | cons c cs ih =>
    have hhead := isSome_stripPrefix (p := pat) (s := c :: cs)
    rw [splitOnceText, List.infix_cons_iff, ← hhead, ← ih]
    cases stripPrefix pat (c :: cs) <;> simp

/-- ASCII text has one byte per character. -/
theorem utf8Len_ascii {s : List Char} (h : ∀ c ∈ s, c.utf8Size = 1) : utf8Len s = s.length := by
  induction s with
  | nil => rfl
  | cons c s ih =>
    have hc := h c (by simp)
    have hs := ih fun d hd => h d (by simp [hd])
    simp only [utf8Len, List.map_cons, List.sum_cons, List.length_cons] at hs ⊢
    omega

theorem stripPrefix_append (p s : List Char) : stripPrefix p (p ++ s) = some s := by
  unfold stripPrefix
  rw [if_pos (List.isPrefixOf_iff_prefix.mpr (List.prefix_append p s)), List.drop_left]

theorem splitOnce_append {c : Char} {a b : List Char} (h : c ∉ a) :
    splitOnce c (a ++ c :: b) = some (a, b) := by
  induction a with
  | nil => simp [splitOnce]
  | cons x xs ih =>
    have hx : x ≠ c := fun hxc => h (by simp [hxc])
    have hxs : c ∉ xs := fun hc => h (by simp [hc])
    simp [splitOnce, hx, ih hxs]

theorem splitOnce_eq_some {c : Char} {s a b : List Char} :
    splitOnce c s = some (a, b) ↔ s = a ++ c :: b ∧ c ∉ a := by
  constructor
  · intro h
    induction s generalizing a with
    | nil => cases h
    | cons x xs ih =>
      rw [splitOnce] at h
      split at h
      · rename_i hx
        cases h
        exact ⟨by rw [hx, List.nil_append], List.not_mem_nil⟩
      · rename_i hx
        obtain ⟨p, hp, heq⟩ := Option.map_eq_some_iff.mp h
        cases heq
        obtain ⟨hxs, hnot⟩ := ih hp
        refine ⟨by rw [hxs, List.cons_append], ?_⟩
        intro hc
        rcases List.mem_cons.mp hc with hc | hc
        · exact hx hc.symm
        · exact hnot hc
  · intro h
    rw [h.1, splitOnce_append h.2]

/-- One or more ASCII digits that denote `n`. -/
structure Digits (s : List Char) (n : UInt64) : Prop where
  nonempty : s ≠ []
  digits : ∀ c ∈ s, c.isDigit = true
  value : Nat.ofDigitChars 10 s 0 = n.toNat

theorem Digits.notMem {s : List Char} {n : UInt64} (h : Digits s n) {c : Char}
    (hc : c.isDigit = false) : c ∉ s := by
  intro hmem
  have := h.digits c hmem
  rw [hc] at this
  cases this

/-- **What `from_str` accepts**: digits, with or without a plus sign. -/
theorem parseU64_eq_some {s : List Char} {n : UInt64} :
    parseU64 s = some n ↔ Digits (stripPlus s) n := by
  unfold parseU64
  constructor
  · intro h
    dsimp only at h
    split at h
    · rename_i hs
      obtain ⟨hne, hd, hlt⟩ := hs
      cases h
      exact ⟨hne, List.all_eq_true.mp hd, (UInt64.toNat_ofNat_of_lt' hlt).symm⟩
    · cases h
  · intro h
    have hlt : Nat.ofDigitChars 10 (stripPlus s) 0 < 2 ^ 64 := by
      rw [h.value]
      exact n.toNat_lt
    rw [if_pos ⟨h.nonempty, List.all_eq_true.mpr h.digits, hlt⟩, h.value, UInt64.ofNat_toNat]

/-- A text without a plus sign loses nothing. -/
theorem stripPlus_of_notMem {s : List Char} (h : '+' ∉ s) : stripPlus s = s := by
  unfold stripPlus
  split
  · simp at h
  · rfl

/-- What is taken off is only a plus sign. -/
theorem mem_stripPlus {s : List Char} {c : Char} (hc : c ≠ '+') : c ∈ stripPlus s ↔ c ∈ s := by
  unfold stripPlus
  split
  · rw [List.mem_cons, or_iff_right hc]
  · exact Iff.rfl

theorem toList_decimal (n : UInt64) : (decimal n).toList = Nat.toDigits 10 n.toNat := by
  unfold decimal
  rw [Nat.toString_eq_ofList_toDigits, String.toList_ofList]

/-- A number is printed as its digits. -/
theorem digits_decimal (n : UInt64) : Digits (decimal n).toList n where
  nonempty := by
    rw [toList_decimal]
    exact Nat.toDigits_ne_nil
  digits := by
    intro c hc
    rw [toList_decimal] at hc
    exact Nat.isDigit_of_mem_toDigits (by decide) (by decide) hc
  value := by rw [toList_decimal, Nat.ofDigitChars_ten_toDigits]

/-- **Round trip**: a printed `u64` parses back to itself. -/
theorem parseU64_decimal (n : UInt64) : parseU64 (decimal n).toList = some n := by
  have hdigits := digits_decimal n
  apply parseU64_eq_some.mpr
  rw [stripPlus_of_notMem (hdigits.notMem rfl)]
  exact hdigits

/-! ## Ends of a text -/

/-- `s.rsplit(c).next()`: what follows the last `c`, or all of the text. -/
def afterLast (c : Char) (s : List Char) : List Char :=
  (s.reverse.takeWhile fun x => x != c).reverse

/-- An end of a text that has no `c` in it is an end of what follows the last
    `c`. -/
theorem suffix_afterLast {c : Char} {s t : List Char} (hc : c ∉ t) :
    t <:+ afterLast c s ↔ t <:+ s := by
  have hback : t <:+ s ↔ t.reverse <+: s.reverse := List.reverse_prefix.symm
  unfold afterLast
  rw [hback, ← List.reverse_prefix, List.reverse_reverse]
  constructor
  · intro h
    exact h.trans (List.takeWhile_prefix _)
  · intro h
    obtain ⟨rest, hrest⟩ := h
    have hall : ∀ x ∈ t.reverse, (x != c) = true := by
      intro x hx
      rw [bne_iff_ne]
      rintro rfl
      exact hc (List.mem_reverse.mp hx)
    rw [← hrest, List.takeWhile_append_of_pos hall]
    exact List.prefix_append _ _

/-- Such an end does not reach over a `c`. -/
theorem suffix_append_cons {c : Char} {p s t : List Char} (hc : c ∉ t) :
    t <:+ p ++ c :: s ↔ t <:+ s := by
  constructor
  · intro h
    by_cases hlen : t.length ≤ s.length
    · exact List.suffix_of_suffix_length_le h ((List.suffix_cons c s).trans
        (List.suffix_append p (c :: s))) hlen
    · -- an end that is longer than what follows the `c` contains it
      have hlong : c :: s <:+ t := List.suffix_of_suffix_length_le (List.suffix_append p (c :: s)) h
        (by rw [List.length_cons]; omega)
      exact absurd (hlong.subset List.mem_cons_self) hc
  · intro h
    exact h.trans ((List.suffix_cons c s).trans (List.suffix_append p (c :: s)))

/-! ## Padded hexadecimal -/

theorem digitChar_inj {a b : Nat} (ha : a < 16) (hb : b < 16)
    (h : Nat.digitChar a = Nat.digitChar b) : a = b := by
  have hall : ∀ a < 16, ∀ b < 16, Nat.digitChar a = Nat.digitChar b → a = b := by decide
  exact hall a ha b hb h

@[simp] theorem length_hexPad (k n : Nat) : (hexPad k n).length = k := by
  induction k generalizing n with
  | zero => rfl
  | succ k ih => simp [hexPad, ih]

theorem mem_hexPad {k n : Nat} {c : Char} (h : c ∈ hexPad k n) :
    ∃ d < 16, c = Nat.digitChar d := by
  induction k generalizing n with
  | zero => cases h
  | succ k ih =>
    rcases List.mem_append.mp h with h | h
    · exact ih h
    · exact ⟨n % 16, Nat.mod_lt n (by decide), List.mem_singleton.mp h⟩

/-- What holds of the sixteen digits holds of padded digits. -/
theorem forall_mem_hexPad {P : Char → Prop} (h : ∀ d < 16, P (Nat.digitChar d)) (k n : Nat) :
    ∀ c ∈ hexPad k n, P c := by
  intro c hc
  obtain ⟨d, hd, rfl⟩ := mem_hexPad hc
  exact h d hd

/-- Numbers of at most `k` digits are told apart by their last `k` digits. -/
theorem hexPad_inj {k n m : Nat} (hn : n < 16 ^ k) (hm : m < 16 ^ k)
    (h : hexPad k n = hexPad k m) : n = m := by
  induction k generalizing n m with
  | zero =>
    rw [Nat.pow_zero] at hn hm
    omega
  | succ k ih =>
    obtain ⟨hhi, hlo⟩ := List.append_inj' h rfl
    rw [Nat.pow_succ] at hn hm
    have hdiv : n / 16 = m / 16 := ih (by omega) (by omega) hhi
    have hmod : n % 16 = m % 16 :=
      digitChar_inj (Nat.mod_lt n (by omega)) (Nat.mod_lt m (by omega)) (List.cons.inj hlo).1
    omega

theorem hexValue_digitChar {d : Nat} (h : d < 16) : hexValue (Nat.digitChar d) = some d := by
  have hall : ∀ d < 16, hexValue (Nat.digitChar d) = some d := by decide
  exact hall d h

theorem parseHex_append {n m : Nat} {a b : List Char} (h : parseHex n a = some m) :
    parseHex n (a ++ b) = parseHex m b := by
  induction a generalizing n with
  | nil =>
    cases h
    rfl
  | cons c a ih =>
    rw [parseHex] at h
    obtain ⟨d, hd, hrest⟩ := Option.bind_eq_some_iff.mp h
    rw [List.cons_append, parseHex, hd]
    exact ih hrest

/-- **Round trip**: padded digits are read back. -/
theorem parseHex_hexPad {k n : Nat} (h : n < 16 ^ k) : parseHex 0 (hexPad k n) = some n := by
  induction k generalizing n with
  | zero =>
    rw [Nat.pow_zero] at h
    have hzero : n = 0 := by omega
    rw [hzero]
    rfl
  | succ k ih =>
    rw [Nat.pow_succ] at h
    rw [hexPad, parseHex_append (ih (by omega : n / 16 < 16 ^ k)), parseHex,
      hexValue_digitChar (Nat.mod_lt n (by decide))]
    show some (16 * (n / 16) + n % 16) = some n
    rw [Nat.div_add_mod]

end Rust
