import Mathlib.Data.List.Basic
import Mathlib.Data.List.Forall2
import Mathlib.Algebra.Ring.Nat
import Mathlib.Tactic.Common

/-! # Lists of spans that tile an interval

    A span is an offset and a length. A list of spans tiles `[a, b)` when
    each one is non-empty and starts where its predecessor stopped. The main
    result, `tiles_iff_partition`, says that this local condition is the
    same as the global one: sorted non-empty spans that cover every point of
    the interval exactly once and no point outside it. -/

namespace Data

/-- An offset and a length. -/
abbrev Span := Nat × Nat

/-- The point `p` lies in the half-open interval `[offset, offset + length)`. -/
def Span.Covers (s : Span) (p : Nat) : Prop := s.1 ≤ p ∧ p < s.1 + s.2

instance (s : Span) (p : Nat) : Decidable (s.Covers p) :=
  inferInstanceAs (Decidable (s.1 ≤ p ∧ p < s.1 + s.2))

/-- Each span is non-empty and starts where the one before it stopped. -/
def Tiles (a b : Nat) : List Span → Prop
  | [] => a = b
  | s :: rest => s.1 = a ∧ 0 < s.2 ∧ Tiles (a + s.2) b rest

/-- How many spans of the list the point `p` lies in. -/
def coverCount (p : Nat) (spans : List Span) : Nat :=
  spans.countP fun s => decide (s.Covers p)

/-- Sorted non-empty spans that cover each point below `n` once, and no
    point from `n` on. -/
structure Partition (n : Nat) (spans : List Span) : Prop where
  sorted : spans.Pairwise fun s t => s.1 ≤ t.1
  nonempty : ∀ s ∈ spans, 0 < s.2
  once : ∀ p, p < n → coverCount p spans = 1
  none_past : ∀ p, n ≤ p → ∀ s ∈ spans, ¬ s.Covers p

theorem coverCount_cons (p : Nat) (s : Span) (rest : List Span) :
    coverCount p (s :: rest) =
      coverCount p rest + if s.1 ≤ p ∧ p < s.1 + s.2 then 1 else 0 := by
  by_cases hc : s.1 ≤ p ∧ p < s.1 + s.2
  · rw [if_pos hc]
    exact List.countP_cons_of_pos (decide_eq_true (p := s.Covers p) hc)
  · rw [if_neg hc]
    exact List.countP_cons_of_neg fun h => hc (of_decide_eq_true h)

/-! ## Section 1: A tiling is a partition -/

theorem Tiles.le {a b : Nat} {spans : List Span} (h : Tiles a b spans) : a ≤ b := by
  induction spans generalizing a with
  | nil => exact Nat.le_of_eq h
  | cons s rest ih =>
    have := ih h.2.2
    omega

theorem Tiles.le_offset {a b : Nat} {spans : List Span} (h : Tiles a b spans) :
    ∀ s ∈ spans, a ≤ s.1 := by
  induction spans generalizing a with
  | nil => simp
  | cons s rest ih =>
    obtain ⟨ho, hl, hrest⟩ := h
    intro t ht
    rcases List.mem_cons.mp ht with rfl | ht
    · omega
    · have := ih hrest t ht
      omega

theorem Tiles.nonempty {a b : Nat} {spans : List Span} (h : Tiles a b spans) :
    ∀ s ∈ spans, 0 < s.2 := by
  induction spans generalizing a with
  | nil => simp
  | cons s rest ih =>
    obtain ⟨_, hl, hrest⟩ := h
    intro t ht
    rcases List.mem_cons.mp ht with rfl | ht
    · exact hl
    · exact ih hrest t ht

theorem Tiles.sorted {a b : Nat} {spans : List Span} (h : Tiles a b spans) :
    spans.Pairwise fun s t => s.1 ≤ t.1 := by
  induction spans generalizing a with
  | nil => exact List.Pairwise.nil
  | cons s rest ih =>
    obtain ⟨ho, hl, hrest⟩ := h
    refine List.pairwise_cons.mpr ⟨fun t ht => ?_, ih hrest⟩
    have := hrest.le_offset t ht
    omega

/-- A point is covered once inside the interval and never outside it. -/
theorem Tiles.coverCount {a b : Nat} {spans : List Span} (h : Tiles a b spans) (p : Nat) :
    coverCount p spans = if a ≤ p ∧ p < b then 1 else 0 := by
  induction spans generalizing a with
  | nil =>
    have hab : a = b := h
    rw [if_neg (by omega)]
    rfl
  | cons s rest ih =>
    obtain ⟨ho, hl, hrest⟩ := h
    have hb := hrest.le
    rw [coverCount_cons, ih hrest]
    split <;> split <;> split <;> omega

/-- One tiling after another. -/
theorem Tiles.append {a b c : Nat} {spans spans' : List Span} (h : Tiles a b spans)
    (h' : Tiles b c spans') : Tiles a c (spans ++ spans') := by
  induction spans generalizing a with
  | nil =>
    have hab : a = b := h
    rw [hab]
    exact h'
  | cons s rest ih => exact ⟨h.1, h.2.1, ih h.2.2⟩

theorem Tiles.partition {n : Nat} {spans : List Span} (h : Tiles 0 n spans) :
    Partition n spans where
  sorted := h.sorted
  nonempty := h.nonempty
  once := fun p hp => by rw [h.coverCount, if_pos ⟨Nat.zero_le p, hp⟩]
  none_past := fun p hp s hs hc => by
    have h0 : Data.coverCount p spans = 0 := by
      rw [h.coverCount, if_neg (by omega)]
    have := List.countP_eq_zero.mp h0 s hs
    simp [hc] at this

/-! ## Section 2: A partition is a tiling -/

/-- The head of sorted non-empty spans that cover `[a, b)` exactly starts
    at `a`: it covers its own offset, and a point before it would be
    uncovered. -/
theorem head_offset {a b : Nat} {s : Span} {rest : List Span}
    (hsorted : ∀ t ∈ rest, s.1 ≤ t.1) (hl : 0 < s.2)
    (hcount : ∀ p, coverCount p (s :: rest) = if a ≤ p ∧ p < b then 1 else 0) : s.1 = a := by
  have hin : a ≤ s.1 ∧ s.1 < b := by
    by_contra hout
    have h := hcount s.1
    rw [if_neg hout, coverCount_cons, if_pos ⟨Nat.le_refl _, by omega⟩] at h
    omega
  by_contra hne
  have hab : a < b := by omega
  have h := hcount a
  rw [if_pos ⟨Nat.le_refl a, hab⟩] at h
  have hcov : 0 < coverCount a (s :: rest) := by omega
  obtain ⟨t, ht, hcov⟩ := List.countP_pos_iff.mp hcov
  have hta : t.1 ≤ a := (of_decide_eq_true hcov).1
  rcases List.mem_cons.mp ht with rfl | ht
  · omega
  · have := hsorted t ht
    omega

theorem tiles_of_coverCount {a b : Nat} {spans : List Span} (hab : a ≤ b)
    (hsorted : spans.Pairwise fun s t => s.1 ≤ t.1) (hpos : ∀ s ∈ spans, 0 < s.2)
    (hcount : ∀ p, coverCount p spans = if a ≤ p ∧ p < b then 1 else 0) :
    Tiles a b spans := by
  induction spans generalizing a with
  | nil =>
    by_contra hne
    have hlt : a < b := by
      have : a ≠ b := hne
      omega
    have h := hcount a
    rw [if_pos ⟨Nat.le_refl a, hlt⟩] at h
    cases h
  | cons s rest ih =>
    have hs := List.pairwise_cons.mp hsorted
    have hl : 0 < s.2 := hpos s (by simp)
    have ho := head_offset hs.1 hl hcount
    -- the last point of the head span is covered, so the span ends by `b`
    have hend : a + s.2 ≤ b := by
      by_contra hgt
      have h := hcount (a + s.2 - 1)
      rw [if_neg (by omega), coverCount_cons, if_pos ⟨by omega, by omega⟩] at h
      omega
    refine ⟨ho, hl, ih hend hs.2 (fun t ht => hpos t (by simp [ht])) fun p => ?_⟩
    have h := hcount p
    rw [coverCount_cons] at h
    split at h <;> split at h <;> split <;> omega

/-- **Local and global tiling agree.** -/
theorem tiles_iff_partition {n : Nat} {spans : List Span} :
    Tiles 0 n spans ↔ Partition n spans := by
  constructor
  · exact Tiles.partition
  · intro h
    refine tiles_of_coverCount (Nat.zero_le n) h.sorted h.nonempty fun p => ?_
    by_cases hp : p < n
    · rw [if_pos ⟨Nat.zero_le p, hp⟩, h.once p hp]
    · rw [if_neg (by omega)]
      refine List.countP_eq_zero.mpr fun s hs => ?_
      have := h.none_past p (by omega) s hs
      simpa using this

/-! ## Section 3: Sums -/

/-- The lengths of a tiling add up to the length of the interval. -/
theorem Tiles.sum {a b : Nat} {spans : List Span} (h : Tiles a b spans) :
    a + (spans.map Prod.snd).sum = b := by
  induction spans generalizing a with
  | nil =>
    have hab : a = b := h
    simpa using hab
  | cons s rest ih =>
    have := ih h.2.2
    simp only [List.map_cons, List.sum_cons]
    omega

/-- Spans that tile `[a, b)` are at most `b - a` in number. -/
theorem Tiles.length_le {a b : Nat} {spans : List Span} (h : Tiles a b spans) :
    a + spans.length ≤ b := by
  induction spans generalizing a with
  | nil => exact Nat.le_of_eq h
  | cons s rest ih =>
    obtain ⟨_, hl, hrest⟩ := h
    have := ih hrest
    simp only [List.length_cons]
    omega

/-! ## Section 4: Tilings by adjacent pairs

    A validator that reads a list two neighbours at a time sees the windows
    of the list. -/

/-- `slice::windows(2)`: the adjacent pairs of a list. -/
def windows2 {α : Type} (xs : List α) : List (α × α) :=
  xs.zip xs.tail

theorem windows2_map {α β : Type} (f : α → β) (xs : List α) :
    windows2 (xs.map f) = (windows2 xs).map (Prod.map f f) := by
  simp [windows2, List.zip_map, ← List.map_tail]

/-- **Tiling, read off the windows**: the first span starts at `a`, each one
    stops where the next starts, none is empty, and the lengths add up. -/
theorem tiles_iff_windows {a b : Nat} {spans : List Span} :
    Tiles a b spans ↔ (∀ s, spans.head? = some s → s.1 = a) ∧
      (∀ w ∈ windows2 spans, w.1.1 + w.1.2 = w.2.1) ∧ (∀ s ∈ spans, 0 < s.2) ∧
      a + (spans.map Prod.snd).sum = b := by
  induction spans generalizing a with
  | nil => simp [Tiles, windows2]
  | cons s rest ih =>
    unfold Tiles
    rw [ih]
    cases rest with
    | nil => simp [windows2]
    | cons t rest =>
      have hw : windows2 (s :: t :: rest) = (s, t) :: windows2 (t :: rest) := rfl
      simp only [hw, List.head?_cons, List.mem_cons, List.map_cons, List.sum_cons,
        forall_eq_or_imp, Option.some.injEq, forall_eq']
      constructor
      · rintro ⟨rfl, hs, ht, hwin, hpos, hsum⟩
        exact ⟨rfl, ⟨ht.symm, hwin⟩, ⟨hs, hpos⟩, by omega⟩
      · rintro ⟨rfl, ⟨ht, hwin⟩, ⟨hs, hpos⟩, hsum⟩
        exact ⟨rfl, hs, ht.symm, hwin, hpos, by omega⟩

/-! ## Section 5: Offsets

    The offset of a span follows from the spans in front of it. -/

/-- Two tilings from one start that agree in front of an index have the same
    offset there. -/
theorem Tiles.offset_congr {a b b' k : Nat} {spans spans' : List Span} {s t : Span}
    (h : Tiles a b spans) (h' : Tiles a b' spans') (htake : spans'.take k = spans.take k)
    (hs : spans[k]? = some s) (ht : spans'[k]? = some t) : t.1 = s.1 := by
  induction k generalizing a spans spans' with
  | zero =>
    cases spans with
    | nil => cases hs
    | cons s' rest =>
      cases spans' with
      | nil => cases ht
      | cons t' rest' =>
        rw [List.getElem?_cons_zero, Option.some.injEq] at hs ht
        subst hs ht
        rw [h.1, h'.1]
  | succ k ih =>
    cases spans with
    | nil => cases hs
    | cons s' rest =>
      cases spans' with
      | nil => cases ht
      | cons t' rest' =>
        rw [List.take_succ_cons, List.take_succ_cons, List.cons.injEq] at htake
        obtain ⟨hhead, htake⟩ := htake
        subst hhead
        exact ih h.2.2 h'.2.2 htake hs ht

/-- Later spans have larger offsets. -/
theorem Tiles.offset_lt {a b i j : Nat} {spans : List Span} {s t : Span} (h : Tiles a b spans)
    (hs : spans[i]? = some s) (ht : spans[j]? = some t) (hij : i < j) : s.1 < t.1 := by
  induction spans generalizing a i j with
  | nil => cases hs
  | cons u rest ih =>
    obtain ⟨ho, hl, hrest⟩ := h
    cases j with
    | zero => omega
    | succ j =>
      rw [List.getElem?_cons_succ] at ht
      cases i with
      | zero =>
        rw [List.getElem?_cons_zero, Option.some.injEq] at hs
        subst hs
        have := hrest.le_offset t (List.mem_of_getElem? ht)
        omega
      | succ i => exact ih hrest hs ht (by omega)

/-! ## Section 6: Pieces laid out along a tiling

    Pieces of the lengths of the spans, one after the other, put each point
    of the interval into the piece of the one span that covers it. -/

/-- Each piece is as long as its span. -/
abbrev Fits {α : Type} (spans : List Span) (pieces : List (List α)) : Prop :=
  List.Forall₂ (fun s piece => piece.length = s.2) spans pieces

/-- Each point of the interval is covered by the span at exactly one index. -/
theorem Tiles.existsUnique_covers {a b p : Nat} {spans : List Span} (h : Tiles a b spans)
    (ha : a ≤ p) (hb : p < b) : ∃! i : Nat, ∃ s : Span, spans[i]? = some s ∧ s.Covers p := by
  induction spans generalizing a with
  | nil =>
    have hab : a = b := h
    omega
  | cons s rest ih =>
    obtain ⟨ho, hl, hrest⟩ := h
    by_cases hp : p < a + s.2
    · -- a later span starts behind the head
      refine ⟨0, ⟨s, rfl, by omega, by omega⟩, ?_⟩
      intro i hi
      obtain ⟨t, ht, hcovers⟩ := hi
      cases i with
      | zero => rfl
      | succ i =>
        rw [List.getElem?_cons_succ] at ht
        have hle := hrest.le_offset t (List.mem_of_getElem? ht)
        have := hcovers.1
        omega
    · obtain ⟨i, ⟨t, ht, hcovers⟩, honly⟩ := ih hrest (by omega)
      refine ⟨i + 1, ⟨t, ht, hcovers⟩, ?_⟩
      intro j hj
      obtain ⟨u, hu, hcovers'⟩ := hj
      cases j with
      | zero =>
        rw [List.getElem?_cons_zero, Option.some.injEq] at hu
        subst hu
        have := hcovers'.2
        omega
      | succ j =>
        have := honly j ⟨u, hu, hcovers'⟩
        omega

theorem Tiles.length_flatten {α : Type} {a b : Nat} {spans : List Span} {pieces : List (List α)}
    (h : Tiles a b spans) (hfits : Fits spans pieces) : a + pieces.flatten.length = b := by
  induction hfits generalizing a with
  | nil => exact h
  | cons hlen _ ih =>
    have := ih h.2.2
    rw [List.flatten_cons, List.length_append, hlen]
    omega

/-- **Where a point comes from**: the piece of the span that covers it, at
    its distance from the start of that span. -/
theorem Tiles.getElem?_flatten {α : Type} {a b p : Nat} {spans : List Span}
    {pieces : List (List α)} (h : Tiles a b spans) (hfits : Fits spans pieces) {i : Nat} {s : Span}
    {piece : List α} (hs : spans[i]? = some s) (hpiece : pieces[i]? = some piece)
    (hcovers : s.Covers p) : pieces.flatten[p - a]? = piece[p - s.1]? := by
  induction hfits generalizing a i with
  | nil => cases hs
  | @cons t first rest pieces hlen _ ih =>
    obtain ⟨ho, hl, hrest⟩ := h
    rw [List.flatten_cons]
    cases i with
    | zero =>
      rw [List.getElem?_cons_zero, Option.some.injEq] at hs hpiece
      subst hs hpiece
      have hin := hcovers.2
      rw [List.getElem?_append_left (by omega), ho]
    | succ i =>
      rw [List.getElem?_cons_succ] at hs hpiece
      have hle := hrest.le_offset s (List.mem_of_getElem? hs)
      have hin := hcovers.1
      rw [List.getElem?_append_right (by omega), ← ih hrest hs hpiece, hlen, Nat.sub_sub]

end Data
