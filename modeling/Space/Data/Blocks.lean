import Mathlib.Data.Stream.Init
import Mathlib.Tactic.Common

/-! # Streams that come in blocks

    A source hands out blocks of a fixed size. Put one after the other they
    are an infinite stream (`elements`), and whoever reads from it sees a
    prefix of that stream, however the reads are sliced. `Reads` is the
    contract of one read; reads in sequence read the concatenation. -/

namespace Data

open Stream'

variable {S α : Type} {size : Nat}

/-- A list of exactly `size` elements. -/
def Block (α : Type) (size : Nat) := { b : List α // b.length = size }

/-- Change each element of a block. -/
def Block.map {β : Type} (f : α → β) (b : Block α size) : Block β size :=
  ⟨b.val.map f, by rw [List.length_map, b.property]⟩

/-! ## Section 1: The stream of a source -/

/-- The state of a source after `n` blocks. -/
def advance (next : S → Block α size × S) (s : S) : Nat → S
  | 0 => s
  | n + 1 => advance next (next s).2 n

/-- The elements of all the blocks that a source hands out from `s` on. -/
def elements (next : S → Block α size × S) (hsize : 0 < size) (s : S) : Stream' α := fun k =>
  (next (advance next s (k / size))).1.val.get
    ⟨k % size, by
      rw [(next (advance next s (k / size))).1.property]
      exact Nat.mod_lt k hsize⟩

variable {next : S → Block α size × S} {hsize : 0 < size}

/-- The stream starts with the next block. -/
theorem elements_eq (s : S) :
    elements next hsize s = (next s).1.val ++ₛ elements next hsize (next s).2 := by
  have hlen := (next s).1.property
  refine Stream'.ext ?_
  intro k
  by_cases hk : k < size
  · have hdiv : k / size = 0 := Nat.div_eq_of_lt hk
    have hmod : k % size = k := Nat.mod_eq_of_lt hk
    rw [get_append_left _ _ _ (by rw [hlen]; exact hk)]
    show (next (advance next s (k / size))).1.val.get _ = _
    simp only [List.get_eq_getElem, hdiv, hmod]
    rfl
  · obtain ⟨j, rfl⟩ : ∃ j, k = (next s).1.val.length + j := ⟨k - size, by omega⟩
    rw [get_append_right, hlen]
    have hdiv : (size + j) / size = j / size + 1 := by
      rw [Nat.add_comm, Nat.add_div_right j hsize]
    have hmod : (size + j) % size = j % size := Nat.add_mod_left size j
    show (next (advance next s ((size + j) / size))).1.val.get _ =
      (next (advance next (next s).2 (j / size))).1.val.get _
    simp only [List.get_eq_getElem, hdiv, hmod]
    rfl

/-- What holds of every element of every block holds of the stream. -/
theorem elements_all {P : α → Prop} (h : ∀ s, ∀ x ∈ (next s).1.val, P x) (s : S) :
    (elements next hsize s).All P := by
  intro k
  exact h _ _ (List.get_mem _ _)

/-! ## Section 2: Reads -/

/-- Reading `out` from the stream `p` leaves `p'`. -/
def Reads (p : Stream' α) (out : List α) (p' : Stream' α) : Prop := p = out ++ₛ p'

variable {p p' p'' : Stream' α} {out out' : List α}

theorem Reads.refl (p : Stream' α) : Reads p [] p := rfl

/-- Two reads in sequence. -/
theorem Reads.trans (h : Reads p out p') (h' : Reads p' out' p'') : Reads p (out ++ out') p'' := by
  unfold Reads at *
  rw [h, h', append_append_stream]

/-- **What is read is a prefix of the stream**, and nothing but its length
    matters. -/
theorem Reads.eq_take (h : Reads p out p') : out = p.take out.length := by
  unfold Reads at h
  rw [h, take_append_of_le_length _ _ _ (Nat.le_refl _), List.take_length]

/-- Reads of the same length from one stream read the same. -/
theorem Reads.eq_of_length (h : Reads p out p') (h' : Reads p out' p'')
    (hlen : out.length = out'.length) : out = out' := by
  rw [h.eq_take, h'.eq_take, hlen]

theorem Reads.all {P : α → Prop} (h : Reads p out p') (hp : p.All P) : ∀ x ∈ out, P x := by
  intro x hx
  obtain ⟨i, hi, rfl⟩ := List.mem_iff_getElem.mp hx
  have hget := hp i
  rw [h, get_append_left _ _ _ hi] at hget
  exact hget

end Data
