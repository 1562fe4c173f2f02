import Space.Rust.Text
import Mathlib.Logic.Equiv.Defs

/-! # Text formats

    A text format writes a value as a text and reads texts back. What it
    reads may be more than what it writes. A text is canonical when it is
    not one of the texts in excess: either nothing is read from it, or what
    is read is written as this very text. No two canonical texts stand for
    one value.

    Formats are built from others by a tag in front and by a change of the
    type of the values, and both keep apart the same texts.

    Nothing in this file knows about a particular program. -/

namespace Data

open Rust

/-- A format for the values of `α`. What it writes, it reads back. -/
structure TextFormat (α : Type) where
  read : String → Option α
  write : α → String
  read_write : ∀ a, read (write a) = some a

namespace TextFormat

variable {α β : Type} (f : TextFormat α)

/-- What is read from the text, if anything, is written as this text. -/
def Canonical (s : String) : Prop := ∀ a, f.read s = some a → f.write a = s

variable {f}

/-- **One text for each value**, among the canonical ones. -/
theorem Canonical.eq_of_read {s t : String} {a : α} (hs : f.Canonical s) (ht : f.Canonical t)
    (hsa : f.read s = some a) (hta : f.read t = some a) : s = t :=
  (hs a hsa).symm.trans (ht a hta)

/-! ## Formats from formats -/

/-- The format with a tag in front. -/
def tagged (tag : String) (f : TextFormat α) : TextFormat α where
  read s := (stripPrefix tag.toList s.toList).bind fun rest => f.read (String.ofList rest)
  write a := tag ++ f.write a
  read_write a := by
    rw [String.toList_append, stripPrefix_append, Option.bind_some, String.ofList_toList]
    exact f.read_write a

theorem tagged_read_eq_some {tag s : String} {a : α} :
    (f.tagged tag).read s = some a ↔ ∃ t, s = tag ++ t ∧ f.read t = some a := by
  show (stripPrefix tag.toList s.toList).bind (fun rest => f.read (String.ofList rest)) =
    some a ↔ _
  rw [Option.bind_eq_some_iff]
  constructor
  · intro h
    obtain ⟨rest, hrest, hread⟩ := h
    refine ⟨String.ofList rest, String.toList_injective ?_, hread⟩
    rw [String.toList_append, String.toList_ofList]
    exact stripPrefix_eq_some.mp hrest
  · intro h
    obtain ⟨t, hs, hread⟩ := h
    refine ⟨t.toList, ?_, by rwa [String.ofList_toList]⟩
    rw [hs, String.toList_append, stripPrefix_append]

/-- A tag changes nothing about the texts behind it. -/
theorem canonical_tagged_iff {tag s : String} :
    (f.tagged tag).Canonical s ↔ ∀ t, s = tag ++ t → f.Canonical t := by
  constructor
  · intro h t hs a ha
    have hwrite : tag ++ f.write a = s := h a (tagged_read_eq_some.mpr ⟨t, hs, ha⟩)
    rw [hs] at hwrite
    exact (String.append_right_inj tag).mp hwrite
  · intro h a ha
    obtain ⟨t, hs, hread⟩ := tagged_read_eq_some.mp ha
    show tag ++ f.write a = s
    rw [h t hs a hread, hs]

/-- The format for values of another type that correspond to those of `α`. -/
def map (e : α ≃ β) (f : TextFormat α) : TextFormat β where
  read s := (f.read s).map e
  write b := f.write (e.symm b)
  read_write b := by rw [f.read_write, Option.map_some, e.apply_symm_apply]

theorem map_read_eq_some {e : α ≃ β} {s : String} {b : β} :
    (f.map e).read s = some b ↔ f.read s = some (e.symm b) := by
  show (f.read s).map e = some b ↔ _
  rw [Option.map_eq_some_iff]
  constructor
  · intro h
    obtain ⟨a, ha, hb⟩ := h
    rw [ha, ← hb, e.symm_apply_apply]
  · intro h
    exact ⟨e.symm b, h, e.apply_symm_apply b⟩

theorem canonical_map_iff {e : α ≃ β} {s : String} : (f.map e).Canonical s ↔ f.Canonical s := by
  constructor
  · intro h a ha
    have hwrite : f.write (e.symm (e a)) = s :=
      h (e a) (map_read_eq_some.mpr (by rw [e.symm_apply_apply, ha]))
    rwa [e.symm_apply_apply] at hwrite
  · intro h b hb
    exact h (e.symm b) (map_read_eq_some.mp hb)

end TextFormat

end Data
