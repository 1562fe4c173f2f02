import Mathlib.Logic.Basic
import Mathlib.Tactic.Common

/-! # TOML documents

    A `Toml` is the value tree of a document. Dotted keys, inline tables and
    arrays of tables are gone at this level: there are tables and arrays.

    A key may be anywhere in the tree. `TableKey` are those that are reached
    through tables alone. -/

namespace Data

/-- A TOML value. A float is kept as its bits and a date as its text. -/
inductive Toml where
  | string (s : String)
  | integer (n : Int64)
  | float (bits : UInt64)
  | boolean (b : Bool)
  | datetime (text : String)
  | array (items : List Toml)
  | table (fields : List (String × Toml))

namespace Toml

variable {key : String} {doc : Toml} {items : List Toml} {fields : List (String × Toml)}

/-- The key occurs in the document, at any depth. -/
inductive HasKey (key : String) : Toml → Prop where
  | here {fields : List (String × Toml)} {v : Toml} : (key, v) ∈ fields → HasKey key (.table fields)
  | field {fields : List (String × Toml)} {key' : String} {v : Toml} :
      (key', v) ∈ fields → HasKey key v → HasKey key (.table fields)
  | item {items : List Toml} {v : Toml} : v ∈ items → HasKey key v → HasKey key (.array items)

/-- The key occurs in the document, and not inside an array. -/
inductive TableKey (key : String) : Toml → Prop where
  | here {fields : List (String × Toml)} {v : Toml} :
      (key, v) ∈ fields → TableKey key (.table fields)
  | field {fields : List (String × Toml)} {key' : String} {v : Toml} :
      (key', v) ∈ fields → TableKey key v → TableKey key (.table fields)

theorem TableKey.hasKey (h : TableKey key doc) : HasKey key doc := by
  induction h with
  | here hmem => exact .here hmem
  | field hmem _ ih => exact .field hmem ih

theorem tableKey_table :
    TableKey key (.table fields) ↔ ∃ f ∈ fields, f.1 = key ∨ TableKey key f.2 := by
  constructor
  · intro h
    cases h with
    | here hmem => exact ⟨_, hmem, .inl rfl⟩
    | field hmem h => exact ⟨_, hmem, .inr h⟩
  · rintro ⟨⟨key', v⟩, hmem, rfl | h⟩
    · exact .here hmem
    · exact .field hmem h

/-- Only a table has keys of its own. -/
theorem not_tableKey (h : ∀ fields, doc ≠ .table fields) : ¬ TableKey key doc := by
  intro hkey
  cases hkey with
  | here _ => exact h _ rfl
  | field _ _ => exact h _ rfl

end Toml

end Data
