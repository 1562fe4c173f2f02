import Mathlib.Data.List.Nodup
import Mathlib.Tactic.Common

/-! # Lists of rows with keys

    A table that is kept as a list may hold several rows with one key, and a
    lookup reads the first of them. The order of the rows matters exactly to
    such keys. -/

namespace Data

variable {α κ : Type} [DecidableEq κ] {key : α → κ} {rows rows' : List α} {k : κ}

/-- The rows with the key `k`. -/
def rowsWith (key : α → κ) (k : κ) (rows : List α) : List α :=
  rows.filter fun r => key r == k

theorem mem_rowsWith {r : α} : r ∈ rowsWith key k rows ↔ r ∈ rows ∧ key r = k := by
  simp [rowsWith]

theorem length_rowsWith : (rowsWith key k rows).length = (rows.map key).count k := by
  rw [List.count_eq_countP, List.countP_map, List.countP_eq_length_filter]
  rfl

/-- The first row with a key that only one row has. -/
theorem find?_of_rowsWith {r : α} (h : rowsWith key k rows = [r]) :
    (rows.find? fun r => key r == k) = some r := by
  rw [← List.head?_filter]
  show (rowsWith key k rows).head? = some r
  rw [h, List.head?_cons]

/-- In a table with distinct keys a lookup finds the one row there is. -/
theorem rowsWith_of_nodup {r : α} (hnodup : (rows.map key).Nodup) (hr : r ∈ rows)
    (hk : key r = k) : rowsWith key k rows = [r] := by
  have hone : (rowsWith key k rows).length = 1 := by
    rw [length_rowsWith]
    refine List.count_eq_one_of_mem hnodup ?_
    exact List.mem_map.mpr ⟨r, hr, hk⟩
  obtain ⟨r', hr'⟩ := List.length_eq_one_iff.mp hone
  have hmem : r ∈ rowsWith key k rows := mem_rowsWith.mpr ⟨hr, hk⟩
  rw [hr'] at hmem
  rw [hr', List.mem_singleton.mp hmem]

/-- The order of a table with distinct keys does not matter to a lookup. -/
theorem find?_perm (h : rows.Perm rows') (hnodup : (rows'.map key).Nodup) (k : κ) :
    (rows.find? fun r => key r == k) = rows'.find? fun r => key r == k := by
  have hnodup' : (rows.map key).Nodup := (h.map key).nodup_iff.mpr hnodup
  by_cases hex : ∃ r ∈ rows', key r = k
  · obtain ⟨r, hr, hk⟩ := hex
    rw [find?_of_rowsWith (rowsWith_of_nodup hnodup hr hk),
      find?_of_rowsWith (rowsWith_of_nodup hnodup' (h.mem_iff.mpr hr) hk)]
  · have hnone : ∀ r ∈ rows', ¬ (key r == k) = true := by
      intro r hr hk
      exact hex ⟨r, hr, by simpa using hk⟩
    rw [List.find?_eq_none.mpr hnone, List.find?_eq_none.mpr]
    intro r hr
    exact hnone r (h.mem_iff.mp hr)

/-- A table in which every key that occurs has one row has distinct keys. -/
theorem nodup_of_rowsWith (h : ∀ r ∈ rows, ∃ r', rowsWith key (key r) rows = [r']) :
    (rows.map key).Nodup := by
  refine List.nodup_iff_count_eq_one.mpr ?_
  intro k hk
  obtain ⟨r, hr, rfl⟩ := List.mem_map.mp hk
  obtain ⟨r', hr'⟩ := h r hr
  rw [← length_rowsWith, hr', List.length_singleton]

omit [DecidableEq κ] in
/-- In a sorted list the first row of a kind precedes the others of it. -/
theorem find?_of_pairwise {R : α → α → Prop} {p : α → Bool} {a b : α} (h : rows.Pairwise R)
    (hfind : rows.find? p = some a) (hb : b ∈ rows) (hp : p b = true) : a = b ∨ R a b := by
  induction rows with
  | nil => cases hfind
  | cons c rest ih =>
    obtain ⟨hc, hrest⟩ := List.pairwise_cons.mp h
    by_cases hpc : p c = true
    · rw [List.find?_cons_of_pos hpc, Option.some.injEq] at hfind
      subst hfind
      rcases List.mem_cons.mp hb with hb | hb
      · exact .inl hb.symm
      · exact .inr (hc b hb)
    · rw [List.find?_cons_of_neg hpc] at hfind
      rcases List.mem_cons.mp hb with hb | hb
      · subst hb
        exact absurd hp hpc
      · exact ih hrest hfind hb

/-! ## Rows that are added once -/

/-- Add a row, unless there is one with its key. -/
def pushNew (key : α → κ) (r : α) (rows : List α) : List α :=
  if rows.any fun r' => key r' == key r then rows else rows ++ [r]

theorem mem_pushNew {r r' : α} (h : r' ∈ pushNew key r rows) : r' ∈ rows ∨ r' = r := by
  unfold pushNew at h
  split at h
  · exact .inl h
  · simpa using h

/-- The keys of the table, and the key of the row. -/
theorem mem_map_pushNew {r : α} :
    k ∈ (pushNew key r rows).map key ↔ k ∈ rows.map key ∨ k = key r := by
  unfold pushNew
  split
  · rename_i hany
    have hmem : key r ∈ rows.map key := by simpa using hany
    constructor
    · intro h
      exact .inl h
    · intro h
      rcases h with h | h
      · exact h
      · rw [h]
        exact hmem
  · simp

/-- A key keeps its first row. -/
theorem find?_pushNew {r r' : α} (h : (rows.find? fun r => key r == k) = some r') :
    ((pushNew key r rows).find? fun r => key r == k) = some r' := by
  unfold pushNew
  split
  · exact h
  · rw [List.find?_append, h]
    rfl

/-- The row that the key of a new row is found in: an old one or itself. -/
theorem find?_pushNew_self (key : α → κ) (rows : List α) (r : α) :
    ∃ r', ((pushNew key r rows).find? fun r' => key r' == key r) = some r' ∧
      (r' ∈ rows ∨ r' = r) := by
  have hmem : key r ∈ (pushNew key r rows).map key := mem_map_pushNew.mpr (.inr rfl)
  obtain ⟨row, hrow, hk⟩ := List.mem_map.mp hmem
  have hsome : ((pushNew key r rows).find? fun r' => key r' == key r).isSome :=
    List.find?_isSome.mpr ⟨row, hrow, by simpa using hk⟩
  obtain ⟨r', hr'⟩ := Option.isSome_iff_exists.mp hsome
  exact ⟨r', hr', mem_pushNew (List.mem_of_find?_eq_some hr')⟩

end Data
