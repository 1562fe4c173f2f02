import Mathlib.Data.Finmap
import Mathlib.Tactic.Common

/-! # Tables that only grow

    A table is a finite map. A store that never forgets what it was told
    moves along `Grows R`: every row stays, and a row that changes at all
    changes along `R`. With `R` equality the rows are frozen.

    The rules below say which inserts are growth, and how a property of all
    rows survives an insert. -/

namespace Data

variable {K V : Type} [DecidableEq K]

/-- A finite map from keys to rows. -/
abbrev Table (K V : Type) := Finmap fun _ : K => V

namespace Table

/-! ## Section 1: Lookups after an insert -/

theorem lookup_insert_ite (t : Table K V) (k k' : K) (v : V) :
    (t.insert k v).lookup k' = if k' = k then some v else t.lookup k' := by
  split
  · rename_i h
    rw [h, Finmap.lookup_insert]
  · rename_i h
    exact Finmap.lookup_insert_of_ne t h

theorem lookup_erase_ite (t : Table K V) (k k' : K) :
    (t.erase k).lookup k' = if k' = k then none else t.lookup k' := by
  split
  · rename_i h
    rw [h, Finmap.lookup_erase]
  · rename_i h
    exact Finmap.lookup_erase_ne h

/-- In a union the left table wins. -/
theorem lookup_union (t t' : Table K V) (k : K) :
    (t ∪ t').lookup k = (t.lookup k).or (t'.lookup k) := by
  by_cases h : k ∈ t
  · obtain ⟨v, hv⟩ := Finmap.mem_iff.mp h
    rw [Finmap.lookup_union_left h, hv, Option.some_or]
  · rw [Finmap.lookup_union_right h, Finmap.lookup_eq_none.mpr h, Option.none_or]

/-- Inserting the row that is already there changes nothing. -/
theorem insert_eq_self {t : Table K V} {k : K} {v : V} (h : t.lookup k = some v) :
    t.insert k v = t := by
  refine Finmap.ext_lookup fun k' => ?_
  rw [lookup_insert_ite]
  split
  · rename_i hk
    rw [hk, h]
  · rfl

/-- Every row of the table satisfies `P`. -/
def AllRows (P : K → V → Prop) (t : Table K V) : Prop :=
  ∀ k v, t.lookup k = some v → P k v

theorem allRows_empty (P : K → V → Prop) : AllRows P (∅ : Table K V) := by
  intro k v h
  rw [Finmap.lookup_empty] at h
  cases h

/-- An insert adds one obligation; the other rows are as before. -/
theorem AllRows.insert {P P' : K → V → Prop} {t : Table K V} {k : K} {v : V}
    (ht : AllRows P t) (hP : ∀ k' v', k' ≠ k → P k' v' → P' k' v') (hv : P' k v) :
    AllRows P' (t.insert k v) := by
  intro k' v' h
  rw [lookup_insert_ite] at h
  split at h
  · rename_i hk
    cases h
    rw [hk]
    exact hv
  · rename_i hk
    exact hP k' v' hk (ht k' v' h)

theorem AllRows.mono {P P' : K → V → Prop} {t : Table K V} (ht : AllRows P t)
    (hP : ∀ k v, P k v → P' k v) : AllRows P' t :=
  fun k v h => hP k v (ht k v h)

/-! ## Section 2: Growth -/

/-- Every row of `t` is still in `t'`, up to `R`. -/
def Grows (R : V → V → Prop) (t t' : Table K V) : Prop :=
  ∀ k v, t.lookup k = some v → ∃ v', t'.lookup k = some v' ∧ R v v'

variable {R : V → V → Prop}

theorem Grows.refl (hR : ∀ v, R v v) (t : Table K V) : Grows R t t :=
  fun _ v h => ⟨v, h, hR v⟩

theorem Grows.trans (hR : ∀ a b c, R a b → R b c → R a c) {t₁ t₂ t₃ : Table K V}
    (h₁ : Grows R t₁ t₂) (h₂ : Grows R t₂ t₃) : Grows R t₁ t₃ := by
  intro k v h
  obtain ⟨v₂, hv₂, hR₁⟩ := h₁ k v h
  obtain ⟨v₃, hv₃, hR₂⟩ := h₂ k v₂ hv₂
  exact ⟨v₃, hv₃, hR v v₂ v₃ hR₁ hR₂⟩

/-- An insert is growth when it respects `R` at its own key; at an unused
    key there is nothing to respect. -/
theorem Grows.insert (hR : ∀ v, R v v) {t : Table K V} {k : K} {v : V}
    (h : ∀ v₀, t.lookup k = some v₀ → R v₀ v) : Grows R t (t.insert k v) := by
  intro k' v' hk'
  rw [lookup_insert_ite]
  split
  · rename_i hk
    rw [hk] at hk'
    exact ⟨v, rfl, h v' hk'⟩
  · exact ⟨v', hk', hR v'⟩

theorem Grows.insert_new (hR : ∀ v, R v v) {t : Table K V} {k : K} {v : V}
    (h : t.lookup k = none) : Grows R t (t.insert k v) :=
  Grows.insert hR fun v₀ h₀ => by
    rw [h] at h₀
    cases h₀

/-- A key in use stays in use. -/
theorem Grows.exists {t t' : Table K V} (h : Grows R t t') {k : K}
    (hk : ∃ v, t.lookup k = some v) : ∃ v, t'.lookup k = some v := by
  obtain ⟨v, hv⟩ := hk
  obtain ⟨v', hv', _⟩ := h k v hv
  exact ⟨v', hv'⟩

/-- A row of a frozen table keeps its value. -/
theorem Grows.lookup_eq {t t' : Table K V} (h : Grows Eq t t') {k : K} {v : V}
    (hk : t.lookup k = some v) : t'.lookup k = some v := by
  obtain ⟨v', hv', rfl⟩ := h k v hk
  exact hv'

/-- Two tables that hold each other's rows are the same. -/
theorem Grows.antisymm {t t' : Table K V} (h : Grows Eq t t') (h' : Grows Eq t' t) : t = t' := by
  apply Finmap.ext_lookup
  intro k
  apply Option.ext
  intro v
  exact ⟨h.lookup_eq, h'.lookup_eq⟩

/-! ## Section 3: The rows in some order

    Iterating over a hash map yields its rows in an order that is not
    specified. -/

section rows

variable {t : Table K V} {order : List V}

/-- Every row comes up, and nothing else. -/
theorem mem_order (h : (order : Multiset V) = t.entries.map Sigma.snd) {v : V} :
    v ∈ order ↔ ∃ k, t.lookup k = some v := by
  rw [← Multiset.mem_coe, h, Multiset.mem_map]
  constructor
  · intro ⟨⟨k, v'⟩, hmem, heq⟩
    subst heq
    exact ⟨k, Finmap.lookup_eq_some_iff.mpr hmem⟩
  · intro ⟨k, hk⟩
    exact ⟨⟨k, v⟩, Finmap.lookup_eq_some_iff.mp hk, rfl⟩

/-- No row comes up twice, when a row tells its key. -/
theorem nodup_order (h : (order : Multiset V) = t.entries.map Sigma.snd) {key : V → K}
    (hkey : ∀ k v, t.lookup k = some v → key v = k) : order.Nodup := by
  rw [← Multiset.coe_nodup, h]
  apply Multiset.Nodup.map_on _ t.nodup_entries
  intro ⟨k, v⟩ hv ⟨k', v'⟩ hv' heq
  have hk := hkey k v (Finmap.lookup_eq_some_iff.mpr hv)
  have hk' := hkey k' v' (Finmap.lookup_eq_some_iff.mpr hv')
  have hrow : v = v' := heq
  subst hrow
  subst hk
  subst hk'
  rfl

end rows

end Table

end Data
