import Mathlib.Logic.Relation
import Mathlib.Tactic.Common

/-! # Relations that grow by leaves

    A relation is ranked when numbers can be attached to the nodes so that
    every edge goes up. A ranked relation has no cycles. A relation that
    only ever grows by a new node below an old one stays ranked, which is
    how a history of derived objects stays a forest. -/

namespace Data

variable {α : Type} {r r' : α → α → Prop}

/-- Every edge goes up. -/
def Ranked (r : α → α → Prop) : Prop :=
  ∃ rank : α → Nat, ∀ a b, r a b → rank a < rank b

namespace Ranked

theorem of_empty (h : ∀ a b, ¬ r a b) : Ranked r :=
  ⟨fun _ => 0, fun a b hab => absurd hab (h a b)⟩

theorem mono (h : Ranked r) (hsub : ∀ a b, r' a b → r a b) : Ranked r' := by
  obtain ⟨rank, hrank⟩ := h
  exact ⟨rank, fun a b hab => hrank a b (hsub a b hab)⟩

/-- A ranked relation has no cycles. -/
theorem irrefl (h : Ranked r) (a : α) : ¬ Relation.TransGen r a a := by
  obtain ⟨rank, hrank⟩ := h
  have hup : ∀ b, Relation.TransGen r a b → rank a < rank b := by
    intro b hb
    induction hb with
    | single hab => exact hrank a _ hab
    | tail _ hbc ih => exact Nat.lt_trans ih (hrank _ _ hbc)
  exact fun ha => Nat.lt_irrefl _ (hup a ha)

/-- A node without edges may be put below another node. -/
theorem leaf (h : Ranked r) {v : α} {parent : Option α} (hout : ∀ b, ¬ r v b)
    (hin : ∀ a, ¬ r a v) (hne : parent ≠ some v)
    (hsub : ∀ a b, r' a b → r a b ∨ (b = v ∧ parent = some a)) : Ranked r' := by
  classical
  obtain ⟨rank, hrank⟩ := h
  -- the new node is ranked just above its parent
  let top : Nat := (parent.map rank).elim 0 (· + 1)
  refine ⟨fun x => if x = v then top else rank x, fun a b hab => ?_⟩
  have hab' := hsub a b hab
  rcases hab' with hold | ⟨rfl, rfl⟩
  · have ha : a ≠ v := fun he => hout b (he ▸ hold)
    have hb : b ≠ v := fun he => hin a (he ▸ hold)
    simp only [if_neg ha, if_neg hb]
    exact hrank a b hold
  · have ha : a ≠ b := fun he => hne (congrArg some he)
    simp only [if_neg ha, if_true]
    exact Nat.lt_succ_self (rank a)

end Ranked

/-! ## Following the parents

    The nodes are the keys of a table, and `up` reads the parent of a node off
    its row. -/

section climb

variable {K V : Type} (find : K → Option V) (up : V → Option K)

/-- `p` is the parent of `k`. -/
def Up (p k : K) : Prop :=
  ∃ row, find k = some row ∧ up row = some p

/-- Follow the parents from `k`, over at most `fuel` rows. There is no answer
    when a row is missing or when the rows go on. -/
def climb : Nat → K → Option (List V)
  | 0, _ => none
  | fuel + 1, k =>
    (find k).bind fun row =>
      match up row with
      | none => some [row]
      | some p => (climb fuel p).map (row :: ·)

/-- The rows from `k` up to a node without a parent. -/
inductive Lineage : K → List V → Prop where
  | root {k : K} {row : V} : find k = some row → up row = none → Lineage k [row]
  | step {k p : K} {row : V} {rows : List V} :
      find k = some row → up row = some p → Lineage p rows → Lineage k (row :: rows)

variable {find : K → Option V} {up : V → Option K} {k : K} {rows : List V}

/-- The climb computes the lineage, when it has the fuel. -/
theorem Lineage.climb_eq (h : Lineage find up k rows) {fuel : Nat} (hfuel : rows.length ≤ fuel) :
    climb find up fuel k = some rows := by
  induction h generalizing fuel with
  | root hk hup =>
    obtain ⟨n, rfl⟩ : ∃ n, fuel = n + 1 := Nat.exists_eq_add_of_le' hfuel
    simp [climb, hk, hup]
  | step hk hup _ ih =>
    obtain ⟨n, rfl⟩ : ∃ n, fuel = n + 1 := Nat.exists_eq_add_of_le' (Nat.le_of_add_left_le hfuel)
    have hrest := ih (Nat.le_of_succ_le_succ hfuel)
    simp [climb, hk, hup, hrest]

/-- **In a ranked table without dangling parents every lineage ends.** -/
theorem Lineage.exists (hranked : Ranked (Up find up))
    (hclosed : ∀ p k, Up find up p k → ∃ row, find p = some row) {row : V}
    (hk : find k = some row) : ∃ rows, Lineage find up k rows := by
  obtain ⟨rank, hrank⟩ := hranked
  -- the rank goes down with every parent
  induction hn : rank k using Nat.strongRecOn generalizing k row with
  | ind n ih =>
    cases hup : up row with
    | none => exact ⟨[row], .root hk hup⟩
    | some p =>
      have hedge : Up find up p k := ⟨row, hk, hup⟩
      obtain ⟨row', hp⟩ := hclosed p k hedge
      obtain ⟨rows, hrows⟩ := ih (rank p) (hn ▸ hrank p k hedge) hp rfl
      exact ⟨row :: rows, .step hk hup hrows⟩

theorem Lineage.head (h : Lineage find up k rows) : rows.head? = find k := by
  cases h with
  | root hk _ => exact hk.symm
  | step hk _ _ => exact hk.symm

theorem Lineage.getLast (h : Lineage find up k rows) :
    ∃ root, rows.getLast? = some root ∧ up root = none := by
  induction h with
  | root _ hup => exact ⟨_, rfl, hup⟩
  | step _ _ hrest ih =>
    obtain ⟨root, hlast, hup⟩ := ih
    refine ⟨root, ?_, hup⟩
    rw [List.getLast?_cons, hlast]
    rfl

variable {key : V → K} (hkey : ∀ k row, find k = some row → key row = k)

include hkey

/-- Every row of a lineage is the node it started from or an ancestor of it. -/
theorem Lineage.mem (h : Lineage find up k rows) {row : V} (hrow : row ∈ rows) :
    find (key row) = some row ∧ Relation.ReflTransGen (Up find up) (key row) k := by
  induction h with
  | root hk _ =>
    rw [List.mem_singleton] at hrow
    subst hrow
    rw [hkey _ _ hk]
    exact ⟨hk, .refl⟩
  | step hk hup _ ih =>
    rcases List.mem_cons.mp hrow with rfl | hrest
    · rw [hkey _ _ hk]
      exact ⟨hk, .refl⟩
    · obtain ⟨hfind, habove⟩ := ih hrest
      exact ⟨hfind, habove.tail ⟨_, hk, hup⟩⟩

/-- A lineage visits no node twice. -/
theorem Lineage.nodup (hranked : Ranked (Up find up)) (h : Lineage find up k rows) :
    (rows.map key).Nodup := by
  induction h with
  | root _ _ => simp
  | step hk hup hrest ih =>
    rw [List.map_cons, List.nodup_cons]
    refine ⟨?_, ih⟩
    intro hmem
    obtain ⟨row', hrow', heq⟩ := List.mem_map.mp hmem
    -- the node would be an ancestor of itself
    have habove := (hrest.mem hkey hrow').2
    rw [heq, hkey _ _ hk] at habove
    exact hranked.irrefl _ (Relation.TransGen.tail' habove ⟨_, hk, hup⟩)

end climb

end Data
