import Space.Effects.Prog
import Mathlib.Logic.Relation

/-! # Rely and guarantee

    A discipline says how a shared store is used: an invariant of its
    states, a preorder `Rely` that every step of every program follows, and
    for each operation the precondition under which it may be performed.
    `Ensures D p Q` states that `p`, run while others act within the
    discipline, keeps to it as well and returns a value satisfying `Q`.

    The rules follow the constructors of `Prog`; `Ensures.weaken` is the one
    that makes interference harmless. -/

namespace Effects

open Rust

variable {I J : Interface} {α β ε S : Type}

/-- How the store answers an operation: the reply and the state after it. -/
abbrev Sem (I : Interface) (S : Type) := (op : I.Op) → S → I.Reply op → S → Prop

/-- The rules every program over the store plays by. -/
structure Discipline (I : Interface) (S : Type) where
  step : Sem I S
  Inv : S → Prop
  Rely : S → S → Prop
  Pre : I.Op → S → Prop
  refl : ∀ s, Rely s s
  trans : ∀ {a b c}, Rely a b → Rely b c → Rely a c
  preserves : ∀ {op s r s'}, Inv s → Pre op s → step op s r s' → Inv s' ∧ Rely s s'

/-- The store states just before and just after an operation. -/
abbrev Change (S : Type) := S × S

/-- `p` keeps to the discipline from `s` on, under interference, and returns
    with `Q`. `Q` also sees the changes the program itself made. -/
def Ensures (D : Discipline I S) : Prog I α → (α → List (Change S) → S → Prop) →
    List (Change S) → S → Prop
  | .ret a, Q, done, s => ∀ s', D.Rely s s' → D.Inv s' → Q a done s'
  | .call op k, Q, done, s => ∀ s₁, D.Rely s s₁ → D.Inv s₁ →
      D.Pre op s₁ ∧ ∀ r s₂, D.step op s₁ r s₂ → Ensures D (k r) Q (done ++ [(s₁, s₂)]) s₂

namespace Ensures

variable {D : Discipline I S} {p : Prog I α} {Q Q' : α → List (Change S) → S → Prop}
  {done : List (Change S)} {s s' : S}

/-- Interference within the discipline is harmless. -/
theorem weaken (h : Ensures D p Q done s) (hr : D.Rely s s') : Ensures D p Q done s' := by
  cases p with
  | ret a => exact fun s₁ hs₁ hi => h s₁ (D.trans hr hs₁) hi
  | call op k => exact fun s₁ hs₁ hi => h s₁ (D.trans hr hs₁) hi

theorem conseq (h : Ensures D p Q done s) (hQ : ∀ a tr t, D.Inv t → Q a tr t → Q' a tr t) :
    Ensures D p Q' done s := by
  -- induction on the program, for any changes made so far
  induction p generalizing done s with
  | ret a => exact fun s₁ hs₁ hi => hQ a done s₁ hi (h s₁ hs₁ hi)
  | call op k ih =>
    intro s₁ hs₁ hi
    obtain ⟨hpre, hk⟩ := h s₁ hs₁ hi
    exact ⟨hpre, fun r s₂ hs₂ => ih r (hk r s₂ hs₂)⟩

/-- The postcondition holds of a program that has returned. -/
theorem returned {a : α} (h : Ensures D (.ret a) Q done s) (hi : D.Inv s) : Q a done s :=
  h s (D.refl s) hi

/-- A program about to perform `op` meets its precondition. -/
theorem pre {op : I.Op} {k : I.Reply op → Prog I α} (h : Ensures D (.call op k) Q done s)
    (hi : D.Inv s) : D.Pre op s :=
  (h s (D.refl s) hi).1

/-- The rule for one operation of a program that is running. -/
theorem advance {op : I.Op} {k : I.Reply op → Prog I α} {r : I.Reply op}
    (h : Ensures D (.call op k) Q done s) (hi : D.Inv s) (hs : D.step op s r s') :
    Ensures D (k r) Q (done ++ [(s, s')]) s' :=
  (h s (D.refl s) hi).2 r s' hs

theorem bind {f : α → Prog I β} {Q : β → List (Change S) → S → Prop} (hi : D.Inv s)
    (h : Ensures D p (fun a tr t => Ensures D (f a) Q tr t) done s) :
    Ensures D (p.bind f) Q done s := by
  induction p generalizing done s with
  | ret a => exact h.returned hi
  | call op k ih =>
    intro s₁ hs₁ hi₁
    obtain ⟨hpre, hk⟩ := h s₁ hs₁ hi₁
    exact ⟨hpre, fun r s₂ hs₂ => ih r (D.preserves hi₁ hpre hs₂).1 (hk r s₂ hs₂)⟩

theorem map {f : α → β} {Q : β → List (Change S) → S → Prop}
    (h : Ensures D p (fun a => Q (f a)) done s) : Ensures D (p.map f) Q done s := by
  induction p generalizing done s with
  | ret a => exact h
  | call op k ih =>
    intro s₁ hs₁ hi₁
    obtain ⟨hpre, hk⟩ := h s₁ hs₁ hi₁
    exact ⟨hpre, fun r s₂ hs₂ => ih r (hk r s₂ hs₂)⟩

/-- The rule for the `?` operator: the rest of the program after `Ok`, and
    the postcondition of the failure otherwise. -/
theorem onOk {x : Outcome ε α} {f : α → Prog I (Outcome ε β)}
    {Q : Outcome ε β → List (Change S) → S → Prop}
    (hok : ∀ a, x = .ok a → Ensures D (f a) Q done s)
    (hfail : ∀ r, x.isOk = false → r.isOk = false → ∀ s', D.Rely s s' → D.Inv s' → Q r done s') :
    Ensures D (Fallible.onOk f x) Q done s := by
  cases x with
  | ok a => exact hok a rfl
  | err e => exact hfail (.err e) rfl rfl
  | panic => exact hfail .panic rfl rfl

/-- The rule for a sequence whose first part ensures a fact about the value
    it hands on, whatever the state has become by then. -/
theorem bind_of_value {f : α → Prog I β} {Q : β → List (Change S) → S → Prop} {G : α → Prop}
    (hi : D.Inv s) (h : Ensures D p (fun a _ _ => G a) done s)
    (hf : ∀ a done' s', G a → D.Inv s' → D.Rely s s' → Ensures D (f a) Q done' s') :
    Ensures D (p.bind f) Q done s := by
  induction p generalizing done s with
  | ret a => exact hf a done s (h.returned hi) hi (D.refl s)
  | call op k ih =>
    intro s₁ hs₁ hi₁
    obtain ⟨hpre, hk⟩ := h s₁ hs₁ hi₁
    refine ⟨hpre, fun r s₂ hs₂ => ?_⟩
    -- the fact about the value does not depend on the state, so only `Rely` is carried
    obtain ⟨hi₂, hr₂⟩ := D.preserves hi₁ hpre hs₂
    refine ih r hi₂ (hk r s₂ hs₂) fun a done' s' hG hi' hr' => ?_
    exact hf a done' s' hG hi' (D.trans hs₁ (D.trans hr₂ hr'))

/-- A postcondition that does not look at the changes made holds whatever
    was changed before. -/
theorem forget {Q : α → S → Prop} (h : Ensures D p (fun a _ => Q a) done s)
    (done' : List (Change S)) : Ensures D p (fun a _ => Q a) done' s := by
  induction p generalizing done done' s with
  | ret a => exact h
  | call op k ih =>
    intro s₁ hs₁ hi₁
    obtain ⟨hpre, hk⟩ := h s₁ hs₁ hi₁
    exact ⟨hpre, fun r s₂ hs₂ => ih r (hk r s₂ hs₂) _⟩

/-- Reads of what interference cannot change: the program returns what it
    would return undisturbed. -/
theorem of_stable {A : I.Op → Prop} {answer : (op : I.Op) → I.Reply op} {p : Prog I α} {s₀ : S}
    (hA : ∀ op s₁, A op → D.Rely s₀ s₁ → D.Inv s₁ →
      D.Pre op s₁ ∧ ∀ r s₂, D.step op s₁ r s₂ → r = answer op)
    (hp : p.Only A) (hr : D.Rely s₀ s) (n : Nat) (done : List (Change S)) :
    Ensures D p (fun a _ _ => a = p.feed (fun _ => answer) n) done s := by
  induction p generalizing done s n with
  | ret a => exact fun _ _ _ => rfl
  | call op k ih =>
    intro s₁ hs₁ hi₁
    have hr₁ := D.trans hr hs₁
    obtain ⟨hpre, hans⟩ := hA op s₁ hp.1 hr₁ hi₁
    refine ⟨hpre, fun r s₂ hs₂ => ?_⟩
    obtain ⟨_, hr₂⟩ := D.preserves hi₁ hpre hs₂
    -- the reply is the one that `feed` gives, so both go on with the same program
    rw [hans r s₂ hs₂]
    exact ih _ (hp.2 _) (D.trans hr₁ hr₂) (n + 1) _

/-- A program over a higher interface, when each of its operations is a
    program over the store that ensures `R` of its reply. -/
theorem interp {h : (op : J.Op) → Prog I (J.Reply op)} {R : (op : J.Op) → J.Reply op → Prop}
    {P : α → Prop} {p : Prog J α} {s₀ : S}
    (hh : ∀ op done s, D.Inv s → D.Rely s₀ s → Ensures D (h op) (fun r _ _ => R op r) done s)
    (hp : p.Returns R P) (hi : D.Inv s) (hr : D.Rely s₀ s) (done : List (Change S)) :
    Ensures D (p.interp h) (fun a _ _ => P a) done s := by
  induction p generalizing done s with
  | ret a => exact fun _ _ _ => hp
  | call op k ih =>
    refine bind_of_value hi (hh op done s hi hr) fun r done' s' hR hi' hr' => ?_
    exact ih r (hp r hR) hi' (D.trans hr hr') done'

/-- What a program returns when the store gives such replies as it gives, it
    returns in every interleaving. -/
theorem of_returns {R : (op : I.Op) → I.Reply op → Prop} {P : α → Prop}
    (h : Ensures D p Q done s) (hp : p.Returns R P)
    (hR : ∀ op s r s', D.Inv s → D.step op s r s' → R op r) :
    Ensures D p (fun a tr t => Q a tr t ∧ P a) done s := by
  induction p generalizing done s with
  | ret a => exact fun s₁ hs₁ hi₁ => ⟨h s₁ hs₁ hi₁, hp⟩
  | call op k ih =>
    intro s₁ hs₁ hi₁
    obtain ⟨hpre, hk⟩ := h s₁ hs₁ hi₁
    exact ⟨hpre, fun r s₂ hs₂ => ih r (hk r s₂ hs₂) (hp r (hR op s₁ r s₂ hi₁ hs₂))⟩

/-! ## Running undisturbed -/

/-- Without interference the postcondition holds of what `run` computes, and
    the run stays within the discipline. -/
theorem run {exec : (op : I.Op) → S → I.Reply op × S}
    (hexec : ∀ op s, D.Inv s → D.step op s (exec op s).1 (exec op s).2)
    (h : Ensures D p Q done s) (hi : D.Inv s) :
    (∃ tr, Q (p.run exec s).1 tr (p.run exec s).2) ∧
      D.Inv (p.run exec s).2 ∧ D.Rely s (p.run exec s).2 := by
  induction p generalizing done s with
  | ret a => exact ⟨⟨done, h.returned hi⟩, hi, D.refl s⟩
  | call op k ih =>
    have hstep := hexec op s hi
    -- running undisturbed is one way to keep to the discipline
    have hsafe := D.preserves hi (h.pre hi) hstep
    obtain ⟨hQ, hi', hr'⟩ := ih _ (h.advance hi hstep) hsafe.1
    exact ⟨hQ, hi', D.trans hsafe.2 hr'⟩

end Ensures

end Effects
