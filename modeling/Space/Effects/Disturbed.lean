import Space.Effects.Pool

/-! # Pools whose store is disturbed

    Another party changes the store at any time, without being asked and
    without being a request: a disk that loses bytes, an operator, a test
    that injects a fault. `Disturbed` adds such changes to the steps of a
    pool. As long as each of them follows the discipline, what was verified
    for the pool alone still holds. -/

namespace Effects

variable {I : Interface} {S Req Resp α : Type}

namespace Ensures

variable {D : Discipline I S} {done : List (Change S)} {s : S}

/-- A program all of whose operations may be performed at any time keeps to
    the discipline. -/
theorem of_only {A : I.Op → Prop} {p : Prog I α} (hp : p.Only A)
    (hA : ∀ op s, A op → D.Inv s → D.Pre op s) : Ensures D p (fun _ _ _ => True) done s := by
  induction p generalizing done s with
  | ret a => exact fun _ _ _ => trivial
  | call op k ih => exact fun s₁ _ hi => ⟨hA op s₁ hp.1 hi, fun r _ _ => ih r (hp.2 r)⟩

end Ensures

namespace Pool

section semantics

variable (handle : Req → Prog I Resp) (step : Sem I S) (env : S → S → Prop)

/-- A step of the pool, or a change of its store from outside. -/
inductive Disturbed : Pool I S Req Resp → Pool I S Req Resp → Prop where
  | step {c c' : Pool I S Req Resp} : Step handle step c c' → Disturbed c c'
  | env {c : Pool I S Req Resp} {s' : S} : env c.store s' → Disturbed c { c with store := s' }

/-- Any number of such steps. -/
abbrev DisturbedSteps : Pool I S Req Resp → Pool I S Req Resp → Prop :=
  Relation.ReflTransGen (Disturbed handle step env)

/-- A client that runs its own program against a disturbed pool, returns `a`
    and leaves `c'`. -/
inductive DisturbedRun : Prog I α → Pool I S Req Resp → α → Pool I S Req Resp → Prop where
  | ret {a : α} {c c' : Pool I S Req Resp} :
      DisturbedSteps handle step env c c' → DisturbedRun (.ret a) c a c'
  | call {op : I.Op} {k : I.Reply op → Prog I α} {a : α} {r : I.Reply op} {s' : S}
      {c c₁ c' : Pool I S Req Resp} :
      DisturbedSteps handle step env c c₁ → step op c₁.store r s' →
      DisturbedRun (k r) { c₁ with store := s' } a c' →
      DisturbedRun (.call op k) c a c'

end semantics

variable {handle : Req → Prog I Resp} {D : Discipline I S} {env : S → S → Prop}
  {Post : Req → Resp → List (Change S) → S → Prop} {c c' : Pool I S Req Resp}

/-- **One step**, of the pool or from outside. -/
theorem Sound.disturbed (h : Sound D Post c)
    (hhandle : ∀ req s, D.Inv s → Ensures D (handle req) (Post req) [] s)
    (henv : ∀ s s', D.Inv s → env s s' → D.Inv s' ∧ D.Rely s s')
    (hs : Disturbed handle D.step env c c') : Sound D Post c' ∧ D.Rely c.store c'.store := by
  cases hs with
  | step hstep => exact h.step hhandle hstep
  | env hchange =>
    obtain ⟨hi, hr⟩ := henv _ _ h.inv hchange
    exact ⟨h.interfere hi hr, hr⟩

theorem Sound.disturbedSteps (h : Sound D Post c)
    (hhandle : ∀ req s, D.Inv s → Ensures D (handle req) (Post req) [] s)
    (henv : ∀ s s', D.Inv s → env s s' → D.Inv s' ∧ D.Rely s s')
    (hs : DisturbedSteps handle D.step env c c') :
    Sound D Post c' ∧ D.Rely c.store c'.store := by
  induction hs with
  | refl => exact ⟨h, D.refl _⟩
  | tail _ hstep ih =>
    obtain ⟨hc, hr⟩ := ih
    obtain ⟨hc', hr'⟩ := hc.disturbed hhandle henv hstep
    exact ⟨hc', D.trans hr hr'⟩

/-- **A verified client** returns with its postcondition, whatever requests
    and changes from outside come in between. -/
theorem DisturbedRun.ensures {p : Prog I α} {a : α} {Q : α → List (Change S) → S → Prop}
    {done : List (Change S)} (hrun : DisturbedRun handle D.step env p c a c')
    (hhandle : ∀ req s, D.Inv s → Ensures D (handle req) (Post req) [] s)
    (henv : ∀ s s', D.Inv s → env s s' → D.Inv s' ∧ D.Rely s s')
    (hc : Sound D Post c) (h : Ensures D p Q done c.store) : ∃ tr, Q a tr c'.store := by
  induction hrun generalizing done with
  | ret hs =>
    obtain ⟨hc', hr⟩ := hc.disturbedSteps hhandle henv hs
    exact ⟨done, (h.weaken hr).returned hc'.inv⟩
  | call hs hstep _ ih =>
    obtain ⟨hc₁, hr⟩ := hc.disturbedSteps hhandle henv hs
    have h₁ := h.weaken hr
    obtain ⟨hi, hr'⟩ := D.preserves hc₁.inv (h₁.pre hc₁.inv) hstep
    exact ih (hc₁.interfere hi hr') (h₁.advance hc₁.inv hstep)

end Pool

end Effects
