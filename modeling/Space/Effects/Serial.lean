import Space.Effects.Pool
import Mathlib.Data.List.Perm.Subperm

/-! # Serial runs

    A serial run handles one request from its first operation to its last
    before it looks at the next one. `Serial` is the yardstick for a pool:
    what concurrent requests did is right when some serial run of the same
    requests gives the same answers and leaves the same store.

    Two things help to find that serial run. A handler may be placed where it
    performs the operation that matters (`Serial.snoc`), and one that changed
    nothing may be placed at the end, when it can be run again on any later
    store with the same answer (`CatchesUp`). -/

namespace Effects

variable {I : Interface} {S Req Resp α : Type}

/-! ## Section 1: Running alone -/

/-- `p`, started in `s` with no other step in between, returns `a` and leaves
    `s'`. -/
inductive Solo (step : Sem I S) : Prog I α → S → α → S → Prop where
  | ret (a : α) (s : S) : Solo step (.ret a) s a s
  | call {op : I.Op} {k : I.Reply op → Prog I α} {r : I.Reply op} {s s₁ : S} {a : α} {s' : S} :
      step op s r s₁ → Solo step (k r) s₁ a s' → Solo step (.call op k) s a s'

/-- A program that performs only operations that read. -/
theorem Solo.unchanged {step : Sem I S} {A : I.Op → Prop} {p : Prog I α} {s s' : S} {a : α}
    (h : Solo step p s a s') (hp : p.Only A)
    (hread : ∀ op s r s', A op → step op s r s' → s' = s) : s' = s := by
  induction h with
  | ret a s => rfl
  | call hs _ ih => exact (ih (hp.2 _)).trans (hread _ _ _ _ hp.1 hs)

/-- Without interference a verified program returns with its postcondition,
    and has kept to the discipline. -/
theorem Ensures.solo {D : Discipline I S} {p : Prog I α} {Q : α → List (Change S) → S → Prop}
    {done : List (Change S)} {s s' : S} {a : α} (h : Ensures D p Q done s) (hi : D.Inv s)
    (hs : Solo D.step p s a s') : (∃ tr, Q a tr s') ∧ D.Inv s' ∧ D.Rely s s' := by
  induction hs generalizing done with
  | ret a s => exact ⟨⟨done, h.returned hi⟩, hi, D.refl s⟩
  | call hstep _ ih =>
    obtain ⟨hi₁, hr₁⟩ := D.preserves hi (h.pre hi) hstep
    obtain ⟨hQ, hi', hr'⟩ := ih (h.advance hi hstep) hi₁
    exact ⟨hQ, hi', D.trans hr₁ hr'⟩

/-! ## Section 2: Serial runs -/

/-- The requests of the log, handled one after the other from `s` on, are
    answered as the log says and leave `s'`. -/
inductive Serial (handle : Req → Prog I Resp) (step : Sem I S) :
    S → List (Req × Resp) → S → Prop where
  | nil (s : S) : Serial handle step s [] s
  | cons {req : Req} {a : Resp} {log : List (Req × Resp)} {s s₁ s' : S} :
      Solo step (handle req) s a s₁ → Serial handle step s₁ log s' →
      Serial handle step s ((req, a) :: log) s'

namespace Serial

variable {handle : Req → Prog I Resp} {step : Sem I S} {log log' : List (Req × Resp)}
  {s s₁ s' : S}

theorem append (h : Serial handle step s log s₁) (h' : Serial handle step s₁ log' s') :
    Serial handle step s (log ++ log') s' := by
  induction h with
  | nil s => exact h'
  | cons hsolo _ ih => exact .cons hsolo (ih h')

/-- One more request, after those of the log. -/
theorem snoc (h : Serial handle step s log s₁) {req : Req} {a : Resp}
    (hsolo : Solo step (handle req) s₁ a s') : Serial handle step s (log ++ [(req, a)]) s' :=
  h.append (.cons hsolo (.nil s'))

/-- Requests that leave the store as it is, in any order. -/
theorem quiet (h : ∀ p ∈ log, Solo step (handle p.1) s p.2 s) : Serial handle step s log s := by
  induction log with
  | nil => exact .nil s
  | cons p rest ih =>
    apply Serial.cons (h p List.mem_cons_self)
    apply ih
    intro q hq
    exact h q (List.mem_cons_of_mem p hq)

/-- What every request keeps when it is handled alone, a serial run keeps. -/
theorem keeps {P : S → Prop} (hrun : Serial handle step s log s')
    (hkeep : ∀ req a s s', P s → Solo step (handle req) s a s' → P s') (h : P s) : P s' := by
  induction hrun with
  | nil s => exact h
  | cons hsolo _ ih => exact ih (hkeep _ _ _ _ h hsolo)

end Serial

/-! ## Section 3: Running again later -/

section later

variable {D : Discipline I S} {p q : Prog I α} {s s' : S}

/-- Whatever `q` does alone from a later store, `p` does as well. So the
    operations that led from `p` to `q` can be performed again at any time,
    with the same replies and no effect. -/
def CatchesUp (D : Discipline I S) (p q : Prog I α) (s : S) : Prop :=
  ∀ u, D.Rely s u → D.Inv u → ∀ a u', Solo D.step q u a u' → Solo D.step p u a u'

theorem CatchesUp.refl : CatchesUp D p p s := fun _ _ _ _ _ h => h

theorem CatchesUp.weaken (h : CatchesUp D p q s) (hr : D.Rely s s') : CatchesUp D p q s' :=
  fun u hu hi => h u (D.trans hr hu) hi

/-- One more operation that every later store answers in the same way. -/
theorem CatchesUp.advance {op : I.Op} {k : I.Reply op → Prog I α} {r : I.Reply op}
    (h : CatchesUp D p (.call op k) s)
    (hagain : ∀ u, D.Rely s u → D.Inv u → D.step op u r u) : CatchesUp D p (k r) s :=
  fun u hu hi a u' hk => h u hu hi a u' (.call (hagain u hu hi) hk)

/-- A program that has caught up and returned can run later as a whole. -/
theorem CatchesUp.returned {a : α} (h : CatchesUp D p (.ret a) s) {u : S} (hr : D.Rely s u)
    (hi : D.Inv u) : Solo D.step p u a u :=
  h u hr hi a u (.ret a u)

end later

/-! ## Section 4: What a pool has answered -/

/-- The request of a thread and its answer, once it has returned. -/
def Thread.answer? (t : Thread I S Req Resp) : Option (Req × Resp) :=
  match t.prog with
  | .ret a => some (t.req, a)
  | .call _ _ => none

theorem Thread.answer?_ret {t : Thread I S Req Resp} {a : Resp} (h : t.prog = .ret a) :
    t.answer? = some (t.req, a) := by
  unfold answer?
  rw [h]

theorem Thread.answer?_call {t : Thread I S Req Resp} {op : I.Op} {k : I.Reply op → Prog I Resp}
    (h : t.prog = .call op k) : t.answer? = none := by
  unfold answer?
  rw [h]

namespace Pool

/-- Every request has been answered. -/
def Quiescent (c : Pool I S Req Resp) : Prop := ∀ t ∈ c.threads, ∃ a, t.prog = .ret a

/-- The answers given so far, in the order in which the requests arrived. -/
def answers (c : Pool I S Req Resp) : List (Req × Resp) := c.threads.filterMap Thread.answer?

/-- An answer that a request may bring with it. -/
theorem answers_arrive (s : S) (threads : List (Thread I S Req Resp)) (t : Thread I S Req Resp) :
    Pool.answers ⟨s, threads ++ [t]⟩ = Pool.answers ⟨s, threads⟩ ++ t.answer?.toList := by
  unfold answers
  rw [List.filterMap_append]
  congr 1

/-- Filling one place of a list that had no entry there. -/
theorem perm_filterMap_set {α β : Type} {f : α → Option β} {l : List α} {i : Nat} {a : α}
    (h : l[i]? = some a) (hnone : f a = none) (a' : α) :
    ((l.set i a').filterMap f).Perm (l.filterMap f ++ (f a').toList) := by
  induction l generalizing i with
  | nil => cases h
  | cons b l ih =>
    cases i with
    | zero =>
      cases h
      rw [List.set_cons_zero, List.filterMap_cons, List.filterMap_cons, hnone]
      cases f a' with
      | none => simp
      | some c => exact @List.perm_append_comm _ [c] _
    | succ i =>
      rw [List.set_cons_succ, List.filterMap_cons, List.filterMap_cons]
      cases f b with
      | none => exact ih h
      | some c => exact (ih h).cons c

/-- Answers stay. -/
theorem answers_step {handle : Req → Prog I Resp} {step : Sem I S} {c c' : Pool I S Req Resp}
    (hs : Step handle step c c') : c.answers.Subperm c'.answers := by
  cases hs with
  | arrive req =>
    rw [answers_arrive]
    exact (List.sublist_append_left _ _).subperm
  | call i t op k r s' hi hp _ =>
    have hset := perm_filterMap_set hi (Thread.answer?_call hp)
      (⟨t.req, k r, t.done ++ [(c.store, s')]⟩ : Thread I S Req Resp)
    exact (List.sublist_append_left _ _).subperm.trans hset.symm.subperm

theorem answers_steps {handle : Req → Prog I Resp} {step : Sem I S} {c c' : Pool I S Req Resp}
    (hs : Steps handle step c c') : c.answers.Subperm c'.answers := by
  induction hs with
  | refl => exact .refl _
  | tail _ hstep ih => exact ih.trans (answers_step hstep)

end Pool

end Effects
