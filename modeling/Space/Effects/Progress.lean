import Space.Effects.Serial
import Mathlib.Algebra.Order.BigOperators.Group.List
import Mathlib.Algebra.Order.Ring.Nat
import Mathlib.Algebra.Group.Action.Defs

/-! # Progress

    A handler that performs at most `n` operations, whatever it is answered,
    returns after `n` operations of its own, whatever the other requests do
    in between. When the store can answer every operation that is waiting,
    all requests can be brought to their end from every state of the pool,
    without a new one arriving. -/

namespace Effects

variable {I : Interface} {S Req Resp α : Type}

/-! ## Section 1: The length of a program -/

/-- `p` performs at most `n` operations. -/
def Prog.AtMost : Prog I α → Nat → Prop
  | .ret _, _ => True
  | .call _ _, 0 => False
  | .call _ k, n + 1 => ∀ r, (k r).AtMost n

/-- What is left after one more operation. -/
theorem Prog.AtMost.call {op : I.Op} {k : I.Reply op → Prog I α} {n : Nat}
    (h : (Prog.call op k).AtMost n) : ∃ m, n = m + 1 ∧ ∀ r, (k r).AtMost m := by
  cases n with
  | zero => exact h.elim
  | succ m => exact ⟨m, rfl, h⟩

/-- A program that may perform no operation has returned. -/
theorem Prog.AtMost.returned {p : Prog I α} (h : p.AtMost 0) : ∃ a, p = .ret a := by
  cases p with
  | ret a => exact ⟨a, rfl⟩
  | call op k => exact h.elim

/-! ## Section 2: The pace of a pool -/

namespace Pool

/-- The requests that have arrived. -/
def requests (c : Pool I S Req Resp) : List Req := c.threads.map Thread.req

/-- The operations performed so far. -/
def calls (c : Pool I S Req Resp) : Nat := (c.threads.map fun t => t.done.length).sum

/-- Every thread has performed at most `n` operations, and those it has ahead
    fit into what is left of `n`. -/
def Paced (n : Nat) (c : Pool I S Req Resp) : Prop :=
  ∀ t ∈ c.threads, t.done.length ≤ n ∧ t.prog.AtMost (n - t.done.length)

/-- The operations that may still come, of the requests that are here. -/
def ahead (n : Nat) (c : Pool I S Req Resp) : Nat :=
  (c.threads.map fun t => n - t.done.length).sum

/-- A sum over a list in which one entry is replaced. -/
theorem sum_set {β : Type} (f : β → Nat) {l : List β} {i : Nat} {a : β} (h : l[i]? = some a)
    (a' : β) : ((l.set i a').map f).sum + f a = (l.map f).sum + f a' := by
  induction l generalizing i with
  | nil => cases h
  | cons b l ih =>
    cases i with
    | zero =>
      cases h
      simp only [List.set_cons_zero, List.map_cons, List.sum_cons]
      omega
    | succ i =>
      have := ih h
      simp only [List.set_cons_succ, List.map_cons, List.sum_cons]
      omega

variable {handle : Req → Prog I Resp} {n : Nat} {c c' : Pool I S Req Resp}

/-- **One step keeps the pace.** -/
theorem Paced.step {step : Sem I S} (hhandle : ∀ req, (handle req).AtMost n) (h : c.Paced n)
    (hs : Step handle step c c') : c'.Paced n := by
  cases hs with
  | arrive req =>
    intro t ht
    rcases List.mem_append.mp ht with ht | ht
    · exact h t ht
    · rw [List.mem_singleton.mp ht]
      exact ⟨Nat.zero_le n, hhandle req⟩
  | call i t op k r s' hi hp _ =>
    intro v hv
    rcases List.mem_or_eq_of_mem_set hv with hv | rfl
    · exact h v hv
    · obtain ⟨hle, hmost⟩ := h t (List.mem_of_getElem? hi)
      rw [hp] at hmost
      obtain ⟨m, hm, hk⟩ := hmost.call
      have hlen : (t.done ++ [(c.store, s')]).length = t.done.length + 1 := List.length_append
      constructor
      · show (t.done ++ [(c.store, s')]).length ≤ n
        omega
      · show (k r).AtMost (n - (t.done ++ [(c.store, s')]).length)
        have hleft : n - (t.done ++ [(c.store, s')]).length = m := by omega
        rw [hleft]
        exact hk r

/-- Every operation of the run is one of the at most `n` of some request. -/
theorem Paced.calls_le (h : c.Paced n) : c.calls ≤ n * c.threads.length := by
  unfold calls
  have hle : ∀ m ∈ c.threads.map (fun t => t.done.length), m ≤ n := by
    intro m hm
    obtain ⟨t, ht, rfl⟩ := List.mem_map.mp hm
    exact (h t ht).1
  have := List.sum_le_card_nsmul _ n hle
  rw [List.length_map, smul_eq_mul] at this
  rw [Nat.mul_comm]
  exact this

/-- A step of a thread: one more operation performed, one less ahead, and the
    requests as before. -/
theorem call_counts {i : Nat} {t : Thread I S Req Resp} {op : I.Op}
    {k : I.Reply op → Prog I Resp} (h : c.Paced n) (hi : c.threads[i]? = some t)
    (hp : t.prog = .call op k) (r : I.Reply op) (s' : S) :
    let c' : Pool I S Req Resp :=
      ⟨s', c.threads.set i ⟨t.req, k r, t.done ++ [(c.store, s')]⟩⟩
    c'.calls = c.calls + 1 ∧ c'.ahead n + 1 = c.ahead n ∧ c'.requests = c.requests := by
  obtain ⟨hle, hmost⟩ := h t (List.mem_of_getElem? hi)
  rw [hp] at hmost
  obtain ⟨m, hm, _⟩ := hmost.call
  have hlen : (t.done ++ [(c.store, s')]).length = t.done.length + 1 := List.length_append
  refine ⟨?_, ?_, ?_⟩
  · have hsum := sum_set (fun t : Thread I S Req Resp => t.done.length) hi
      ⟨t.req, k r, t.done ++ [(c.store, s')]⟩
    simp only [hlen] at hsum
    unfold calls
    simp only
    omega
  · have hsum := sum_set (fun t : Thread I S Req Resp => n - t.done.length) hi
      ⟨t.req, k r, t.done ++ [(c.store, s')]⟩
    simp only [hlen] at hsum
    unfold ahead
    simp only
    omega
  · unfold requests
    apply List.ext_getElem?
    intro j
    rw [List.getElem?_map, List.getElem?_map]
    by_cases hij : i = j
    · subst hij
      rw [List.getElem?_set_self (List.getElem?_eq_some_iff.mp hi).1, hi]
      rfl
    · rw [List.getElem?_set_ne hij]

/-! ## Section 3: Coming to an end -/

/-- When nothing is running, every request has its answer. -/
theorem Quiescent.requests (h : c.Quiescent) : c.answers.map Prod.fst = c.requests := by
  unfold answers Pool.requests
  unfold Quiescent at h
  generalize c.threads = threads at h
  induction threads with
  | nil => rfl
  | cons t rest ih =>
    obtain ⟨a, ha⟩ := h t List.mem_cons_self
    rw [List.filterMap_cons, Thread.answer?_ret ha, List.map_cons, List.map_cons]
    rw [ih fun v hv => h v (List.mem_cons_of_mem t hv)]

/-- **Every request can be brought to its end.** `Ready` is what the store
    needs to answer every operation that is waiting; the steps of the
    requests that are here keep it. -/
theorem Paced.finish {step : Sem I S} {Ready : Pool I S Req Resp → Prop}
    (hhandle : ∀ req, (handle req).AtMost n)
    (hkeep : ∀ c c', Ready c → Step handle step c c' → c'.requests = c.requests → Ready c')
    (henabled : ∀ c t op k, Ready c → t ∈ c.threads → t.prog = .call op k →
      ∃ r s', step op c.store r s')
    (h : c.Paced n) (hready : Ready c) :
    ∃ c', Steps handle step c c' ∧ c'.Quiescent ∧ c'.requests = c.requests := by
  -- induction on the number of operations ahead
  induction hn : c.ahead n generalizing c with
  | zero =>
    refine ⟨c, .refl, fun t ht => ?_, rfl⟩
    have hzero : n - t.done.length = 0 :=
      List.sum_eq_zero_iff.mp hn _ (List.mem_map_of_mem ht)
    have hmost := (h t ht).2
    rw [hzero] at hmost
    exact hmost.returned
  | succ m ih =>
    by_cases hdone : c.Quiescent
    · exact ⟨c, .refl, hdone, rfl⟩
    · -- some thread waits for an operation, and the store can answer it
      unfold Quiescent at hdone
      push Not at hdone
      obtain ⟨t, ht, hpending⟩ := hdone
      obtain ⟨i, hi⟩ := List.getElem?_of_mem ht
      cases hp : t.prog with
      | ret a => exact absurd hp (hpending a)
      | call op k =>
        obtain ⟨r, s', hanswer⟩ := henabled c t op k hready ht hp
        have hstep : Step handle step c _ := .call c i t op k r s' hi hp hanswer
        obtain ⟨_, hahead, hreqs⟩ := call_counts h hi hp r s'
        obtain ⟨c', hsteps, hquiet, hsame⟩ :=
          ih (h.step hhandle hstep) (hkeep c _ hready hstep hreqs) (by omega)
        exact ⟨c', .head hstep hsteps, hquiet, hsame.trans hreqs⟩

end Pool

end Effects
