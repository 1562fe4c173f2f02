import Space.Effects.Discipline

/-! # A pool of requests over one store

    Requests arrive at any time and are handled concurrently: each request
    becomes a thread whose program is its handler, and at every step one
    thread performs one operation on the shared store. A thread that has
    returned stays in the pool, so the pool is also the history of the run.

    `Sound.steps` is the soundness of the rely-guarantee rules: a handler
    verified on its own with `Ensures` is verified in every interleaving. -/

namespace Effects

open Rust

variable {I : Interface} {S Req Resp α : Type}

/-- A request being handled, or handled already. -/
structure Thread (I : Interface) (S Req Resp : Type) where
  req : Req
  /-- What is left of the handler. -/
  prog : Prog I Resp
  /-- The changes its operations made so far. -/
  done : List (Change S)

/-- The store and all requests that have arrived. -/
structure Pool (I : Interface) (S Req Resp : Type) where
  store : S
  threads : List (Thread I S Req Resp)

namespace Pool

/-- The thread has returned `a`. -/
def Answered (c : Pool I S Req Resp) (req : Req) (a : Resp) : Prop :=
  ∃ t ∈ c.threads, t.req = req ∧ t.prog = .ret a

section semantics

variable (handle : Req → Prog I Resp) (step : Sem I S)

/-- One step of the pool: a request arrives, or a thread performs its next
    operation. -/
inductive Step : Pool I S Req Resp → Pool I S Req Resp → Prop where
  | arrive (c : Pool I S Req Resp) (req : Req) :
      Step c { c with threads := c.threads ++ [⟨req, handle req, []⟩] }
  | call (c : Pool I S Req Resp) (i : Nat) (t : Thread I S Req Resp) (op : I.Op)
      (k : I.Reply op → Prog I Resp) (r : I.Reply op) (s' : S) :
      c.threads[i]? = some t → t.prog = .call op k → step op c.store r s' →
      Step c { store := s', threads := c.threads.set i ⟨t.req, k r, t.done ++ [(c.store, s')]⟩ }

/-- Any number of steps. -/
abbrev Steps : Pool I S Req Resp → Pool I S Req Resp → Prop :=
  Relation.ReflTransGen (Step handle step)

end semantics

variable {handle : Req → Prog I Resp}

/-! ## Section 1: Threads run their handlers -/

/-- Every thread is somewhere inside the handler of its request. -/
def OnTrack (handle : Req → Prog I Resp) (c : Pool I S Req Resp) : Prop :=
  ∀ t ∈ c.threads, (handle t.req).Residual t.prog

theorem OnTrack.step {step : Sem I S} {c c' : Pool I S Req Resp} (h : OnTrack handle c)
    (hs : Step handle step c c') : OnTrack handle c' := by
  cases hs with
  | arrive req =>
    intro t ht
    rcases List.mem_append.mp ht with ht | ht
    · exact h t ht
    · rw [List.mem_singleton.mp ht]
      exact .refl
  | call i t op k r s' hi hp _ =>
    intro u hu
    -- either another thread, or the one that has taken a step
    rcases List.mem_or_eq_of_mem_set hu with hu | rfl
    · exact h u hu
    · have ht := h t (List.mem_of_getElem? hi)
      rw [hp] at ht
      exact .step r ht

theorem OnTrack.steps {step : Sem I S} {c c' : Pool I S Req Resp} (h : OnTrack handle c)
    (hs : Steps handle step c c') : OnTrack handle c' := by
  induction hs with
  | refl => exact h
  | tail _ hstep ih => exact ih.step hstep

/-- A request that has arrived stays in the history. -/
theorem Step.request {step : Sem I S} {c c' : Pool I S Req Resp} (hs : Step handle step c c')
    {req : Req} (h : ∃ t ∈ c.threads, t.req = req) : ∃ t ∈ c'.threads, t.req = req := by
  obtain ⟨t, ht, hreq⟩ := h
  cases hs with
  | arrive req' => exact ⟨t, List.mem_append_left _ ht, hreq⟩
  | call i u op k r s' hi hp _ =>
    obtain ⟨j, hj⟩ := List.getElem?_of_mem ht
    by_cases hij : i = j
    · -- the thread that steps keeps its request
      subst hij
      rw [hi] at hj
      cases hj
      exact ⟨_, List.mem_set (List.getElem?_eq_some_iff.mp hi).1 _, hreq⟩
    · refine ⟨t, List.mem_of_getElem? (i := j) ?_, hreq⟩
      rw [List.getElem?_set_ne hij]
      exact hj

/-- An answer, once given, stays in the history. -/
theorem Answered.step {step : Sem I S} {c c' : Pool I S Req Resp} {req : Req} {a : Resp}
    (h : c.Answered req a) (hs : Step handle step c c') : c'.Answered req a := by
  obtain ⟨t, ht, hreq, hret⟩ := h
  cases hs with
  | arrive req' => exact ⟨t, List.mem_append_left _ ht, hreq, hret⟩
  | call i u op k r s' hi hp _ =>
    obtain ⟨j, hj⟩ := List.getElem?_of_mem ht
    have hne : i ≠ j := by
      -- the thread that steps has not returned
      rintro rfl
      rw [hi] at hj
      cases hj
      rw [hp] at hret
      cases hret
    refine ⟨t, List.mem_of_getElem? (i := j) ?_, hreq, hret⟩
    rw [List.getElem?_set_ne hne]
    exact hj

theorem Answered.steps {step : Sem I S} {c c' : Pool I S Req Resp} {req : Req} {a : Resp}
    (h : c.Answered req a) (hs : Steps handle step c c') : c'.Answered req a := by
  induction hs with
  | refl => exact h
  | tail _ hstep ih => exact ih.step hstep

/-! ## Section 2: Soundness of the rules -/

variable {D : Discipline I S} {Post : Req → Resp → List (Change S) → S → Prop}

/-- The store satisfies the invariant, and every thread will keep to the
    discipline and return with the postcondition of its request. -/
structure Sound (D : Discipline I S) (Post : Req → Resp → List (Change S) → S → Prop)
    (c : Pool I S Req Resp) : Prop where
  inv : D.Inv c.store
  threads : ∀ t ∈ c.threads, Ensures D t.prog (Post t.req) t.done c.store

/-- Another party performs an operation on the store: every thread sees it
    as interference. -/
theorem Sound.interfere {c : Pool I S Req Resp} (h : Sound D Post c) {s' : S}
    (hinv : D.Inv s') (hr : D.Rely c.store s') :
    Sound D Post { c with store := s' } where
  inv := hinv
  threads := fun t ht => (h.threads t ht).weaken hr

/-- **One step keeps soundness**, and moves the store along `Rely`. -/
theorem Sound.step {c c' : Pool I S Req Resp} (h : Sound D Post c)
    (hhandle : ∀ req s, D.Inv s → Ensures D (handle req) (Post req) [] s)
    (hs : Step handle D.step c c') : Sound D Post c' ∧ D.Rely c.store c'.store := by
  cases hs with
  | arrive req =>
    refine ⟨⟨h.inv, fun t ht => ?_⟩, D.refl _⟩
    rcases List.mem_append.mp ht with ht | ht
    · exact h.threads t ht
    · rw [List.mem_singleton.mp ht]
      exact hhandle req c.store h.inv
  | call i t op k r s' hi hp hstep =>
    have ht := h.threads t (List.mem_of_getElem? hi)
    rw [hp] at ht
    -- for the other threads this step is interference
    obtain ⟨hinv, hr⟩ := D.preserves h.inv (ht.pre h.inv) hstep
    refine ⟨⟨hinv, fun u hu => ?_⟩, hr⟩
    rcases List.mem_or_eq_of_mem_set hu with hu | rfl
    · exact (h.threads u hu).weaken hr
    · exact ht.advance h.inv hstep

/-- **Soundness over runs.** -/
theorem Sound.steps {c c' : Pool I S Req Resp} (h : Sound D Post c)
    (hhandle : ∀ req s, D.Inv s → Ensures D (handle req) (Post req) [] s)
    (hs : Steps handle D.step c c') : Sound D Post c' ∧ D.Rely c.store c'.store := by
  induction hs with
  | refl => exact ⟨h, D.refl _⟩
  | tail _ hstep ih =>
    obtain ⟨hc, hr⟩ := ih
    obtain ⟨hc', hr'⟩ := hc.step hhandle hstep
    exact ⟨hc', D.trans hr hr'⟩

/-- A request that was answered was answered with its postcondition. -/
theorem Sound.answered {c : Pool I S Req Resp} (h : Sound D Post c) {req : Req} {a : Resp}
    (ha : c.Answered req a) : ∃ tr, Post req a tr c.store := by
  obtain ⟨t, ht, rfl, hret⟩ := ha
  have := h.threads t ht
  rw [hret] at this
  exact ⟨t.done, this.returned h.inv⟩

/-! ## Section 3: Undisturbed requests

    Handling one request from start to end, with no other step in between,
    is one of the runs of the pool. -/

/-- The operations of `p`, run from `s` with `exec`, are steps of the store. -/
def Follows (step : Sem I S) (exec : (op : I.Op) → S → I.Reply op × S) :
    Prog I α → S → Prop
  | .ret _, _ => True
  | .call op k, s => step op s (exec op s).1 (exec op s).2 ∧
      Follows step exec (k (exec op s).1) (exec op s).2

/-- The changes `p` makes when it runs from `s` with `exec`. -/
def changes (exec : (op : I.Op) → S → I.Reply op × S) : Prog I α → S → List (Change S)
  | .ret _, _ => []
  | .call op k, s => (s, (exec op s).2) :: changes exec (k (exec op s).1) (exec op s).2

/-- The pool after `req` has arrived and was handled at once. -/
def serve (handle : Req → Prog I Resp) (exec : (op : I.Op) → S → I.Reply op × S)
    (c : Pool I S Req Resp) (req : Req) : Pool I S Req Resp where
  store := ((handle req).run exec c.store).2
  threads := c.threads ++
    [⟨req, .ret ((handle req).run exec c.store).1, changes exec (handle req) c.store⟩]

theorem steps_run {step : Sem I S} {exec : (op : I.Op) → S → I.Reply op × S}
    {threads : List (Thread I S Req Resp)} {req : Req} {p : Prog I Resp} {s : S}
    {done : List (Change S)} (h : Follows step exec p s) :
    Steps handle step ⟨s, threads ++ [⟨req, p, done⟩]⟩
      ⟨(p.run exec s).2, threads ++ [⟨req, .ret (p.run exec s).1, done ++ changes exec p s⟩]⟩ := by
  induction p generalizing s done with
  | ret a =>
    rw [changes, List.append_nil]
    exact .refl
  | call op k ih =>
    -- the thread of this request is the last one of the pool
    have hlast : (threads ++ [⟨req, Prog.call op k, done⟩])[threads.length]? =
        some (⟨req, Prog.call op k, done⟩ : Thread I S Req Resp) := by
      simp
    have hfirst : Step handle step _ _ := .call ⟨s, threads ++ [⟨req, .call op k, done⟩]⟩
      threads.length _ op k _ _ hlast rfl h.1
    rw [List.set_append_right _ _ (Nat.le_refl _), Nat.sub_self, List.set_cons_zero] at hfirst
    have hrest := @ih _ _ (done ++ [(s, (exec op s).2)]) h.2
    rw [List.append_assoc] at hrest
    exact .head hfirst hrest

/-- Serving `req` to the end from a pool is a run of the pool. -/
theorem steps_serve {step : Sem I S} {exec : (op : I.Op) → S → I.Reply op × S}
    (c : Pool I S Req Resp) (req : Req) (h : Follows step exec (handle req) c.store) :
    Steps handle step c (c.serve handle exec req) :=
  .head (.arrive c req) (steps_run h)

/-! ## Section 4: A client program among the requests

    A client runs a program of its own against the same store. Between any
    two of its operations, and before its first and after its last, the pool
    takes as many steps as it likes. -/

/-- The client's program, started in `c`, returns `a` and leaves `c'`. -/
inductive ClientRun (handle : Req → Prog I Resp) (step : Sem I S) :
    Prog I α → Pool I S Req Resp → α → Pool I S Req Resp → Prop where
  | ret {a : α} {c c' : Pool I S Req Resp} :
      Steps handle step c c' → ClientRun handle step (.ret a) c a c'
  | call {op : I.Op} {k : I.Reply op → Prog I α} {a : α} {r : I.Reply op} {s' : S}
      {c c₁ c' : Pool I S Req Resp} :
      Steps handle step c c₁ → step op c₁.store r s' →
      ClientRun handle step (k r) { c₁ with store := s' } a c' →
      ClientRun handle step (.call op k) c a c'

/-- A verified client returns with its postcondition, however its operations
    interleave with the requests. -/
theorem ClientRun.ensures {p : Prog I α} {c c' : Pool I S Req Resp} {a : α}
    {Q : α → List (Change S) → S → Prop} {done : List (Change S)}
    (hrun : ClientRun handle D.step p c a c')
    (hhandle : ∀ req s, D.Inv s → Ensures D (handle req) (Post req) [] s)
    (hc : Sound D Post c) (h : Ensures D p Q done c.store) : ∃ tr, Q a tr c'.store := by
  induction hrun generalizing done with
  | ret hs =>
    obtain ⟨hc', hr⟩ := hc.steps hhandle hs
    exact ⟨done, (h.weaken hr).returned hc'.inv⟩
  | call hs hstep _ ih =>
    obtain ⟨hc₁, hr⟩ := hc.steps hhandle hs
    have h₁ := h.weaken hr
    obtain ⟨hinv, hr'⟩ := D.preserves hc₁.inv (h₁.pre hc₁.inv) hstep
    exact ih (hc₁.interfere hinv hr') (h₁.advance hc₁.inv hstep)

/-- A client that performs only operations the store always answers can run
    to its end. -/
theorem ClientRun.exists {step : Sem I S} {A : I.Op → Prop} {p : Prog I α}
    (c : Pool I S Req Resp) (hp : p.Only A) (htotal : ∀ op s, A op → ∃ r s', step op s r s') :
    ∃ a c', ClientRun handle step p c a c' := by
  induction p generalizing c with
  | ret a => exact ⟨a, c, .ret .refl⟩
  | call op k ih =>
    obtain ⟨r, s', hs⟩ := htotal op c.store hp.1
    obtain ⟨a, c', hrun⟩ := ih r { c with store := s' } (hp.2 r)
    exact ⟨a, c', .call .refl hs hrun⟩

end Pool

end Effects
