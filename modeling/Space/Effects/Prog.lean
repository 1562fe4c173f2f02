import Space.Rust.Outcome

/-! # Programs over an interface

    A program that talks to the outside only through the operations of an
    interface is a tree: it has returned, or it performs an operation and
    continues with the reply. The tree fixes no meaning for the operations.
    It is read in three ways here:

    * `run`: against a store that answers every operation at once;
    * `feed`: against an arbitrary sequence of replies;
    * `interp`: as a program over a lower interface.

    The reading under interference by other programs is in
    `Space.Effects.Discipline`. -/

namespace Effects

open Rust

/-- Operations, and the type of the reply to each. -/
structure Interface where
  Op : Type
  Reply : Op → Type

/-- A program over `I` that returns an `α`. -/
inductive Prog (I : Interface) (α : Type) : Type where
  | ret (a : α) : Prog I α
  | call (op : I.Op) (k : I.Reply op → Prog I α) : Prog I α

variable {I J : Interface} {α β γ ε S : Type}

namespace Prog

/-! ## Section 1: Sequencing -/

def bind : Prog I α → (α → Prog I β) → Prog I β
  | .ret a, f => f a
  | .call op k, f => .call op fun r => (k r).bind f

def map (f : α → β) : Prog I α → Prog I β
  | .ret a => .ret (f a)
  | .call op k => .call op fun r => (k r).map f

/-- Perform one operation and return its reply. -/
def perform (op : I.Op) : Prog I (I.Reply op) := .call op .ret

@[simp] theorem bind_ret (a : α) (f : α → Prog I β) : (Prog.ret a).bind f = f a := rfl

@[simp] theorem bind_call (op : I.Op) (k : I.Reply op → Prog I α) (f : α → Prog I β) :
    (Prog.call op k).bind f = .call op fun r => (k r).bind f := rfl

@[simp] theorem map_ret (f : α → β) (a : α) : (Prog.ret a : Prog I α).map f = .ret (f a) := rfl

@[simp] theorem map_call (f : α → β) (op : I.Op) (k : I.Reply op → Prog I α) :
    (Prog.call op k).map f = .call op fun r => (k r).map f := rfl

theorem map_map (f : α → β) (g : β → γ) (p : Prog I α) :
    (p.map f).map g = p.map (g ∘ f) := by
  induction p with
  | ret a => rfl
  | call op k ih =>
    rw [map_call, map_call, map_call]
    exact congrArg (Prog.call op) (funext ih)

/-! ## Section 2: Running against a store -/

/-- Run to the end against a store that answers each operation with `exec`. -/
def run (exec : (op : I.Op) → S → I.Reply op × S) : Prog I α → S → α × S
  | .ret a, s => (a, s)
  | .call op k, s => (k (exec op s).1).run exec (exec op s).2

@[simp] theorem run_ret (exec : (op : I.Op) → S → I.Reply op × S) (a : α) (s : S) :
    (Prog.ret a).run exec s = (a, s) := rfl

@[simp] theorem run_call (exec : (op : I.Op) → S → I.Reply op × S) (op : I.Op)
    (k : I.Reply op → Prog I α) (s : S) :
    (Prog.call op k).run exec s = (k (exec op s).1).run exec (exec op s).2 := rfl

/-- The operations that a run performs, in their order. -/
def performed (exec : (op : I.Op) → S → I.Reply op × S) : Prog I α → S → List I.Op
  | .ret _, _ => []
  | .call op k, s => op :: (k (exec op s).1).performed exec (exec op s).2

@[simp] theorem performed_ret (exec : (op : I.Op) → S → I.Reply op × S) (a : α) (s : S) :
    (Prog.ret a).performed exec s = [] := rfl

@[simp] theorem performed_call (exec : (op : I.Op) → S → I.Reply op × S) (op : I.Op)
    (k : I.Reply op → Prog I α) (s : S) :
    (Prog.call op k).performed exec s =
      op :: (k (exec op s).1).performed exec (exec op s).2 := rfl

theorem run_bind (exec : (op : I.Op) → S → I.Reply op × S) (p : Prog I α) (f : α → Prog I β)
    (s : S) : (p.bind f).run exec s = (f (p.run exec s).1).run exec (p.run exec s).2 := by
  induction p generalizing s with
  | ret a => rfl
  | call op k ih => exact ih _ _

theorem run_map (exec : (op : I.Op) → S → I.Reply op × S) (f : α → β) (p : Prog I α) (s : S) :
    (p.map f).run exec s = (f (p.run exec s).1, (p.run exec s).2) := by
  induction p generalizing s with
  | ret a => rfl
  | call op k ih => exact ih _ _

/-- What every operation does to the state in a reflexive and transitive
    way, a run does. -/
theorem run_relates {R : S → S → Prop} (hrefl : ∀ s, R s s)
    (htrans : ∀ {a b c}, R a b → R b c → R a c) {exec : (op : I.Op) → S → I.Reply op × S}
    (hexec : ∀ op s, R s (exec op s).2) (p : Prog I α) (s : S) : R s (p.run exec s).2 := by
  induction p generalizing s with
  | ret a => exact hrefl s
  | call op k ih => exact htrans (hexec op s) (ih _ _)

/-! ## Section 3: Running against arbitrary replies -/

/-- An environment that answers the `n`-th operation of a run as it likes. -/
abbrev Oracle (I : Interface) := Nat → (op : I.Op) → I.Reply op

/-- Run against an oracle; `n` operations have been answered so far. -/
def feed (oracle : Oracle I) : Prog I α → Nat → α
  | .ret a, _ => a
  | .call op k, n => (k (oracle n op)).feed oracle (n + 1)

/-- Whenever all replies satisfy `R`, the value returned satisfies `P`. -/
def Returns (R : (op : I.Op) → I.Reply op → Prop) (P : α → Prop) : Prog I α → Prop
  | .ret a => P a
  | .call op k => ∀ r, R op r → (k r).Returns R P

theorem Returns.feed {R : (op : I.Op) → I.Reply op → Prop} {P : α → Prop} {p : Prog I α}
    (hp : p.Returns R P) (oracle : Oracle I) (horacle : ∀ n op, R op (oracle n op)) (n : Nat) :
    P (p.feed oracle n) := by
  induction p generalizing n with
  | ret a => exact hp
  | call op k ih => exact ih _ (hp _ (horacle n op)) (n + 1)

theorem Returns.run {R : (op : I.Op) → I.Reply op → Prop} {P : α → Prop} {p : Prog I α}
    (hp : p.Returns R P) {exec : (op : I.Op) → S → I.Reply op × S}
    (hexec : ∀ op s, R op (exec op s).1) (s : S) : P (p.run exec s).1 := by
  induction p generalizing s with
  | ret a => exact hp
  | call op k ih => exact ih _ (hp _ (hexec op s)) _

/-! ## Section 4: Interpretation in a lower interface -/

/-- Replace every operation by a program over `J` that computes its reply. -/
def interp (h : (op : I.Op) → Prog J (I.Reply op)) : Prog I α → Prog J α
  | .ret a => .ret a
  | .call op k => (h op).bind fun r => (k r).interp h

@[simp] theorem interp_ret (h : (op : I.Op) → Prog J (I.Reply op)) (a : α) :
    (Prog.ret a).interp h = .ret a := rfl

@[simp] theorem interp_call (h : (op : I.Op) → Prog J (I.Reply op)) (op : I.Op)
    (k : I.Reply op → Prog I α) :
    (Prog.call op k).interp h = (h op).bind fun r => (k r).interp h := rfl

/-- When the lower programs compute every answer from the state alone and do
    not change it, the interpreted program runs as if it were fed the
    answers. -/
theorem run_interp (exec : (op : J.Op) → S → J.Reply op × S)
    (h : (op : I.Op) → Prog J (I.Reply op)) (answer : (op : I.Op) → I.Reply op) (s : S)
    (hh : ∀ op, (h op).run exec s = (answer op, s)) (p : Prog I α) (n : Nat) :
    (p.interp h).run exec s = (p.feed (fun _ => answer) n, s) := by
  induction p generalizing n with
  | ret a => rfl
  | call op k ih =>
    rw [interp_call, run_bind, hh]
    exact ih (answer op) (n + 1)

/-! ## Section 5: Residuals

    What is left of a program after some of its operations were answered. -/

/-- `q` is what is left of `p` after some replies. -/
inductive Residual (p : Prog I α) : Prog I α → Prop where
  | refl : Residual p p
  | step {op : I.Op} {k : I.Reply op → Prog I α} (r : I.Reply op) :
      Residual p (.call op k) → Residual p (k r)

theorem residual_ret {a : α} {q : Prog I α} : Residual (.ret a) q ↔ q = .ret a := by
  constructor
  · intro h
    induction h with
    | refl => rfl
    | step r _ ih => cases ih
  · rintro rfl
    exact .refl

/-- A residual of a call is the call itself or a residual of one of its
    continuations. -/
theorem residual_call {op : I.Op} {k : I.Reply op → Prog I α} {q : Prog I α} :
    Residual (.call op k) q ↔ q = .call op k ∨ ∃ r, Residual (k r) q := by
  constructor
  · intro h
    induction h with
    | refl => exact .inl rfl
    | step r _ ih =>
      rcases ih with heq | ⟨r', h'⟩
      · cases heq
        exact .inr ⟨r, .refl⟩
      · exact .inr ⟨r', .step r h'⟩
  · rintro (rfl | ⟨r, h⟩)
    · exact .refl
    · induction h with
      | refl => exact .step r .refl
      | step r' _ ih => exact .step r' ih

/-! ## Section 6: Operations a program performs -/

/-- Every operation `p` can ever perform satisfies `A`. -/
def Only (A : I.Op → Prop) : Prog I α → Prop
  | .ret _ => True
  | .call op k => A op ∧ ∀ r, (k r).Only A

theorem Only.bind {A : I.Op → Prop} {p : Prog I α} {f : α → Prog I β} (hp : p.Only A)
    (hf : ∀ a, (f a).Only A) : (p.bind f).Only A := by
  induction p with
  | ret a => exact hf a
  | call op k ih => exact ⟨hp.1, fun r => ih r (hp.2 r)⟩

theorem Only.map {A : I.Op → Prop} {p : Prog I α} (f : α → β) (hp : p.Only A) :
    (p.map f).Only A := by
  induction p with
  | ret a => trivial
  | call op k ih => exact ⟨hp.1, fun r => ih r (hp.2 r)⟩

theorem Only.mono {A A' : I.Op → Prop} {p : Prog I α} (hp : p.Only A) (h : ∀ op, A op → A' op) :
    p.Only A' := by
  induction p with
  | ret a => trivial
  | call op k ih => exact ⟨h op hp.1, fun r => ih r (hp.2 r)⟩

/-- Every operation that is still ahead satisfies `A`. -/
theorem Only.residual {A : I.Op → Prop} {p q : Prog I α} (hp : p.Only A) (hq : p.Residual q) :
    q.Only A := by
  induction hq with
  | refl => exact hp
  | step r _ ih => exact ih.2 r

/-- The same without a lower interface, for a program that performs only
    operations that are answered from the state alone. -/
theorem Only.run {A : I.Op → Prop} {exec : (op : I.Op) → S → I.Reply op × S}
    {answer : (op : I.Op) → I.Reply op} {s : S} (hexec : ∀ op, A op → exec op s = (answer op, s))
    {p : Prog I α} (hp : p.Only A) (n : Nat) :
    p.run exec s = (p.feed (fun _ => answer) n, s) := by
  induction p generalizing n with
  | ret a => rfl
  | call op k ih =>
    rw [run_call, hexec op hp.1]
    exact ih _ (hp.2 _) (n + 1)

theorem Only.interp {A : J.Op → Prop} {h : (op : I.Op) → Prog J (I.Reply op)} (p : Prog I α)
    (hh : ∀ op, (h op).Only A) : (p.interp h).Only A := by
  induction p with
  | ret a => trivial
  | call op k ih => exact (hh op).bind ih

end Prog

/-! ## Section 7: Programs that may fail

    A handler returns an `Outcome`. `Fallible` is the monad in which such a
    program is written: the `?` operator leaves the program early. -/

/-- A program over `I` whose result is an `Outcome`. -/
def Fallible (I : Interface) (ε α : Type) : Type := Prog I (Outcome ε α)

namespace Fallible

/-- A result that needs no operation. -/
def done (x : Outcome ε α) : Fallible I ε α := Prog.ret x

/-- Go on with `f` after `Ok`; an error or a panic ends the program. -/
def onOk (f : α → Prog I (Outcome ε β)) : Outcome ε α → Prog I (Outcome ε β)
  | .ok a => f a
  | .err e => .ret (.err e)
  | .panic => .ret .panic

def bind (p : Fallible I ε α) (f : α → Fallible I ε β) : Fallible I ε β :=
  Prog.bind p (onOk f)

instance : Monad (Fallible I ε) where
  pure a := done (.ok a)
  bind := bind

instance : MonadLift (Outcome ε) (Fallible I ε) where
  monadLift := done

/-! The simp set brings a `do` block to the constructors of `Prog`. The
    rule for a bind is applied from the outside in, while the types are
    still those of the monad. -/

@[simp ↓] theorem bind_eq (p : Fallible I ε α) (f : α → Fallible I ε β) :
    (@Bind.bind (Fallible I ε) _ α β p f) = Prog.bind p (onOk f) := rfl

@[simp ↓] theorem pure_eq (a : α) :
    (@pure (Fallible I ε) _ α a) = Prog.ret (Outcome.ok a) := rfl

@[simp ↓] theorem lift_eq (x : Outcome ε α) :
    (@liftM (Outcome ε) (Fallible I ε) _ α x) = Prog.ret x := rfl

@[simp] theorem onOk_ok (f : α → Prog I (Outcome ε β)) (a : α) :
    onOk f (.ok a) = f a := rfl

@[simp] theorem onOk_err (f : α → Prog I (Outcome ε β)) (e : ε) :
    onOk f (.err e) = .ret (.err e) := rfl

@[simp] theorem onOk_panic (f : α → Prog I (Outcome ε β)) :
    onOk f .panic = .ret .panic := rfl

theorem only_onOk {A : I.Op → Prop} {f : α → Prog I (Outcome ε β)} {x : Outcome ε α}
    (hf : ∀ a, x = .ok a → (f a).Only A) : Prog.Only A (onOk f x) := by
  cases x with
  | ok a => exact hf a rfl
  | err e => exact trivial
  | panic => exact trivial

/-- The `?` operator under arbitrary replies. -/
theorem returns_onOk {R : (op : I.Op) → I.Reply op → Prop} {P : Outcome ε β → Prop}
    {f : α → Prog I (Outcome ε β)} {x : Outcome ε α}
    (hok : ∀ a, x = .ok a → (f a).Returns R P) (herr : ∀ e, x = .err e → P (.err e))
    (hpanic : x = .panic → P .panic) : Prog.Returns R P (onOk f x) := by
  cases x with
  | ok a => exact hok a rfl
  | err e => exact herr e rfl
  | panic => exact hpanic rfl

/-- The `?` operator raises what its operand raises, and what the rest of the
    program raises. -/
theorem returns_onOk_raises {R : (op : I.Op) → I.Reply op → Prop} {P : ε → Prop}
    {f : α → Prog I (Outcome ε β)} {x : Outcome ε α} (hx : x.Raises P)
    (hf : ∀ a, x = .ok a → (f a).Returns R (Outcome.Raises P)) :
    Prog.Returns R (Outcome.Raises P) (onOk f x) :=
  returns_onOk hf (fun e h => Outcome.raises_err.mpr (hx e h)) fun _ => Outcome.raises_panic

/-- What a program guarantees of its success, only the rest of it has to. -/
theorem returns_onOk_ok {R : (op : I.Op) → I.Reply op → Prop} {P : β → Prop}
    {f : α → Prog I (Outcome ε β)} {x : Outcome ε α}
    (hf : ∀ a, x = .ok a → (f a).Returns R fun y => ∀ b, y = .ok b → P b) :
    Prog.Returns R (fun y => ∀ b, y = .ok b → P b) (onOk f x) :=
  returns_onOk hf (fun _ _ _ h => by cases h) fun _ _ h => by cases h

/-- The `?` operator in a run: the rest of the program, or the state as it
    is now. -/
theorem run_onOk (exec : (op : I.Op) → S → I.Reply op × S) (f : α → Prog I (Outcome ε β))
    (x : Outcome ε α) (s : S) :
    Prog.run exec (onOk f x) s = x.tryAt s fun a => (f a).run exec s := by
  cases x <;> rfl

end Fallible

end Effects
