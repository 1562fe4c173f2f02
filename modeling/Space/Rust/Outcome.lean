import Mathlib.Logic.Basic
import Mathlib.Tactic.Common

/-! # Outcomes of Rust functions

    A Rust function that returns `Result<T, E>` ends in one of three ways:
    it returns `Ok`, it returns `Err`, or it panics. `Outcome` keeps the
    three apart, so that "never panics" is a statement about a value and
    not about the model.

    Nothing in this file knows about a particular program. -/

namespace Rust

/-- How a call ends. -/
inductive Outcome (ε α : Type) where
  | ok (a : α)
  | err (e : ε)
  | panic
  deriving DecidableEq, Repr

namespace Outcome

variable {ε α β : Type}

/-- The `?` operator: go on with the value, or return early. -/
def bind (x : Outcome ε α) (f : α → Outcome ε β) : Outcome ε β :=
  match x with
  | .ok a => f a
  | .err e => .err e
  | .panic => .panic

instance : Monad (Outcome ε) where
  pure := .ok
  bind := bind

instance : LawfulMonad (Outcome ε) :=
  LawfulMonad.mk' _ (fun x => by cases x <;> rfl) (fun _ _ => rfl) fun x _ _ => by cases x <;> rfl

/-- `Option::ok_or`. -/
def okOr (o : Option α) (e : ε) : Outcome ε α :=
  match o with
  | some a => .ok a
  | none => .err e

/-- `Result::map_err`. -/
def mapErr {ε' : Type} (f : ε → ε') (x : Outcome ε α) : Outcome ε' α :=
  match x with
  | .ok a => .ok a
  | .err e => .err (f e)
  | .panic => .panic

/-- The guard `if bad { return Err(e) }`. -/
def rejectIf (bad : Bool) (e : ε) : Outcome ε Unit :=
  if bad then .err e else .ok ()

/-- `x?` in a method that changes a state: an early return leaves the state
    as it is now, `s`. -/
def tryAt {S : Type} (x : Outcome ε α) (s : S) (k : α → Outcome ε β × S) : Outcome ε β × S :=
  match x with
  | .ok a => k a
  | .err e => (.err e, s)
  | .panic => (.panic, s)

def isErr : Outcome ε α → Bool
  | .err _ => true
  | _ => false

def isOk : Outcome ε α → Bool
  | .ok _ => true
  | _ => false

/-- `Result::ok`: the value, if there is one. -/
def toOption : Outcome ε α → Option α
  | .ok a => some a
  | _ => none

/-! ## Simp set -/

@[simp] theorem pure_eq (a : α) : (pure a : Outcome ε α) = .ok a := rfl

@[simp] theorem ok_bind (a : α) (f : α → Outcome ε β) : (Outcome.ok a >>= f) = f a := rfl

@[simp] theorem err_bind (e : ε) (f : α → Outcome ε β) :
    ((Outcome.err e : Outcome ε α) >>= f) = .err e := rfl

@[simp] theorem panic_bind (f : α → Outcome ε β) :
    ((Outcome.panic : Outcome ε α) >>= f) = .panic := rfl

@[simp] theorem ok_map (a : α) (f : α → β) :
    (f <$> (Outcome.ok a : Outcome ε α)) = .ok (f a) := rfl

@[simp] theorem err_map (e : ε) (f : α → β) :
    (f <$> (Outcome.err e : Outcome ε α)) = .err e := rfl

@[simp] theorem panic_map (f : α → β) :
    (f <$> (Outcome.panic : Outcome ε α)) = .panic := rfl

@[simp] theorem okOr_some (a : α) (e : ε) : okOr (some a) e = .ok a := rfl

@[simp] theorem okOr_none (e : ε) : okOr (none : Option α) e = .err e := rfl

@[simp] theorem rejectIf_false (e : ε) : rejectIf false e = .ok () := rfl

@[simp] theorem rejectIf_true (e : ε) : rejectIf true e = .err e := rfl

@[simp] theorem tryAt_ok {S : Type} (a : α) (s : S) (k : α → Outcome ε β × S) :
    tryAt (.ok a) s k = k a := rfl

@[simp] theorem tryAt_err {S : Type} (e : ε) (s : S) (k : α → Outcome ε β × S) :
    tryAt (.err e) s k = (.err e, s) := rfl

/-- A method that only wraps its result. -/
theorem tryAt_map {S : Type} (x : Outcome ε α) (s : S) (f : α → β) :
    (tryAt x s fun a => (.ok (f a), s)) = (f <$> x, s) := by
  cases x <;> rfl

/-- What such a method returns, without the state it leaves. -/
theorem tryAt_fst {S : Type} (x : Outcome ε α) (s : S) (k : α → Outcome ε β × S) :
    (tryAt x s k).1 = x >>= fun a => (k a).1 := by
  cases x <;> rfl

@[simp] theorem isOk_ok (a : α) : (Outcome.ok a : Outcome ε α).isOk = true := rfl

@[simp] theorem isOk_err (e : ε) : (Outcome.err e : Outcome ε α).isOk = false := rfl

@[simp] theorem isOk_panic : (Outcome.panic : Outcome ε α).isOk = false := rfl

@[simp] theorem isErr_ok (a : α) : (Outcome.ok a : Outcome ε α).isErr = false := rfl

@[simp] theorem isErr_err (e : ε) : (Outcome.err e : Outcome ε α).isErr = true := rfl

@[simp] theorem isErr_panic : (Outcome.panic : Outcome ε α).isErr = false := rfl

/-! ## Inversion -/

/-- A sequence returns `Ok` only when both halves do. -/
theorem bind_eq_ok {x : Outcome ε α} {f : α → Outcome ε β} {b : β} :
    (x >>= f) = .ok b ↔ ∃ a, x = .ok a ∧ f a = .ok b := by
  cases x <;> simp

theorem seq_eq_ok {x : Outcome ε Unit} {y : Outcome ε β} {b : β} :
    (x >>= fun _ => y) = .ok b ↔ x = .ok () ∧ y = .ok b := by
  cases x <;> simp

theorem map_eq_ok {x : Outcome ε α} {f : α → β} {b : β} :
    (f <$> x) = .ok b ↔ ∃ a, x = .ok a ∧ f a = b := by
  cases x <;> simp

theorem isOk_eq_true {x : Outcome ε α} : x.isOk = true ↔ ∃ a, x = .ok a := by
  cases x <;> simp [isOk]

theorem toOption_eq_some {x : Outcome ε α} {a : α} : x.toOption = some a ↔ x = .ok a := by
  cases x <;> simp [toOption]

/-- A method that returns `Ok` went past its first `?`. -/
theorem tryAt_eq_ok {S : Type} {x : Outcome ε α} {s : S} {k : α → Outcome ε β × S} {b : β}
    (h : (tryAt x s k).1 = .ok b) : ∃ a, x = .ok a ∧ tryAt x s k = k a := by
  cases x with
  | ok a => exact ⟨a, rfl, rfl⟩
  | err e => cases h
  | panic => cases h

theorem okOr_eq_ok {o : Option α} {e : ε} {a : α} : okOr o e = .ok a ↔ o = some a := by
  cases o <;> simp

theorem mapErr_eq_ok {ε' : Type} {f : ε → ε'} {x : Outcome ε α} {a : α} :
    mapErr f x = .ok a ↔ x = .ok a := by
  cases x <;> simp [mapErr]

@[simp] theorem rejectIf_eq_ok {bad : Bool} {e : ε} {u : Unit} :
    rejectIf bad e = .ok u ↔ bad = false := by
  cases bad <;> simp [rejectIf]

theorem forM_eq_ok {xs : List α} {f : α → Outcome ε PUnit} :
    forM xs f = .ok ⟨⟩ ↔ ∀ x ∈ xs, f x = .ok ⟨⟩ := by
  induction xs with
  | nil => simp
  | cons x xs ih =>
    simp only [List.forM_cons, List.mem_cons, forall_eq_or_imp, ← ih]
    exact seq_eq_ok

/-- A loop none of whose rounds fails. -/
theorem mapM_eq_ok {xs : List α} {f : α → Outcome ε β} {g : α → β}
    (hf : ∀ x ∈ xs, f x = .ok (g x)) : xs.mapM f = .ok (xs.map g) := by
  induction xs with
  | nil => rfl
  | cons x xs ih =>
    rw [List.mapM_cons, hf x (by simp), ok_bind, ih fun y hy => hf y (by simp [hy]), ok_bind,
      pure_eq, List.map_cons]

/-! ## Checks

    A check returns `Ok` or an error of a known kind, and never panics.
    Checks are closed under sequencing and loops, so a validator made of
    checks is a check. -/

/-- `x` returns, and an error it returns satisfies `P`. -/
def Checks (P : ε → Prop) (x : Outcome ε α) : Prop :=
  match x with
  | .ok _ => True
  | .err e => P e
  | .panic => False

variable {P : ε → Prop}

@[simp] theorem checks_ok (a : α) : Checks P (.ok a : Outcome ε α) := trivial

@[simp] theorem checks_err {e : ε} : Checks P (.err e : Outcome ε α) ↔ P e := Iff.rfl

theorem Checks.mono {Q : ε → Prop} {x : Outcome ε α} (hx : Checks P x) (h : ∀ e, P e → Q e) :
    Checks Q x := by
  cases x with
  | ok a => trivial
  | err e => exact h e hx
  | panic => exact hx

theorem checks_okOr {o : Option α} {e : ε} (he : P e) : Checks P (okOr o e) := by
  cases o with
  | none => exact he
  | some a => trivial

theorem checks_rejectIf {bad : Bool} {e : ε} (he : P e) : Checks P (rejectIf bad e) := by
  cases bad with
  | false => trivial
  | true => exact he

theorem Checks.bind {x : Outcome ε α} {f : α → Outcome ε β} (hx : Checks P x)
    (hf : ∀ a, Checks P (f a)) : Checks P (x >>= f) := by
  cases x with
  | ok a => exact hf a
  | err e => exact hx
  | panic => exact hx.elim

/-- The rest of a check may rely on what its first part found. -/
theorem Checks.bind_of_eq {x : Outcome ε α} {f : α → Outcome ε β} (hx : Checks P x)
    (hf : ∀ a, x = .ok a → Checks P (f a)) : Checks P (x >>= f) := by
  cases x with
  | ok a => exact hf a rfl
  | err e => exact hx
  | panic => exact hx.elim

theorem checks_mapErr {ε' : Type} {f : ε' → ε} {x : Outcome ε' α}
    (hx : Checks (fun _ => True) x) (hf : ∀ e, P (f e)) : Checks P (mapErr f x) := by
  cases x with
  | ok a => trivial
  | err e => exact hf e
  | panic => exact hx.elim

theorem checks_forM {xs : List α} {f : α → Outcome ε PUnit} (hf : ∀ x, Checks P (f x)) :
    Checks P (forM xs f) := by
  induction xs with
  | nil => trivial
  | cons x xs ih =>
    rw [List.forM_cons]
    exact (hf x).bind fun _ => ih

/-- A check that does not return `Ok` returns an error of its kind. -/
theorem Checks.err_of_ne_ok {x : Outcome ε Unit} (hx : Checks P x) (hne : x ≠ .ok ()) :
    ∃ e, x = .err e ∧ P e := by
  cases x with
  | ok a => exact absurd rfl hne
  | err e => exact ⟨e, rfl, hx⟩
  | panic => exact hx.elim

/-- A check with one possible error has two outcomes. -/
theorem Checks.ok_or_err {x : Outcome ε PUnit} {e : ε} (hx : Checks (fun e' => e' = e) x) :
    x = .ok ⟨⟩ ∨ x = .err e := by
  cases x with
  | ok a => exact .inl rfl
  | err e' => exact .inr (congrArg Outcome.err hx)
  | panic => exact hx.elim

/-- A loop whose rounds can only fail with one error does not depend on the
    order of its rounds. -/
theorem forM_perm {xs ys : List α} {f : α → Outcome ε PUnit} {e : ε}
    (hf : ∀ x, Checks (fun e' => e' = e) (f x)) (h : xs.Perm ys) : forM xs f = forM ys f := by
  induction h with
  | nil => rfl
  | cons x _ ih => rw [List.forM_cons, List.forM_cons, ih]
  | swap x y rest =>
    simp only [List.forM_cons]
    rcases (hf x).ok_or_err with hx | hx
    · rw [hx, ok_bind, ok_bind]
    · rcases (hf y).ok_or_err with hy | hy
      · rw [hx, hy, ok_bind, ok_bind]
      · rw [hx, hy, err_bind]
  | trans _ _ ih ih' => rw [ih, ih']

theorem Checks.ne_panic {x : Outcome ε α} (hx : Checks P x) : x ≠ .panic := by
  rintro rfl
  exact hx

/-- A check in front of a method: it is passed, or the method returns its
    error at once. -/
theorem Checks.tryAt_cases {S : Type} {x : Outcome ε α} (hx : Checks P x) (s : S)
    (k : α → Outcome ε β × S) :
    (∃ a, x = .ok a ∧ tryAt x s k = k a) ∨ ∃ e, P e ∧ tryAt x s k = (.err e, s) := by
  cases x with
  | ok a => exact .inl ⟨a, rfl, rfl⟩
  | err e => exact .inr ⟨e, hx, rfl⟩
  | panic => exact hx.elim

/-! ## Errors

    A weaker notion than a check: a panic is allowed. -/

/-- An error of `x` satisfies `P`. -/
def Raises (P : ε → Prop) (x : Outcome ε α) : Prop := ∀ e, x = .err e → P e

@[simp] theorem raises_ok (a : α) : Raises P (.ok a : Outcome ε α) := by
  intro e h
  cases h

@[simp] theorem raises_panic : Raises P (.panic : Outcome ε α) := by
  intro e h
  cases h

@[simp] theorem raises_err {e : ε} : Raises P (.err e : Outcome ε α) ↔ P e := by
  constructor
  · intro h
    exact h e rfl
  · intro h e' heq
    cases heq
    exact h

theorem Checks.raises {x : Outcome ε α} (hx : Checks P x) : Raises P x := by
  intro e h
  rw [h] at hx
  exact hx

theorem Raises.mono {Q : ε → Prop} {x : Outcome ε α} (hx : Raises P x) (h : ∀ e, P e → Q e) :
    Raises Q x := fun e heq => h e (hx e heq)

theorem Raises.bind {x : Outcome ε α} {f : α → Outcome ε β} (hx : Raises P x)
    (hf : ∀ a, Raises P (f a)) : Raises P (x >>= f) := by
  cases x with
  | ok a => exact hf a
  | err e => exact raises_err.mpr (hx e rfl)
  | panic => exact raises_panic

theorem raises_tryAt {S : Type} {x : Outcome ε α} {s : S} {k : α → Outcome ε β × S}
    (hx : Raises P x) (hk : ∀ a, x = .ok a → Raises P (k a).1) : Raises P (tryAt x s k).1 := by
  cases x with
  | ok a => exact hk a rfl
  | err e => exact raises_err.mpr (hx e rfl)
  | panic => exact raises_panic

end Outcome

end Rust
