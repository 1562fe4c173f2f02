import Mathlib.Logic.Relation
import Mathlib.Data.List.Infix
import Mathlib.Logic.Function.Basic

/-! # Archives

    An archive keeps under each name the editions that were published under
    it, the oldest first, each with its content. A name can be entered, and
    an edition that was not published before can be published under a name
    that is there. Nothing is ever changed or taken away. -/

namespace Data

/-- The editions under each name; `none` for a name that was not entered. -/
structure Archive (N E B : Type) where
  editions : N → Option (List (E × B))

namespace Archive

variable {N E B : Type}

/-! ## Section 1: Steps -/

def empty : Archive N E B := ⟨fun _ => none⟩

/-- `e` was published under `n` with the content `b`. -/
def Published (a : Archive N E B) (n : N) (e : E) (b : B) : Prop :=
  ∃ h, a.editions n = some h ∧ (e, b) ∈ h

/-- The last edition under a name. -/
def latest (a : Archive N E B) (n : N) : Option (E × B) := (a.editions n).bind List.getLast?

section steps

variable [DecidableEq N]

def enter (a : Archive N E B) (n : N) : Archive N E B := ⟨Function.update a.editions n (some [])⟩

def publish (a : Archive N E B) (n : N) (h : List (E × B)) (e : E) (b : B) : Archive N E B :=
  ⟨Function.update a.editions n (some (h ++ [(e, b)]))⟩

inductive Step : Archive N E B → Archive N E B → Prop where
  | enter {a : Archive N E B} {n : N} : a.editions n = none → Step a (a.enter n)
  | publish {a : Archive N E B} {n : N} {h : List (E × B)} {e : E} {b : B} :
      a.editions n = some h → (∀ n' b', ¬ a.Published n' e b') → Step a (a.publish n h e b)

/-- Any number of steps. -/
abbrev Steps : Archive N E B → Archive N E B → Prop := Relation.ReflTransGen Step

/-- The archives that come about. -/
abbrev Reachable : Archive N E B → Prop := Steps empty

theorem editions_enter (a : Archive N E B) (n m : N) :
    (a.enter n).editions m = if m = n then some [] else a.editions m :=
  Function.update_apply _ _ _ _

theorem editions_publish (a : Archive N E B) (n m : N) (h : List (E × B)) (e : E) (b : B) :
    (a.publish n h e b).editions m = if m = n then some (h ++ [(e, b)]) else a.editions m :=
  Function.update_apply _ _ _ _

/-! ## Section 2: Nothing is taken away -/

/-- The editions under a name are those of before and then others. -/
theorem Step.extends {a a' : Archive N E B} (hs : Step a a') {n : N} {h : List (E × B)}
    (hn : a.editions n = some h) : ∃ h', a'.editions n = some h' ∧ h <+: h' := by
  cases hs with
  | @enter m hm =>
    refine ⟨h, ?_, List.prefix_refl h⟩
    rw [editions_enter, if_neg, hn]
    rintro rfl
    rw [hm] at hn
    cases hn
  | @publish m g e b hm _ =>
    rw [editions_publish]
    by_cases heq : n = m
    · subst heq
      rw [hm] at hn
      cases hn
      exact ⟨_, if_pos rfl, List.prefix_append h _⟩
    · exact ⟨h, (if_neg heq).trans hn, List.prefix_refl h⟩

theorem Steps.extends {a a' : Archive N E B} (hs : Steps a a') {n : N} {h : List (E × B)}
    (hn : a.editions n = some h) : ∃ h', a'.editions n = some h' ∧ h <+: h' := by
  induction hs with
  | refl => exact ⟨h, hn, List.prefix_refl h⟩
  | tail _ hstep ih =>
    obtain ⟨h₁, hn₁, hle₁⟩ := ih
    obtain ⟨h₂, hn₂, hle₂⟩ := hstep.extends hn₁
    exact ⟨h₂, hn₂, hle₁.trans hle₂⟩

/-! ## Section 3: An edition is published once -/

theorem published_enter {a : Archive N E B} {n : N} (h : a.editions n = none) {m : N} {e : E}
    {b : B} : (a.enter n).Published m e b ↔ a.Published m e b := by
  unfold Published
  rw [editions_enter]
  by_cases heq : m = n
  · subst heq
    simp [h]
  · rw [if_neg heq]

theorem published_publish {a : Archive N E B} {n : N} {h : List (E × B)} {e : E} {b : B}
    (hn : a.editions n = some h) {m : N} {e' : E} {b' : B} :
    (a.publish n h e b).Published m e' b' ↔
      a.Published m e' b' ∨ (m = n ∧ e' = e ∧ b' = b) := by
  unfold Published
  rw [editions_publish]
  by_cases heq : m = n
  · subst heq
    simp [hn]
  · simp [heq]

/-- Every edition has one name and one content. -/
def Once (a : Archive N E B) : Prop :=
  ∀ n e b n' b', a.Published n e b → a.Published n' e b' → n' = n ∧ b' = b

theorem Once.step {a a' : Archive N E B} (h : a.Once) (hs : Step a a') : a'.Once := by
  intro n e b n' b' hp hp'
  cases hs with
  | enter hm =>
    rw [published_enter hm] at hp hp'
    exact h n e b n' b' hp hp'
  | publish hm hnew =>
    rw [published_publish hm] at hp hp'
    rcases hp with hp | ⟨rfl, rfl, rfl⟩
    · rcases hp' with hp' | ⟨_, rfl, _⟩
      · exact h n e b n' b' hp hp'
      · exact absurd hp (hnew n b)
    · rcases hp' with hp' | ⟨rfl, _, rfl⟩
      · exact absurd hp' (hnew n' b')
      · exact ⟨rfl, rfl⟩

/-- **An edition is published once**, in any archive that comes about. -/
theorem Reachable.once {a : Archive N E B} (h : a.Reachable) : a.Once := by
  induction h with
  | refl =>
    intro n e b n' b' hp
    obtain ⟨l, hl, _⟩ := hp
    cases hl
  | tail _ hs ih => exact ih.step hs

end steps

end Archive

end Data
