import SchemaSnapshot.Proofs.Outcome
import Mathlib.Data.List.Forall2

/-!
# Outcomes that agree

Two runs agree if both succeed, with values in some relation, or both fail, with errors in some
relation. Agreement passes through everything that runs are made of: one thing after another
(`Except.Agree.bind`), a run over a list (`Except.Agree.foldlM`, `Except.Agree.mapM`), and errors
that are wrapped (`Except.Agree.mapError`).
-/

namespace SchemaSnapshot.Except

/-- Outcomes that agree: two values related by `R` or two errors related by `E`. -/
inductive Agree {ε ε' α β : Type} (E : ε → ε' → Prop) (R : α → β → Prop) :
    Except ε α → Except ε' β → Prop where
  | ok {a : α} {b : β} (h : R a b) : Agree E R (.ok a) (.ok b)
  | error {e : ε} {e' : ε'} (h : E e e') : Agree E R (.error e) (.error e')

namespace Agree

variable {ε ε' δ δ' α β α' β' ρ : Type} {E : ε → ε' → Prop} {R : α → β → Prop}

theorem pure {a : α} {b : β} (h : R a b) :
    Agree E R (Pure.pure a : Except ε α) (Pure.pure b : Except ε' β) :=
  .ok h

/-- Outcomes that agree are two values with `R` or two errors with `E`. -/
theorem ok_or_error {x : Except ε α} {y : Except ε' β} (h : Agree E R x y) :
    (∃ a b, x = .ok a ∧ y = .ok b ∧ R a b) ∨ ∃ e e', x = .error e ∧ y = .error e' ∧ E e e' := by
  cases h with
  | ok h => exact .inl ⟨_, _, rfl, rfl, h⟩
  | error h => exact .inr ⟨_, _, rfl, rfl, h⟩

/-- `x` and `y` agree if they end in the same way, and their values and errors are related. -/
theorem intro {x : Except ε α} {y : Except ε' β}
    (hiff : (∃ a, x = .ok a) ↔ ∃ b, y = .ok b)
    (hok : ∀ a b, x = .ok a → y = .ok b → R a b)
    (herror : ∀ e e', x = .error e → y = .error e' → E e e') : Agree E R x y := by
  cases x with
  | ok a =>
    obtain ⟨b, rfl⟩ := hiff.1 ⟨a, rfl⟩
    exact .ok (hok a b rfl rfl)
  | error e =>
    cases y with
    | ok b =>
      -- `y` ends with a value, so `x` would have to
      obtain ⟨a, ha⟩ := hiff.2 ⟨b, rfl⟩
      cases ha
    | error e' => exact .error (herror e e' rfl rfl)

/-- `x` and `y` agree if they have the same values, `x = .ok a ↔ y = .ok a`, and `E` holds of their
errors. -/
theorem of_ok_iff {E : ε → ε → Prop} {x y : Except ε α} (h : ∀ a, x = .ok a ↔ y = .ok a)
    (herror : ∀ e e', x = .error e → y = .error e' → E e e') : Agree E (· = ·) x y := by
  refine intro (exists_congr h) ?_ herror
  intro a b ha hb
  exact Except.ok.inj (((h a).1 ha).symm.trans hb)

theorem refl {E : ε → ε → Prop} (hE : ∀ e, E e e) (x : Except ε α) : Agree E (· = ·) x x := by
  cases x with
  | ok a => exact .ok rfl
  | error e => exact .error (hE e)

theorem mono {S : α → β → Prop} {x : Except ε α} {y : Except ε' β} (h : Agree E R x y)
    (hRS : ∀ a b, R a b → S a b) : Agree E S x y := by
  cases h with
  | ok h => exact .ok (hRS _ _ h)
  | error h => exact .error h

/-- The values that `R` relates may be taken to be those of `x` and `y`. -/
theorem and_ok {x : Except ε α} {y : Except ε' β} (h : Agree E R x y) :
    Agree E (fun a b => R a b ∧ x = .ok a ∧ y = .ok b) x y := by
  cases h with
  | ok h => exact .ok ⟨h, rfl, rfl⟩
  | error h => exact .error h

theorem mapError {E : ε → ε' → Prop} {F : δ → δ' → Prop} {g : ε → δ} {g' : ε' → δ'}
    {x : Except ε α} {y : Except ε' β} (h : Agree E R x y) (hg : ∀ e e', E e e' → F (g e) (g' e')) :
    Agree F R (x.mapError g) (y.mapError g') := by
  cases h with
  | ok h => exact .ok h
  | error h => exact .error (hg _ _ h)

/-- `x >>= f` and `y >>= g` agree if `x` and `y` do, and `f a` and `g b` do for related `a` and
`b`. -/
theorem bind {S : α' → β' → Prop} {x : Except ε α} {y : Except ε' β} {f : α → Except ε α'}
    {g : β → Except ε' β'} (h : Agree E R x y) (hfg : ∀ a b, R a b → Agree E S (f a) (g b)) :
    Agree E S (x >>= f) (y >>= g) := by
  cases h with
  | ok h => exact hfg _ _ h
  | error h => exact .error h

/-- `x >>= f` and `x >>= g` agree if `f a` and `g a` do for every value `a` of `x`. -/
theorem bind_self {E : ε → ε → Prop} {S : α' → β' → Prop} (hE : ∀ e, E e e) {x : Except ε α}
    {f : α → Except ε α'} {g : α → Except ε β'} (h : ∀ a, x = .ok a → Agree E S (f a) (g a)) :
    Agree E S (x >>= f) (x >>= g) := by
  cases x with
  | ok a => exact h a rfl
  | error e => exact .error (hE e)

/-- Folds over one list agree, `foldlM f a` with `foldlM g b`, if every step `f a x` agrees with
`g b x`. -/
theorem foldlM {f : α → ρ → Except ε α} {g : β → ρ → Except ε' β} {l : List ρ}
    (step : ∀ x ∈ l, ∀ a b, R a b → Agree E R (f a x) (g b x)) {a : α} {b : β} (h : R a b) :
    Agree E R (l.foldlM f a) (l.foldlM g b) := by
  induction l generalizing a b with
  | nil => exact pure h
  | cons x rest ih =>
    rw [List.foldlM_cons, List.foldlM_cons]
    refine (step x List.mem_cons_self a b h).bind fun a' b' h' => ?_
    exact ih (fun y hy => step y (List.mem_cons_of_mem _ hy)) h'

theorem mapM {f : ρ → Except ε α} {g : ρ → Except ε' β} {l : List ρ}
    (step : ∀ x ∈ l, Agree E R (f x) (g x)) : Agree E (List.Forall₂ R) (l.mapM f) (l.mapM g) := by
  induction l with
  | nil => exact pure .nil
  | cons x rest ih =>
    rw [List.mapM_cons, List.mapM_cons]
    refine (step x List.mem_cons_self).bind fun a b h => ?_
    refine (ih fun y hy => step y (List.mem_cons_of_mem _ hy)).bind fun as bs hs => ?_
    exact pure (.cons h hs)

end Agree

end SchemaSnapshot.Except
