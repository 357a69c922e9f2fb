/-
Two runs side by side. A statement about two computations, on two
requests or under two snapshots, is followed through both of them at
once: `Alike R` says that they come to values that `R` relates or to
one and the same error. A bind keeps two runs alike where its second
parts are alike on related values, so a change of the rules is carried
link by link to the place where it shows, and `R` says there how it
does.

The runs may differ in what they compute and not in whether they
compute it. Where only one of two runs fails, no `R` holds of them.
-/
import Payroll.Proofs.Sequencing

namespace Payroll

open Decimal (Fault)

variable {ε α α' β β' : Type}

/-- Two computations that come to related values or to one error. -/
def Alike (R : α → α' → Prop) : Except ε α → Except ε α' → Prop
  | .ok a, .ok a' => R a a'
  | .error e, .error e' => e = e'
  | _, _ => False

namespace Alike

variable {R : α → α' → Prop} {S : β → β' → Prop} {x : Except ε α}
  {x' : Except ε α'}

theorem ok {a : α} {a' : α'} (h : R a a') :
    Alike R (.ok a : Except ε α) (.ok a') :=
  h

theorem error (e : ε) : Alike R (.error e) (.error e) :=
  rfl

/-- A computation is alike to itself where its value is related to
itself. -/
theorem refl {R : α → α → Prop} (h : ∀ a, x = .ok a → R a a) :
    Alike R x x := by
  cases x with
  | ok a => exact h a rfl
  | error e => rfl

theorem imp {R' : α → α' → Prop} (hx : Alike R x x')
    (h : ∀ a a', x = .ok a → x' = .ok a' → R a a' → R' a a') :
    Alike R' x x' := by
  cases x with
  | ok a =>
      cases x' with
      | ok a' => exact h a a' rfl rfl hx
      | error e' => exact hx.elim
  | error e =>
      cases x' with
      | ok a' => exact hx.elim
      | error e' => exact hx

/-- Where one run has a value, the other has a related one. -/
theorem exists_ok {a : α} (h : Alike R x x') (hx : x = .ok a) :
    ∃ a', x' = .ok a' ∧ R a a' := by
  subst hx
  cases x' with
  | ok a' => exact ⟨a', rfl, h⟩
  | error e' => exact h.elim

theorem bind {f : α → Except ε β} {f' : α' → Except ε β'}
    (hx : Alike R x x')
    (hf : ∀ a a', x = .ok a → x' = .ok a' → R a a' →
      Alike S (f a) (f' a')) :
    Alike S (x >>= f) (x' >>= f') := by
  cases x with
  | ok a =>
      cases x' with
      | ok a' => exact hf a a' rfl rfl hx
      | error e' => exact hx.elim
  | error e =>
      cases x' with
      | ok a' => exact hx.elim
      | error e' => exact hx

/-- What both runs do alone needs no relation. -/
theorem bind_same {f : α → Except ε β} {f' : α → Except ε β'}
    (hf : ∀ a, x = .ok a → Alike S (f a) (f' a)) :
    Alike S (x >>= f) (x >>= f') :=
  bind (R := Eq) (refl fun _ _ => rfl) fun a a' ha _ h => by
    subst h
    exact hf a ha

theorem toFailure {x : Except Fault α} {x' : Except Fault α'}
    (h : Alike R x x') :
    Alike R (liftM x : Except Failure α) (liftM x') := by
  cases x with
  | ok a =>
      cases x' with
      | ok a' => exact h
      | error e' => exact h.elim
  | error e =>
      cases x' with
      | ok a' => exact h.elim
      | error e' =>
          cases (h : e = e')
          rfl

/-- An attempt looks at a run through what follows it. -/
theorem attempt_bind {x : Except Failure α} {x' : Except Failure α'}
    {f : α → OptionT (Except Crash) β} {f' : α' → OptionT (Except Crash) β}
    (hx : Alike R x x')
    (hf : ∀ a a', x = .ok a → x' = .ok a' → R a a' → f a = f' a') :
    (Failure.attempt x >>= f) = (Failure.attempt x' >>= f') := by
  cases x with
  | ok a =>
      cases x' with
      | ok a' => exact hf a a' rfl rfl hx
      | error e' => exact hx.elim
  | error e =>
      cases x' with
      | ok a' => exact hx.elim
      | error e' =>
          cases (hx : e = e')
          cases e <;> rfl

end Alike

end Payroll
