/-
How a computation ends. `Ends E Q` says of a computation that it comes
to a value of which `Q` holds, or stops with an error of which `E`
holds. Unlike a statement about successful runs it follows a
computation whatever becomes of it, link by link: a bind ends as `f`
does on every value that `x` can come to.

Of a calculation the same is always said about errors. It may refuse a
request for any reason of payroll. A fault of arithmetic has to be
excused: it is never a division by zero, and where a condition `S` on
the sizes of all that is given is kept, there is none. So one pass
through the code says two things about it, what can go wrong at all and
when nothing does.

A check of rules has no value to come to. It passes or names the defect
that it has found (`Refuses`).
-/
import Payroll.Proofs.Sequencing

namespace Payroll

open Decimal (Fault)

variable {ε α β : Type}

/-- A computation that comes to a value of which `Q` holds or to an
error of which `E` does. -/
def Ends (E : ε → Prop) (Q : α → Prop) : Except ε α → Prop
  | .ok a => Q a
  | .error e => E e

namespace Ends

variable {E : ε → Prop} {Q : α → Prop} {x : Except ε α}

theorem bind {R : β → Prop} {f : α → Except ε β} (hx : Ends E Q x)
    (hf : ∀ a, Q a → Ends E R (f a)) : Ends E R (x >>= f) := by
  cases x with
  | ok a => exact hf a hx
  | error e => exact hx

/-- What else holds of a value that was come to. -/
theorem imp {R : α → Prop} (hx : Ends E Q x)
    (h : ∀ a, x = .ok a → Q a → R a) : Ends E R x := by
  cases x with
  | ok a => exact h a rfl hx
  | error e => exact hx

/-- A list ends in as many values as it has entries. -/
theorem mapM {R : β → Prop} {f : α → Except ε β} {l : List α}
    (h : ∀ a ∈ l, Ends E R (f a)) :
    Ends E (fun l' => l'.length = l.length ∧ ∀ b ∈ l', R b)
      (l.mapM f) := by
  induction l with
  | nil => exact ⟨rfl, nofun⟩
  | cons a l ih =>
      rw [List.mapM_cons]
      refine (h a List.mem_cons_self).bind fun b hb => ?_
      refine (ih fun a' ha' => h a' (List.mem_cons_of_mem a ha')).bind
        fun l' hl' => ?_
      refine ⟨congrArg (· + 1) hl'.1, fun b' hb' => ?_⟩
      rcases List.mem_cons.1 hb' with rfl | hb'
      · exact hb
      · exact hl'.2 b' hb'

end Ends

-- ================================================================ excuses

/-- No division by zero, and no fault at all where `S` is kept. -/
def Decimal.Fault.Excused (S : Prop) (f : Fault) : Prop :=
  f ≠ .divisionByZero ∧ ¬S

/-- Where nothing is excused there is a value. -/
theorem Ends.exists_ok {Q : α → Prop} {x : Except Fault α}
    (h : Ends (Fault.Excused True) Q x) : ∃ a, x = .ok a ∧ Q a := by
  cases x with
  | ok a => exact ⟨a, rfl, h⟩
  | error f => exact absurd trivial h.2

/-- A crash by an excused fault. -/
def Crash.Excused (S : Prop) (c : Crash) : Prop :=
  ∃ f, c = .fault f ∧ f.Excused S

/-- An error, or a crash that is excused. -/
def Failure.Excused (S : Prop) : Failure → Prop
  | .error _ => True
  | .crash c => c.Excused S

namespace Ends

variable {S : Prop} {Q : α → Prop}

theorem toCrash {x : Except Fault α} (h : Ends (Fault.Excused S) Q x) :
    Ends (Crash.Excused S) Q (liftM x : Except Crash α) := by
  cases x with
  | ok a => exact h
  | error f => exact ⟨f, rfl, h⟩

theorem toFailure {x : Except Fault α} (h : Ends (Fault.Excused S) Q x) :
    Ends (Failure.Excused S) Q (liftM x : Except Failure α) := by
  cases x with
  | ok a => exact h
  | error f => exact ⟨f, rfl, h⟩

theorem crashToFailure {x : Except Crash α}
    (h : Ends (Crash.Excused S) Q x) :
    Ends (Failure.Excused S) Q (liftM x : Except Failure α) := by
  cases x with
  | ok a => exact h
  | error c => exact h

end Ends

-- =============================================================== attempts

/-- A computation that may also end without a value. -/
def EndsIfSome (S : Prop) (Q : α → Prop)
    (x : OptionT (Except Crash) α) : Prop :=
  Ends (Crash.Excused S) (fun o => ∀ a ∈ o, Q a) x.run

namespace EndsIfSome

variable {S : Prop} {Q : α → Prop}

theorem bind {R : β → Prop} {x : OptionT (Except Crash) α}
    {f : α → OptionT (Except Crash) β} (hx : EndsIfSome S Q x)
    (hf : ∀ a, Q a → EndsIfSome S R (f a)) : EndsIfSome S R (x >>= f) := by
  unfold EndsIfSome at hx ⊢
  rw [OptionT.run_bind, Option.elimM]
  refine Ends.bind hx fun o ho => ?_
  cases o with
  | none => exact fun _ => nofun
  | some a => exact hf a (ho a rfl)

theorem lift {x : Except Fault α} (h : Ends (Fault.Excused S) Q x) :
    EndsIfSome S Q (liftM x : OptionT (Except Crash) α) := by
  cases x with
  | ok a =>
      rintro _ ⟨⟩
      exact h
  | error f => exact ⟨f, rfl, h⟩

/-- An attempt forgets an error and passes on a crash. -/
theorem attempt {x : Except Failure α}
    (h : Ends (Failure.Excused S) Q x) :
    EndsIfSome S Q (Failure.attempt x) := by
  cases x with
  | ok a =>
      rintro _ ⟨⟩
      exact h
  | error e =>
      cases e with
      | error e => exact fun _ => nofun
      | crash c => exact h

theorem mk {o : Option α} (h : ∀ a ∈ o, Q a) :
    EndsIfSome S Q (OptionT.mk (Pure.pure o)) :=
  h

end EndsIfSome

-- ================================================================= checks

/-- A failure that says which rule a table breaks. -/
def Failure.NamesDefect (f : Failure) : Prop :=
  ∃ defect, f = .malformed defect

/-- A check passes or names a defect. -/
def Refuses (check : Except Failure Unit) : Prop :=
  Ends Failure.NamesDefect (fun _ => True) check

namespace Refuses

variable {c : Prop} [Decidable c] {defect : TableDefect}
  {check next : Except Failure Unit}

theorem passed : Refuses (.ok ()) := trivial

theorem refuse (h : Refuses next) :
    Refuses (if c then .error (.malformed defect) else next) := by
  split
  · exact ⟨defect, rfl⟩
  · exact h

theorem andThen (h : Refuses check) (h' : Refuses next) :
    Refuses (do check; next) :=
  h.bind fun _ _ => h'

end Refuses

end Payroll
