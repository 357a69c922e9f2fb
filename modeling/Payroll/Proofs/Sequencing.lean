/-
Reading a computation in stages backwards. A calculation is a chain of
binds in which arithmetic, which can only end in a fault, is lifted
into computations that can also answer with an error. What a chain that
succeeded must have done is read off link by link: each lemma here says
what the success of one kind of link means, and none looks at what the
link computes.

`Agree` compares two computations of an amount by what they come to: an
amount of one value, or the same failure.
-/
import Payroll.Error.Basic
import Payroll.Proofs.Decimal.Division

namespace Payroll

open Decimal (Fault)

variable {ε α β : Type}

-- ================================================================ links

/-- A bind succeeds when both of its parts do. -/
theorem bind_eq_ok {x : Except ε α} {f : α → Except ε β} {b : β} :
    (x >>= f) = .ok b ↔ ∃ a, x = .ok a ∧ f a = .ok b := by
  cases x <;> simp [bind, Except.bind]

@[simp] theorem ok_bind (a : α) (f : α → Except ε β) :
    (Except.ok a >>= f) = f a := rfl

/-- The value of a check is the unit, so only its success matters. -/
theorem check_bind_eq_ok {x : Except ε Unit} {f : Unit → Except ε β}
    {b : β} : (x >>= f) = .ok b ↔ x = .ok () ∧ f () = .ok b := by
  rw [bind_eq_ok]
  exact ⟨fun ⟨_, h⟩ => h, fun h => ⟨(), h⟩⟩

/-- What is refused under a condition succeeds where it does not hold. -/
theorem ite_error_eq_ok {c : Prop} [Decidable c] {e : ε}
    {x : Except ε α} {a : α} :
    (if c then .error e else x) = .ok a ↔ ¬c ∧ x = .ok a := by
  split
  · rename_i hc
    exact ⟨nofun, fun h => absurd hc h.1⟩
  · rename_i hc
    exact (and_iff_right hc).symm

@[simp] theorem liftM_fault_eq_ok {x : Except Fault α} {a : α} :
    (liftM x : Except Failure α) = .ok a ↔ x = .ok a := by
  cases x <;> simp [liftM, monadLift, MonadLift.monadLift]

@[simp] theorem liftM_crash_eq_ok {x : Except Crash α} {a : α} :
    (liftM x : Except Failure α) = .ok a ↔ x = .ok a := by
  cases x <;> simp [liftM, monadLift, MonadLift.monadLift]

@[simp] theorem liftM_fault_crash_eq_ok {x : Except Fault α} {a : α} :
    (liftM x : Except Crash α) = .ok a ↔ x = .ok a := by
  cases x <;> simp [liftM, monadLift, MonadLift.monadLift]

@[simp] theorem liftM_ok (a : α) :
    (liftM (Except.ok a : Except Fault α) : Except Failure α) = .ok a :=
  rfl

@[simp] theorem liftM_fault_crash_ok (a : α) :
    (liftM (Except.ok a : Except Fault α) : Except Crash α) = .ok a :=
  rfl

@[simp] theorem liftM_crash_ok (a : α) :
    (liftM (Except.ok a : Except Crash α) : Except Failure α) = .ok a :=
  rfl

/-- What is seen of a result was computed. -/
theorem exists_ok_of_any {x : Except ε α} {q : α → Bool}
    (h : x.toOption.any q = true) : ∃ a, x = .ok a ∧ q a = true := by
  cases x with
  | error e => cases h
  | ok a => exact ⟨a, rfl, h⟩

/-- A list is computed when each of its entries is. -/
theorem mapM_eq_ok {f : α → Except ε β} {l : List α} {l' : List β} :
    l.mapM f = .ok l' ↔ List.Forall₂ (fun a b => f a = .ok b) l l' := by
  induction l generalizing l' with
  | nil =>
      rw [List.mapM_nil]
      constructor
      · intro h
        cases h
        exact .nil
      · intro h
        cases h
        rfl
  | cons a l ih =>
      rw [List.mapM_cons, bind_eq_ok]
      constructor
      · rintro ⟨b, hb, h⟩
        rw [bind_eq_ok] at h
        obtain ⟨bs, hbs, h⟩ := h
        cases h
        exact .cons hb (ih.1 hbs)
      · intro h
        cases h with
        | cons hb hbs =>
            refine ⟨_, hb, ?_⟩
            rw [ih.2 hbs]
            rfl

/-- The results of a computed list are those of its entries. -/
theorem exists_map_of_mapM [Inhabited β] {f : α → Except ε β}
    {l : List α} {l' : List β} (h : l.mapM f = .ok l') :
    ∃ g : α → β, (∀ a ∈ l, f a = .ok (g a)) ∧ l.map g = l' := by
  refine ⟨fun a => (f a).toOption.getD default, ?_⟩
  rw [mapM_eq_ok] at h
  induction h with
  | nil => exact ⟨nofun, rfl⟩
  | @cons a b l l' hb _ ih =>
      have hvalue : (f a).toOption.getD default = b := by
        rw [hb]
        rfl
      refine ⟨List.forall_mem_cons.2 ⟨?_, ih.1⟩, ?_⟩
      · simp only [hvalue]
        exact hb
      · rw [List.map_cons, ih.2, hvalue]

-- ============================================================ agreement

/-- Two computations that come to the same: amounts of one value, or one
failure. -/
def Agree : Except ε Decimal → Except ε Decimal → Prop
  | .ok a, .ok b => a ≈ b
  | .error e, .error f => e = f
  | _, _ => False

/-- What both sides do first may be dropped where they agree on it. -/
theorem Agree.bind {x y : Except ε Decimal}
    {f g : Decimal → Except ε Decimal} (hxy : Agree x y)
    (hfg : ∀ a b : Decimal, a ≈ b → Agree (f a) (g b)) :
    Agree (x >>= f) (y >>= g) := by
  cases x with
  | error e =>
      cases y with
      | error e' => exact hxy
      | ok b => exact hxy.elim
  | ok a =>
      cases y with
      | error e => exact hxy.elim
      | ok b => exact hfg a b hxy

theorem Agree.lift {x y : Except Fault Decimal} (h : Agree x y) :
    Agree (liftM x : Except Failure Decimal) (liftM y) := by
  cases x with
  | error e =>
      cases y with
      | error e' =>
          cases (h : e = e')
          rfl
      | ok b => exact h.elim
  | ok a =>
      cases y with
      | error e => exact h.elim
      | ok b => exact h

theorem Agree.symm {x y : Except ε Decimal} (h : Agree x y) :
    Agree y x := by
  cases x with
  | error e =>
      cases y with
      | error e' => exact Eq.symm h
      | ok b => exact h.elim
  | ok a =>
      cases y with
      | error e => exact h.elim
      | ok b =>
          exact Decimal.equiv_iff_toRat.2
            (Decimal.equiv_iff_toRat.1 h).symm

/-- Where one side has a result, the other has one of the same value. -/
theorem Agree.exists_ok {x y : Except ε Decimal} {a : Decimal}
    (h : Agree x y) (hx : x = .ok a) :
    ∃ b, y = .ok b ∧ b.toRat = a.toRat := by
  subst hx
  cases y with
  | error e => exact h.elim
  | ok b => exact ⟨b, rfl, (Decimal.equiv_iff_toRat.1 h).symm⟩

/-- Where one side fails, the other fails alike. -/
theorem Agree.eq_error {x y : Except ε Decimal} {e : ε}
    (h : Agree x y) (hx : x = .error e) : y = .error e := by
  subst hx
  cases y with
  | error e' =>
      cases (h : e = e')
      rfl
  | ok b => exact h.elim

/-- Two answers for one exact result agree. -/
theorem Decimal.Rounds.agree {v : ℚ} {o o' : Option Decimal}
    (h : Rounds v o) (h' : Rounds v o') (f : Fault) :
    Agree (orFault f o) (orFault f o') := by
  cases o with
  | none =>
      cases o' with
      | none => rfl
      | some b => exact absurd h'.1 h
  | some a =>
      cases o' with
      | none => exact absurd h.1 h'
      | some b => exact equiv_iff_toRat.2 (h.2.trans h'.2.symm)

namespace Decimal

variable {a a' b b' : Decimal}

/-- Arithmetic reads the values of its operands and nothing else. -/
theorem add_agree (ha : a ≈ a') (hb : b ≈ b') :
    Agree (a.add b) (a'.add b') := by
  have h := add?_rounds a' b'
  rw [← equiv_iff_toRat.1 ha, ← equiv_iff_toRat.1 hb] at h
  exact (add?_rounds a b).agree h _

theorem sub_agree (ha : a ≈ a') (hb : b ≈ b') :
    Agree (a.sub b) (a'.sub b') := by
  have h := sub?_rounds a' b'
  rw [← equiv_iff_toRat.1 ha, ← equiv_iff_toRat.1 hb] at h
  exact (sub?_rounds a b).agree h _

theorem mul_agree (ha : a ≈ a') (hb : b ≈ b') :
    Agree (a.mul b) (a'.mul b') := by
  have h := mul?_rounds a' b'
  rw [← equiv_iff_toRat.1 ha, ← equiv_iff_toRat.1 hb] at h
  exact (mul?_rounds a b).agree h _

theorem equiv_refl (a : Decimal) : a ≈ a := equiv_iff_toRat.2 rfl

theorem equiv_symm (h : a ≈ b) : b ≈ a :=
  equiv_iff_toRat.2 (equiv_iff_toRat.1 h).symm

theorem equiv_trans {c : Decimal} (h : a ≈ b) (h' : b ≈ c) : a ≈ c :=
  equiv_iff_toRat.2 ((equiv_iff_toRat.1 h).trans (equiv_iff_toRat.1 h'))

section Sums

variable {κ : Type} {f : κ → Option Decimal} {g : κ → Decimal}
  {keys : List κ}

/-- A sum sees neither what is zero nor how an amount is spelled. -/
theorem foldlM_add_filterMap_agree (ha : a ≈ a')
    (h : ∀ k ∈ keys, (f k).getD zero ≈ g k) :
    Agree ((keys.filterMap f).foldlM add a) ((keys.map g).foldlM add a') := by
  induction keys generalizing a a' with
  | nil => exact ha
  | cons k keys ih =>
      obtain ⟨hk, hkeys⟩ := List.forall_mem_cons.1 h
      rw [List.map_cons, List.foldlM_cons]
      cases hf : f k with
      | some v =>
          rw [hf] at hk
          rw [List.filterMap_cons_some hf, List.foldlM_cons]
          exact (add_agree ha hk).bind fun b b' hb => ih hb hkeys
      | none =>
          rw [hf, Option.getD_none, equiv_iff_toRat, toRat_zero] at hk
          obtain ⟨b, hb, hvalue⟩ := a'.exists_add_of_zero hk.symm
          rw [List.filterMap_cons_none hf, hb, ok_bind]
          exact ih (equiv_trans ha (equiv_iff_toRat.2 hvalue.symm)) hkeys

theorem sum_filterMap_agree (h : ∀ k ∈ keys, (f k).getD zero ≈ g k) :
    Agree (sum (keys.filterMap f)) (sum (keys.map g)) :=
  foldlM_add_filterMap_agree (equiv_refl zero) h

end Sums

end Decimal

end Payroll
