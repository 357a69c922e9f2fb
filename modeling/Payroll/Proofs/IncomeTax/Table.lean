/-
Which brackets make a table. The check runs through the brackets once,
with a running sum and a look at the bracket ahead. What it accepts can
be said without running anything: brackets that adjoin, of which the
first starts at zero and the last has no end, with rates that are
shares, each carrying the tax of the whole brackets below it
(`WellFormed`).

# The running sum

`taxBelow` adds up whole brackets from the lowest, in the arithmetic of
amounts, rounding included. The check forms the same sum, but only as
far as it gets. So the two are compared from an arbitrary bracket on,
with an arbitrary sum behind it (`WellFormedFrom`), and the sum of a
longer beginning is that of a shorter one, continued.
-/
import Payroll.IncomeTax.BracketTable
import Payroll.Proofs.Endings

namespace Payroll.BracketTable

open Decimal

-- ============================================================ whole brackets

/-- Adds to a tax what the incomes between two bounds are taxed. -/
def addSlice (tax lower upper rate : Decimal) : Except Fault Decimal := do
  let width ← upper.sub lower
  let slice ← width.mul rate
  tax.add slice

/-- Adds the tax of a whole bracket. A bracket without an end is never
whole. -/
def addWhole (tax : Decimal) (b : Bracket) : Except Fault Decimal :=
  match b.maxIncome with
  | some upper => addSlice tax b.minIncome upper b.rate
  | none => .ok tax

/-- The tax of some brackets, each of them whole, added up from the
first. -/
def taxBelow (brackets : List Bracket) : Except Fault Decimal :=
  brackets.foldlM addWhole .zero

theorem addSlice_agree {tax tax' lower lower' upper upper' rate rate' :
    Decimal} (htax : tax ≈ tax') (hlower : lower ≈ lower')
    (hupper : upper ≈ upper') (hrate : rate ≈ rate') :
    Agree (addSlice tax lower upper rate)
      (addSlice tax' lower' upper' rate') :=
  (sub_agree hupper hlower).bind fun _ _ hwidth =>
    (mul_agree hwidth hrate).bind fun _ _ hslice => add_agree htax hslice

/-- The check forms the tax of a bracket in two steps. -/
theorem slice_bind (b : Bracket) (upper tax : Decimal) :
    (b.slice upper >>= fun slice => tax.add slice)
      = addSlice tax b.minIncome upper b.rate := by
  unfold Bracket.slice addSlice
  cases upper.sub b.minIncome <;> rfl

theorem addWhole_eq_ok {b : Bracket} {upper tax tax' : Decimal}
    (hmax : b.maxIncome = some upper) : addWhole tax b = .ok tax'
      ↔ ∃ slice, b.slice upper = .ok slice ∧ tax.add slice = .ok tax' := by
  rw [addWhole, hmax]
  simp only [← slice_bind, bind_eq_ok]

-- =========================================================== well-formedness

/-- A rate that takes nothing below zero and no more than all. -/
def IsShare (rate : Decimal) : Prop := .zero ≤ rate ∧ rate ≤ .one

/-- A bracket with an end above its start, where the next one starts. -/
def Adjoins (b next : Bracket) : Prop :=
  ∃ upper, b.maxIncome = some upper ∧ b.minIncome < upper
    ∧ next.minIncome ≈ upper

/-- Brackets that go on from a tax: they adjoin, only the last has no
end, and each carries that tax and the tax of the whole brackets
before it. -/
structure WellFormedFrom (tax : Decimal) (brackets : List Bracket) :
    Prop where
  rates : ∀ b ∈ brackets, IsShare b.rate
  adjoining : brackets.IsChain Adjoins
  top : ∀ b ∈ brackets.getLast?, b.maxIncome = none
  fixed : ∀ i (h : i < brackets.length), ∃ below,
    (brackets.take i).foldlM addWhole tax = .ok below
      ∧ brackets[i].fixedAmount ≈ below

/-- Brackets that make a table: there are some, they start at zero, and
they carry the tax below them. -/
structure WellFormed (brackets : List Bracket) : Prop
    extends WellFormedFrom .zero brackets where
  nonempty : brackets ≠ []
  first : ∀ b ∈ brackets.head?, b.minIncome ≈ .zero

variable {tax : Decimal} {b next : Bracket} {above rest : List Bracket}

theorem not_rate_out_of_range {rate : Decimal} :
    ¬(rate < .zero ∨ .one < rate) ↔ IsShare rate := by
  rw [not_or, IsShare, lt_iff_toRat, lt_iff_toRat, not_lt, not_lt,
    le_iff_toRat, le_iff_toRat]

/-- What a bracket carries is either the tax so far or the tax below the
brackets behind it. -/
theorem fixed_cons : (∀ i (h : i < (b :: rest).length), ∃ below,
      ((b :: rest).take i).foldlM addWhole tax = .ok below
        ∧ (b :: rest)[i].fixedAmount ≈ below)
    ↔ b.fixedAmount ≈ tax ∧ ∀ i (h : i < rest.length), ∃ tax' below,
      addWhole tax b = .ok tax'
        ∧ (rest.take i).foldlM addWhole tax' = .ok below
        ∧ rest[i].fixedAmount ≈ below := by
  constructor
  · intro h
    refine ⟨?_, fun i hi => ?_⟩
    · obtain ⟨below, hbelow, hfixed⟩ := h 0 (Nat.zero_lt_succ _)
      cases hbelow
      exact hfixed
    · obtain ⟨below, hbelow, hfixed⟩ := h (i + 1) (Nat.succ_lt_succ hi)
      rw [List.take_succ_cons, List.foldlM_cons, bind_eq_ok] at hbelow
      obtain ⟨tax', htax', hbelow⟩ := hbelow
      exact ⟨tax', below, htax', hbelow, hfixed⟩
  · rintro ⟨hfirst, hrest⟩ i hi
    cases i with
    | zero => exact ⟨tax, rfl, hfirst⟩
    | succ i =>
        obtain ⟨tax', below, htax', hbelow, hfixed⟩ :=
          hrest i (Nat.lt_of_succ_lt_succ hi)
        refine ⟨below, ?_, hfixed⟩
        rw [List.take_succ_cons, List.foldlM_cons, htax', ok_bind, hbelow]

theorem wellFormedFrom_nil : WellFormedFrom tax [] :=
  ⟨nofun, .nil, nofun, nofun⟩

theorem wellFormedFrom_singleton : WellFormedFrom tax [b]
    ↔ IsShare b.rate ∧ b.fixedAmount ≈ tax ∧ b.maxIncome = none := by
  constructor
  · intro h
    exact ⟨h.rates b List.mem_cons_self, (fixed_cons.1 h.fixed).1,
      h.top b rfl⟩
  · rintro ⟨hrate, hfixed, htop⟩
    refine ⟨?_, .singleton b, ?_, fixed_cons.2 ⟨hfixed, nofun⟩⟩
    · intro b' hb'
      rw [List.mem_singleton.1 hb']
      exact hrate
    · rintro _ ⟨⟩
      exact htop

theorem wellFormedFrom_cons_cons : WellFormedFrom tax (b :: next :: above)
    ↔ IsShare b.rate ∧ b.fixedAmount ≈ tax ∧ Adjoins b next
      ∧ ∃ tax', addWhole tax b = .ok tax'
        ∧ WellFormedFrom tax' (next :: above) := by
  constructor
  · rintro ⟨hrates, hadjoining, htop, hfixed⟩
    obtain ⟨hrate, hrates⟩ := List.forall_mem_cons.1 hrates
    obtain ⟨hadjoins, hadjoining⟩ := List.isChain_cons_cons.1 hadjoining
    obtain ⟨hfirst, hfixed⟩ := fixed_cons.1 hfixed
    obtain ⟨tax', -, htax', -, -⟩ := hfixed 0 (Nat.zero_lt_succ _)
    refine ⟨hrate, hfirst, hadjoins, tax', htax', hrates, hadjoining,
      ?_, fun i hi => ?_⟩
    · rwa [List.getLast?_cons_cons] at htop
    · obtain ⟨tax'', below, htax'', hbelow⟩ := hfixed i hi
      rw [htax'] at htax''
      cases htax''
      exact ⟨below, hbelow⟩
  · rintro ⟨hrate, hfirst, hadjoins, tax', htax', hrest⟩
    refine ⟨List.forall_mem_cons.2 ⟨hrate, hrest.rates⟩,
      List.isChain_cons_cons.2 ⟨hadjoins, hrest.adjoining⟩, ?_,
      fixed_cons.2 ⟨hfirst, fun i hi => ?_⟩⟩
    · rw [List.getLast?_cons_cons]
      exact hrest.top
    · obtain ⟨below, hbelow⟩ := hrest.fixed i hi
      exact ⟨tax', below, htax', hbelow⟩

-- ================================================================ the check

theorem checkFrom_singleton_eq_ok {index : ℕ} :
    checkFrom index tax [b] = .ok ()
      ↔ IsShare b.rate ∧ b.fixedAmount ≈ tax ∧ b.maxIncome = none := by
  unfold checkFrom
  rw [ite_error_eq_ok, ite_error_eq_ok, not_rate_out_of_range, not_not]
  cases b.maxIncome with
  | none => simp only [and_true]
  | some upper => simp only [reduceCtorEq]

/-- The check goes on with the next bracket where it finds nothing wrong
with this one. -/
theorem checkFrom_cons_cons_eq_ok {index : ℕ} :
    checkFrom index tax (b :: next :: above) = .ok ()
      ↔ IsShare b.rate ∧ b.fixedAmount ≈ tax ∧ Adjoins b next
        ∧ ∃ tax', addWhole tax b = .ok tax'
          ∧ checkFrom (index + 1) tax' (next :: above) = .ok () := by
  unfold Adjoins addWhole
  conv_lhs => unfold checkFrom
  rw [ite_error_eq_ok, ite_error_eq_ok, not_rate_out_of_range, not_not]
  cases b.maxIncome with
  | none => simp only [reduceCtorEq, false_and, and_false, exists_false]
  | some upper =>
      simp only [ite_error_eq_ok, bind_eq_ok, liftM_fault_eq_ok,
        ← slice_bind, Option.some.injEq, exists_eq_left', not_not]
      rw [le_iff_toRat, not_le, ← lt_iff_toRat]
      constructor
      · rintro ⟨hrate, hfixed, hwidth, hnext, slice, hslice, tax', htax', h⟩
        exact ⟨hrate, hfixed, ⟨hwidth, hnext⟩, tax', ⟨slice, hslice, htax'⟩,
          h⟩
      · rintro ⟨hrate, hfixed, ⟨hwidth, hnext⟩, tax', ⟨slice, hslice, htax'⟩,
          h⟩
        exact ⟨hrate, hfixed, hwidth, hnext, slice, hslice, tax', htax', h⟩

theorem checkFrom_eq_ok {index : ℕ} {brackets : List Bracket} :
    checkFrom index tax brackets = .ok () ↔ WellFormedFrom tax brackets := by
  induction brackets generalizing index tax with
  | nil => exact iff_of_true rfl wellFormedFrom_nil
  | cons b rest ih =>
      cases rest with
      | nil => rw [checkFrom_singleton_eq_ok, wellFormedFrom_singleton]
      | cons next above =>
          simp only [checkFrom_cons_cons_eq_ok, wellFormedFrom_cons_cons, ih]

/-- The check passes exactly the well-formed brackets. -/
theorem check_eq_ok {brackets : List Bracket} :
    check brackets = .ok () ↔ WellFormed brackets := by
  cases brackets with
  | nil => exact ⟨nofun, fun h => absurd rfl h.nonempty⟩
  | cons b rest =>
      rw [check, ite_error_eq_ok, not_not, checkFrom_eq_ok]
      constructor
      · rintro ⟨hfirst, h⟩
        refine ⟨h, List.cons_ne_nil b rest, ?_⟩
        rintro _ ⟨⟩
        exact hfirst
      · intro h
        exact ⟨h.first b rfl, h.toWellFormedFrom⟩

-- ========================================================= checked brackets

/-- A bracket that is not empty and ends before another one starts. -/
def Precedes (b b' : Bracket) : Prop :=
  ∃ upper, b.maxIncome = some upper
    ∧ b.minIncome.toRat < upper.toRat ∧ upper.toRat ≤ b'.minIncome.toRat

instance : Trans Precedes Precedes Precedes where
  trans := by
    rintro _ _ _ ⟨upper, hmax, hwidth, hle⟩ ⟨_, _, hwidth', hle'⟩
    exact ⟨upper, hmax, hwidth, hle.trans (hwidth'.le.trans hle')⟩

theorem Precedes.minIncome_lt {b' : Bracket} (h : Precedes b b') :
    b.minIncome.toRat < b'.minIncome.toRat := by
  obtain ⟨upper, -, hwidth, hle⟩ := h
  exact hwidth.trans_le hle

theorem Adjoins.precedes (h : Adjoins b next) : Precedes b next := by
  obtain ⟨upper, hmax, hwidth, hnext⟩ := h
  exact ⟨upper, hmax, lt_iff_toRat.1 hwidth, (equiv_iff_toRat.1 hnext).ge⟩

/-- Brackets that adjoin are in order, and not only neighbours. -/
theorem pairwise_precedes {brackets : List Bracket}
    (h : brackets.IsChain Adjoins) : brackets.Pairwise Precedes :=
  List.isChain_iff_pairwise.1 (h.imp fun _ _ => Adjoins.precedes)

theorem wellFormed (t : BracketTable) : WellFormed t.brackets :=
  check_eq_ok.1 t.checked

theorem rising (t : BracketTable) :
    t.brackets.Pairwise (·.minIncome.toRat < ·.minIncome.toRat) :=
  (pairwise_precedes t.wellFormed.adjoining).imp Precedes.minIncome_lt

/-- The lowest bracket starts at zero. -/
theorem exists_first (t : BracketTable) :
    ∃ first rest, t.brackets = first :: rest ∧ first.minIncome.toRat = 0 := by
  obtain ⟨first, rest, hbrackets⟩ :=
    List.exists_cons_of_ne_nil t.brackets_ne_nil
  have hfirst := t.wellFormed.first first (by rw [hbrackets]; rfl)
  rw [equiv_iff_toRat, toRat_zero] at hfirst
  exact ⟨first, rest, hbrackets, hfirst⟩

-- ================================================================= refusal

/-- Where the sum that is to be formed exists, a check that does not
pass names a defect. -/
theorem refuses_checkFrom {index : ℕ} {brackets : List Bracket}
    {sum : Decimal} (h : brackets.dropLast.foldlM addWhole tax = .ok sum) :
    Refuses (checkFrom index tax brackets) := by
  induction brackets generalizing index tax with
  | nil => exact .passed
  | cons b rest ih =>
      unfold checkFrom
      refine .refuse (.refuse ?_)
      cases rest with
      | nil =>
          cases b.maxIncome with
          | none => exact .passed
          | some upper => exact ⟨_, rfl⟩
      | cons next above =>
          rw [List.dropLast_cons_cons, List.foldlM_cons, bind_eq_ok] at h
          obtain ⟨tax', htax', h⟩ := h
          cases hmax : b.maxIncome with
          | none => exact ⟨_, rfl⟩
          | some upper =>
              obtain ⟨slice, hslice, htax'⟩ := (addWhole_eq_ok hmax).1 htax'
              refine .refuse (.refuse ?_)
              rw [hslice, liftM_ok, ok_bind, htax', liftM_ok, ok_bind]
              exact ih h

theorem refuses_check {brackets : List Bracket} {sum : Decimal}
    (h : taxBelow brackets.dropLast = .ok sum) :
    Refuses (check brackets) := by
  cases brackets with
  | nil => exact ⟨_, rfl⟩
  | cons b rest => exact .refuse (refuses_checkFrom h)

end Payroll.BracketTable
