/-
Overtime category by category. The hours of a request name some of the
categories; overtime goes through those it names and leaves out the ones
without hours. The same lines come out when it goes through all of them
and a category that is not named counts as one of zero hours. Seen so, a
calculation is a sheet with a place for every category, and what is in
a place hangs on the hours and on the rule of its category alone.

Two calculations can then be compared place by place, whichever
categories the one or the other names.

# A place

The one thing that can keep it from being filled, once the hours are not
negative and have a rule, is a product that is out of range
(`OvertimeRule.Affords`): the hours above a cap, which only the warning
needs, are always an amount.
-/
import Payroll.Proofs.Earnings

namespace Payroll

open Decimal

namespace OvertimeRule

variable {rule : OvertimeRule} {rate hours : Decimal} {l : OvertimeLine}

-- ============================================================ one category

/-- What the amount of a line is worth. -/
def price (rule : OvertimeRule) (rate worked : ℚ) : ℚ :=
  nearest (nearest (rule.paid worked * rate) * rule.multiplier.toRat)

/-- Neither product of a line is out of range. -/
def Affords (rule : OvertimeRule) (rate worked : ℚ) : Prop :=
  InRange (rule.paid worked * rate)
    ∧ InRange (nearest (rule.paid worked * rate) * rule.multiplier.toRat)

theorem toRat_amount (h : rule.lineFor rate hours = .ok l) :
    l.amount.toRat = rule.price rate.toRat hours.toRat := by
  obtain ⟨base, amount, hbase, hamount, rfl⟩ := lineFor_eq_ok.1 h
  show amount.toRat = _
  rw [toRat_mul hamount, toRat_mul hbase, toRat_paidHours]
  rfl

/-- There is a line where the products are in range. -/
theorem exists_lineFor : (∃ l, rule.lineFor rate hours = .ok l)
    ↔ rule.Affords rate.toRat hours.toRat := by
  have hfirst := mul?_rounds (rule.paidHours hours) rate
  rw [toRat_paidHours] at hfirst
  constructor
  · rintro ⟨l, hl⟩
    obtain ⟨base, amount, hbase, hamount, -⟩ := lineFor_eq_ok.1 hl
    have hvalue := hfirst.toRat_of_ok hbase
    refine ⟨hfirst.inRange_of_ok hbase, ?_⟩
    rw [← hvalue]
    exact (mul?_rounds base rule.multiplier).inRange_of_ok hamount
  · rintro ⟨hbase, hamount⟩
    obtain ⟨base, hbase, hvalue⟩ :=
      hfirst.exists_ok hbase .multiplicationOverflow
    rw [← hvalue] at hamount
    obtain ⟨amount, hamount, -⟩ := (mul?_rounds base
      rule.multiplier).exists_ok hamount .multiplicationOverflow
    exact ⟨_, lineFor_eq_ok.2 ⟨base, amount, hbase, hamount, rfl⟩⟩

section Values

variable {rate v w : ℚ}

theorem paid_mono (rule : OvertimeRule) (h : v ≤ w) :
    rule.paid v ≤ rule.paid w := by
  unfold paid
  split
  · exact min_le_min_right _ h
  · exact h

/-- Nothing is paid of no hours. -/
theorem Proper.paid_zero (hrule : rule.Proper) : rule.paid 0 = 0 := by
  unfold paid
  split
  · rename_i cap hcap
    exact min_eq_left (hrule.cap_nonneg cap hcap)
  · rfl

theorem Proper.price_mono (hrule : rule.Proper) (hrate : 0 ≤ rate)
    (h : v ≤ w) : rule.price rate v ≤ rule.price rate w :=
  nearest_mono (mul_le_mul_of_nonneg_right
    (nearest_mono (mul_le_mul_of_nonneg_right (rule.paid_mono h) hrate))
    hrule.multiplier_pos.le)

theorem Proper.price_zero (hrule : rule.Proper) : rule.price rate 0 = 0 := by
  rw [price, hrule.paid_zero, zero_mul, nearest_zero, zero_mul, nearest_zero]

theorem Proper.affords_zero (hrule : rule.Proper) : rule.Affords rate 0 := by
  have hzero : InRange 0 := toRat_zero ▸ inRange_toRat .zero
  rw [Affords, hrule.paid_zero, zero_mul, nearest_zero, zero_mul]
  exact ⟨hzero, hzero⟩

theorem paid_of_cap_le {cap : Decimal} (hcap : rule.cap = some cap)
    (h : cap.toRat ≤ w) : rule.paid w = cap.toRat := by
  unfold paid
  rw [hcap]
  exact min_eq_right h

end Values

end OvertimeRule

namespace Overtime

variable {rules : List OvertimeRule} {rate worked : Decimal} {c : Category}
  {hours : ByCategory Decimal} {o : Overtime}

-- ================================================================ a place

/-- A place can be filled where the hours are not negative and, if there
are some, have a rule that affords them. -/
theorem exists_line_iff (hrules : OvertimeRule.Table rules) :
    (∃ x, line rate rules c worked = .ok x)
      ↔ 0 ≤ worked.toRat ∧ (0 < worked.toRat → ∃ rule ∈ rules,
        rule.category = c ∧ rule.Affords rate.toRat worked.toRat) := by
  constructor
  · rintro ⟨x, hx⟩
    rcases line_eq_ok.1 hx with ⟨hzero, -⟩
      | ⟨hpos, rule, l, w, hfind, hl, -⟩
    · exact ⟨hzero.ge, fun hpos => absurd hzero hpos.ne'⟩
    · obtain ⟨hmem, hcategory⟩ := (OvertimeRule.find?_eq_some hrules).1 hfind
      exact ⟨hpos.le, fun _ => ⟨rule, hmem, hcategory,
        OvertimeRule.exists_lineFor.1 ⟨l, hl⟩⟩⟩
  · rintro ⟨hnonneg, hrule⟩
    rcases hnonneg.eq_or_lt with hzero | hpos
    · exact ⟨none, line_eq_ok.2 (.inl ⟨hzero.symm, rfl⟩)⟩
    · obtain ⟨rule, hmem, hcategory, haffords⟩ := hrule hpos
      obtain ⟨l, hl⟩ := OvertimeRule.exists_lineFor.2 haffords
      have hproper := hrules.proper rule hmem
      have hfind := (OvertimeRule.find?_eq_some hrules).2 ⟨hmem, hcategory⟩
      exact (exists_place hproper hpos hfind hl).imp fun _ => And.left

/-- What a category is worth with some hours. -/
def worth (rules : List OvertimeRule) (rate : ℚ) (c : Category) (w : ℚ) :
    ℚ :=
  match OvertimeRule.find? rules c with
  | some rule => rule.price rate w
  | none => 0

/-- A figure of the line in a place, and zero where there is none. -/
def figure (f : OvertimeLine → Decimal)
    (x : Option (OvertimeLine × Option Warning)) : Decimal :=
  (x.map fun e => f e.1).getD .zero

theorem toRat_figure_amount (hrules : ∀ rule ∈ rules, rule.Proper)
    {x : Option (OvertimeLine × Option Warning)}
    (h : line rate rules c worked = .ok x) :
    (figure (·.amount) x).toRat = worth rules rate.toRat c worked.toRat := by
  rcases line_eq_ok.1 h with ⟨hzero, rfl⟩
    | ⟨-, rule, l, w, hfind, hl, -, rfl⟩
  · unfold worth
    split
    · rename_i rule hfind
      rw [hzero, (hrules rule (OvertimeRule.find?_mem hfind)).price_zero]
      exact toRat_zero
    · exact toRat_zero
  · rw [worth, hfind]
    exact OvertimeRule.toRat_amount hl

theorem worth_mono (hrules : ∀ rule ∈ rules, rule.Proper) {rate v w : ℚ}
    (hrate : 0 ≤ rate) (h : v ≤ w) :
    worth rules rate c v ≤ worth rules rate c w := by
  unfold worth
  split
  · rename_i rule hfind
    exact (hrules rule (OvertimeRule.find?_mem hfind)).price_mono hrate h
  · exact le_rfl

-- ================================================================ a sheet

/-- The hours of a category. One that is not named has none. -/
def hoursIn (hours : ByCategory Decimal) (c : Category) : Decimal :=
  (hours.get? c).getD .zero

/-- The categories with hours, in reporting order. -/
def withHours (hours : ByCategory Decimal) : List Category :=
  Category.all.filter fun c => decide (.zero < hoursIn hours c)

/-- A place for each category. -/
abbrev Sheet := Category → Option (OvertimeLine × Option Warning)

namespace Sheet

/-- Whether every category has in its place what it is paid. -/
def Filled (rules : List OvertimeRule) (rate : Decimal)
    (hours : ByCategory Decimal) (sheet : Sheet) : Prop :=
  ∀ c, line rate rules c (hoursIn hours c) = .ok (sheet c)

def lines (sheet : Sheet) : List OvertimeLine :=
  (Category.all.filterMap sheet).map (·.1)

def warnings (sheet : Sheet) : List Warning :=
  (Category.all.filterMap sheet).filterMap (·.2)

end Sheet

theorem line_zero : line rate rules c .zero = .ok none :=
  line_eq_ok.2 (.inl ⟨toRat_zero, rfl⟩)

/-- A category that is not named leaves no trace. -/
theorem mapM_entries {β : Type} (cs : List Category)
    (k : List (OvertimeLine × Option Warning) → Except Failure β) :
    (((cs.filterMap fun c => (hours.get? c).map (c, ·)).mapM fun e =>
        line rate rules e.1 e.2) >>= fun found => k (found.filterMap id))
      = ((cs.mapM fun c => line rate rules c (hoursIn hours c)) >>=
        fun found => k (found.filterMap id)) := by
  induction cs generalizing k with
  | nil => rfl
  | cons c cs ih =>
      rw [List.mapM_cons]
      simp only [bind_assoc, pure_bind]
      cases hc : hours.get? c with
      | none =>
          have hnone : hoursIn hours c = .zero := by rw [hoursIn, hc]; rfl
          rw [List.filterMap_cons_none (by rw [hc]; rfl), ih, hnone,
            line_zero, ok_bind]
          rfl
      | some worked =>
          have hsome : hoursIn hours c = worked := by rw [hoursIn, hc]; rfl
          rw [List.filterMap_cons_some (by rw [hc]; rfl), List.mapM_cons,
            hsome]
          simp only [bind_assoc, pure_bind]
          refine bind_congr fun l => ?_
          cases l with
          | none => exact ih k
          | some l => exact ih fun rest => k (l :: rest)

/-- The overtime of what the places hold. -/
def ofPriced (priced : List (OvertimeLine × Option Warning)) :
    Except Failure Overtime := do
  let lines := priced.map (·.1)
  let total ← Decimal.sum (lines.map (·.amount))
  return { lines, total, warnings := priced.filterMap (·.2) }

/-- Overtime may go through all categories. -/
theorem compute_eq : compute hours rate rules
    = if rate < .zero then
        .error (.calculation (.negativeHourlyRate rate))
      else
        (Category.all.mapM fun c => line rate rules c (hoursIn hours c))
          >>= fun found => ofPriced (found.filterMap id) := by
  unfold compute
  split
  · rfl
  · exact mapM_entries Category.all ofPriced

/-- Overtime is computed where every place of a sheet can be filled and
the amounts have a sum. -/
theorem compute_eq_ok_iff : compute hours rate rules = .ok o
    ↔ 0 ≤ rate.toRat ∧ ∃ sheet : Sheet, sheet.Filled rules rate hours
      ∧ sheet.lines = o.lines ∧ sheet.warnings = o.warnings
      ∧ Decimal.sum (o.lines.map (·.amount)) = .ok o.total := by
  rw [compute_eq, ite_error_eq_ok, lt_iff_toRat, toRat_zero, not_lt]
  refine and_congr_right fun _ => ?_
  simp only [ofPriced, bind_eq_ok, liftM_fault_eq_ok, pure, Except.pure,
    Except.ok.injEq]
  constructor
  · rintro ⟨found, hfound, total, htotal, rfl⟩
    obtain ⟨sheet, hsheet, rfl⟩ := exists_map_of_mapM hfound
    rw [List.filterMap_map, Function.id_comp] at htotal ⊢
    exact ⟨sheet, fun c => hsheet c c.mem_all, rfl, rfl, htotal⟩
  · rintro ⟨sheet, hsheet, hlines, hwarnings, htotal⟩
    refine ⟨Category.all.map sheet, ?_, o.total, ?_, ?_⟩
    · rw [mapM_eq_ok, List.forall₂_map_right_iff, List.forall₂_same]
      exact fun c _ => hsheet c
    · rw [List.filterMap_map, Function.id_comp]
      rwa [← hlines] at htotal
    · rw [List.filterMap_map, Function.id_comp]
      obtain ⟨lines, total, warnings⟩ := o
      cases hlines
      cases hwarnings
      rfl

end Overtime

end Payroll
