/-
What overtime comes to. Rules pass their checks where each is acceptable
and none is of the category of another. Under such rules and a rate that
is not negative no line is negative. The lines stand in reporting
order, one for each category, so the amounts by category are the lines
again and sum up to the same total.

# A line

The place of a category is empty where its hours are zero, and holds the
line of its rule (`OvertimeRule.lineFor`) where they are more
(`line_eq_ok`). A warning goes with a line if and only if it pays less
than what was asked for (`Warns`).
-/
import Payroll.Overtime.Basic
import Payroll.Proofs.Decimal.Ledger
import Payroll.Proofs.Entries
import Payroll.Proofs.Sequencing

namespace Payroll

open Decimal

namespace OvertimeRule

/-- A rule that pays something and caps no hours below zero. -/
structure Proper (r : OvertimeRule) : Prop where
  multiplier_pos : 0 < r.multiplier.toRat
  cap_nonneg : ∀ cap, r.cap = some cap → 0 ≤ cap.toRat

/-- A rule that pays an hour better than an ordinary one. -/
structure Acceptable (r : OvertimeRule) : Prop where
  one_lt_multiplier : 1 < r.multiplier.toRat
  cap_nonneg : ∀ cap, r.cap = some cap → 0 ≤ cap.toRat

theorem Acceptable.proper {r : OvertimeRule} (h : r.Acceptable) :
    r.Proper :=
  ⟨one_pos.trans h.one_lt_multiplier, h.cap_nonneg⟩

theorem checkEach_cons_eq_ok {seen : List Category} {r : OvertimeRule}
    {rest : List OvertimeRule} : checkEach seen (r :: rest) = .ok () ↔
      (r.Acceptable ∧ r.category ∉ seen)
        ∧ checkEach (r.category :: seen) rest = .ok () := by
  rw [checkEach]
  simp only [ite_error_eq_ok, le_iff_toRat, toRat_one, not_le]
  constructor
  · rintro ⟨hnew, hmultiplier, h⟩
    split at h
    · rename_i cap hcap
      rw [ite_error_eq_ok, lt_iff_toRat, toRat_zero, not_lt] at h
      refine ⟨⟨⟨hmultiplier, fun cap' hcap' => ?_⟩, hnew⟩, h.2⟩
      rw [hcap] at hcap'
      exact Option.some.inj hcap' ▸ h.1
    · rename_i hcap
      refine ⟨⟨⟨hmultiplier, fun cap' hcap' => ?_⟩, hnew⟩, h⟩
      rw [hcap] at hcap'
      cases hcap'
  · rintro ⟨⟨⟨hmultiplier, hcaps⟩, hnew⟩, hrest⟩
    refine ⟨hnew, hmultiplier, ?_⟩
    split
    · rename_i cap hcap
      rw [ite_error_eq_ok, lt_iff_toRat, toRat_zero, not_lt]
      exact ⟨hcaps cap hcap, hrest⟩
    · exact hrest

theorem checkEach_eq_ok {seen : List Category}
    {rules : List OvertimeRule} : checkEach seen rules = .ok () ↔
      (∀ r ∈ rules, r.Acceptable) ∧ Fresh (·.category) seen rules := by
  induction rules generalizing seen with
  | nil => exact iff_of_true rfl ⟨nofun, fresh_nil⟩
  | cons r rest ih =>
      rw [checkEach_cons_eq_ok, ih, List.forall_mem_cons, fresh_cons]
      exact and_and_and_comm

/-- Acceptable rules with one for each category at most. -/
structure Table (rules : List OvertimeRule) : Prop where
  acceptable : ∀ r ∈ rules, r.Acceptable
  distinct : (rules.map (·.category)).Nodup

theorem checkAll_eq_ok {rules : List OvertimeRule} :
    checkAll rules = .ok () ↔ Table rules := by
  rw [checkAll, checkEach_eq_ok, fresh_iff_nodup]
  exact ⟨fun h => ⟨h.1, h.2⟩, fun h => ⟨h.acceptable, h.distinct⟩⟩

theorem Table.proper {rules : List OvertimeRule} (h : Table rules) :
    ∀ r ∈ rules, r.Proper :=
  fun r hr => (h.acceptable r hr).proper

theorem find?_mem {rules : List OvertimeRule} {c : Category}
    {r : OvertimeRule} (h : find? rules c = some r) : r ∈ rules :=
  List.mem_of_find?_eq_some h

section Lines

variable {rule : OvertimeRule} {rules : List OvertimeRule}
  {rate hours : Decimal} {l : OvertimeLine} {c : Category}

theorem category_of_find? (h : find? rules c = some rule) :
    rule.category = c := by
  simpa using List.find?_some h

theorem find?_eq_some (hrules : Table rules) :
    find? rules c = some rule ↔ rule ∈ rules ∧ rule.category = c :=
  find?_key_eq_some hrules.distinct

theorem Table.eq_of_category {rule' : OvertimeRule} (hrules : Table rules)
    (h : rule ∈ rules) (h' : rule' ∈ rules)
    (heq : rule.category = rule'.category) : rule = rule' :=
  List.inj_on_of_nodup_map hrules.distinct h h' heq

/-- What is paid of the hours that are asked for. -/
def paidHours (rule : OvertimeRule) (hours : Decimal) : Decimal :=
  match rule.cap with
  | some cap => min hours cap
  | none => hours

/-- The line of a rule for hours of its category. -/
def lineFor (rule : OvertimeRule) (rate hours : Decimal) :
    Except Fault OvertimeLine := do
  let base ← (rule.paidHours hours).mul rate
  let amount ← base.mul rule.multiplier
  return {
    category := rule.category, requestedHours := hours
    paidHours := rule.paidHours hours, hourlyRate := rate
    multiplier := rule.multiplier, amount }

theorem lineFor_eq_ok : rule.lineFor rate hours = .ok l
    ↔ ∃ base amount, (rule.paidHours hours).mul rate = .ok base
      ∧ base.mul rule.multiplier = .ok amount
      ∧ {
        category := rule.category, requestedHours := hours
        paidHours := rule.paidHours hours, hourlyRate := rate
        multiplier := rule.multiplier, amount } = l := by
  simp only [lineFor, bind_eq_ok, pure, Except.pure, Except.ok.injEq]
  constructor
  · rintro ⟨base, hbase, amount, hamount, h⟩
    exact ⟨base, amount, hbase, hamount, h⟩
  · rintro ⟨base, amount, hbase, hamount, h⟩
    exact ⟨base, hbase, amount, hamount, h⟩

/-- The hours that are paid are not negative if those worked are not. -/
theorem Proper.paidHours_nonneg (hrule : rule.Proper)
    (h : 0 ≤ hours.toRat) : 0 ≤ (rule.paidHours hours).toRat := by
  unfold paidHours
  split
  · rename_i cap hcap
    rw [toRat_min]
    exact le_min h (hrule.cap_nonneg cap hcap)
  · exact h

theorem Proper.amount_nonneg (hrule : rule.Proper) (hrate : 0 ≤ rate.toRat)
    (h : 0 ≤ hours.toRat) (hl : rule.lineFor rate hours = .ok l) :
    0 ≤ l.amount.toRat := by
  obtain ⟨base, amount, hbase, hamount, rfl⟩ := lineFor_eq_ok.1 hl
  exact toRat_mul_nonneg (toRat_mul_nonneg (hrule.paidHours_nonneg h) hrate
    hbase) hrule.multiplier_pos.le hamount

end Lines

end OvertimeRule

namespace Overtime

variable {hourlyRate : Decimal} {rules : List OvertimeRule}
  {hours : ByCategory Decimal} {o : Overtime}

-- ================================================================ a line

section Line

variable {c : Category} {worked : Decimal}

/-- What is to go with hours that are asked for and hours that are paid:
a warning that names the difference if fewer are paid, and nothing
otherwise. -/
def Warns (c : Category) (requested paid : Decimal) (w : Option Warning) :
    Prop :=
  if paid < requested then
    ∃ excess, requested.sub paid = .ok excess
      ∧ some (clamped c paid excess) = w
  else w = none

theorem warns_self {w : Option Warning} :
    Warns c worked worked w ↔ w = none := by
  rw [Warns, if_neg]
  rw [lt_iff_toRat]
  exact lt_irrefl _

theorem warns_of_lt {paid : Decimal} {w : Option Warning}
    (h : paid < worked) : Warns c worked paid w
      ↔ ∃ excess, worked.sub paid = .ok excess
        ∧ some (clamped c paid excess) = w := by
  rw [Warns, if_pos h]

theorem pay_eq_ok {rule : OvertimeRule} {paid : Decimal}
    {w : Option Warning} : pay rule worked = .ok (paid, w)
      ↔ rule.paidHours worked = paid ∧ Warns rule.category worked paid w := by
  have huncut : (Except.ok (worked, none) : Except Fault _) = .ok (paid, w)
      ↔ worked = paid ∧ Warns rule.category worked paid w := by
    rw [Except.ok.injEq, Prod.mk.injEq]
    refine and_congr_right fun h => ?_
    rw [← h, warns_self, eq_comm]
  unfold pay OvertimeRule.paidHours
  cases rule.cap with
  | none => exact huncut
  | some cap =>
      show _ ↔ (if cap < worked then cap else worked) = paid ∧ _
      by_cases hcut : cap < worked
      · simp only [if_pos hcut, bind_eq_ok, pure, Except.pure,
          Except.ok.injEq, Prod.mk.injEq]
        constructor
        · rintro ⟨excess, hexcess, rfl, hw⟩
          exact ⟨rfl, (warns_of_lt hcut).2 ⟨excess, hexcess, hw⟩⟩
        · rintro ⟨rfl, hw⟩
          obtain ⟨excess, hexcess, hw⟩ := (warns_of_lt hcut).1 hw
          exact ⟨excess, hexcess, rfl, hw⟩
      · simp only [if_neg hcut]
        exact huncut

/-- Hours with a rule are priced by it. -/
theorem line_of_find? {rule : OvertimeRule}
    {x : Option (OvertimeLine × Option Warning)} (hpos : 0 < worked.toRat)
    (hrule : OvertimeRule.find? rules c = some rule) :
    line hourlyRate rules c worked = .ok x
      ↔ ∃ l w, rule.lineFor hourlyRate worked = .ok l
        ∧ Warns l.category l.requestedHours l.paidHours w
        ∧ some (l, w) = x := by
  have hcategory := OvertimeRule.category_of_find? hrule
  have hneg : ¬worked < .zero := by
    rw [lt_iff_toRat, toRat_zero]
    exact hpos.not_gt
  have hzero : ¬worked ≈ .zero := by
    rw [equiv_iff_toRat, toRat_zero]
    exact hpos.ne'
  rw [line, if_neg hneg, if_neg hzero]
  simp only [hrule, bind_eq_ok, liftM_fault_eq_ok, pure, Except.pure,
    Except.ok.injEq, Prod.exists, pay_eq_ok]
  constructor
  · rintro ⟨_, w, ⟨rfl, hw⟩, base, hbase, amount, hamount, rfl⟩
    refine ⟨_, w, OvertimeRule.lineFor_eq_ok.2
      ⟨base, amount, hbase, hamount, rfl⟩, hw, ?_⟩
    rw [hcategory]
  · rintro ⟨l, w, hl, hw, rfl⟩
    obtain ⟨base, amount, hbase, hamount, rfl⟩ :=
      OvertimeRule.lineFor_eq_ok.1 hl
    refine ⟨_, w, ⟨rfl, hw⟩, base, hbase, amount, hamount, ?_⟩
    rw [hcategory]

/-- A place is empty where there are no hours, and filled by the rule
where there are some. -/
theorem line_eq_ok {x : Option (OvertimeLine × Option Warning)} :
    line hourlyRate rules c worked = .ok x
      ↔ (worked.toRat = 0 ∧ x = none)
        ∨ 0 < worked.toRat ∧ ∃ rule l w,
          OvertimeRule.find? rules c = some rule
            ∧ rule.lineFor hourlyRate worked = .ok l
            ∧ Warns l.category l.requestedHours l.paidHours w
            ∧ some (l, w) = x := by
  have hneg : worked < .zero ↔ worked.toRat < 0 := by
    rw [lt_iff_toRat, toRat_zero]
  have hzero : worked ≈ .zero ↔ worked.toRat = 0 := by
    rw [equiv_iff_toRat, toRat_zero]
  rcases lt_trichotomy worked.toRat 0 with h | h | h
  · rw [line, if_pos (hneg.2 h)]
    simp [h.ne, h.not_gt]
  · rw [line, if_neg (by rw [hneg, h]; exact lt_irrefl _),
      if_pos (hzero.2 h)]
    simp [h, eq_comm]
  · cases hfind : OvertimeRule.find? rules c with
    | none =>
        rw [line, if_neg (by rw [hneg]; exact h.not_gt),
          if_neg (by rw [hzero]; exact h.ne'), hfind]
        simp [h.ne']
    | some rule =>
        rw [line_of_find? h hfind]
        simp [h, h.ne']

/-- The hours above a cap are an amount, so hours with a line have a
place. -/
theorem exists_place {rule : OvertimeRule} {l : OvertimeLine}
    (hrule : rule.Proper) (hpos : 0 < worked.toRat)
    (hfind : OvertimeRule.find? rules c = some rule)
    (hl : rule.lineFor hourlyRate worked = .ok l) :
    ∃ x, line hourlyRate rules c worked = .ok x ∧ ∀ e ∈ x, e.1 = l := by
  obtain ⟨w, hw⟩ : ∃ w,
      Warns l.category l.requestedHours l.paidHours w := by
    obtain ⟨base, amount, -, -, rfl⟩ := OvertimeRule.lineFor_eq_ok.1 hl
    by_cases hcut : rule.paidHours worked < worked
    · have hnonneg := hrule.paidHours_nonneg hpos.le
      have hwidth := lt_iff_toRat.1 hcut
      have hrange : InRange
          (worked.toRat - (rule.paidHours worked).toRat) := by
        refine (inRange_toRat worked).of_abs_le ?_
        rw [abs_of_pos (sub_pos.2 hwidth), abs_of_pos hpos]
        exact sub_le_self _ hnonneg
      obtain ⟨excess, hexcess, -⟩ := (sub?_rounds worked
        (rule.paidHours worked)).exists_ok hrange .subtractionOverflow
      exact ⟨_, (warns_of_lt hcut).2 ⟨excess, hexcess, rfl⟩⟩
    · exact ⟨none, by rw [Warns, if_neg hcut]⟩
  refine ⟨some (l, w), line_eq_ok.2 (.inr ⟨hpos, rule, l, w, hfind, hl, hw,
    rfl⟩), ?_⟩
  rintro e ⟨⟩
  rfl

theorem category_of_place {x : OvertimeLine × Option Warning}
    (h : line hourlyRate rules c worked = .ok (some x)) :
    x.1.category = c := by
  rcases line_eq_ok.1 h with ⟨-, hnone⟩
    | ⟨-, rule, l, w, hfind, hl, -, hsome⟩
  · cases hnone
  · cases hsome
    obtain ⟨base, amount, -, -, rfl⟩ := OvertimeRule.lineFor_eq_ok.1 hl
    exact OvertimeRule.category_of_find? hfind

/-- No line is of a negative amount. -/
theorem amount_nonneg_of_place {x : OvertimeLine × Option Warning}
    (hrules : ∀ r ∈ rules, r.Proper) (hrate : 0 ≤ hourlyRate.toRat)
    (h : line hourlyRate rules c worked = .ok (some x)) :
    0 ≤ x.1.amount.toRat := by
  rcases line_eq_ok.1 h with ⟨-, hnone⟩
    | ⟨hpos, rule, l, w, hfind, hl, -, hsome⟩
  · cases hnone
  · cases hsome
    exact (hrules rule (OvertimeRule.find?_mem hfind)).amount_nonneg hrate
      hpos.le hl

/-- A category has a line when it has hours. -/
theorem category_of_line {x : Option (OvertimeLine × Option Warning)}
    (h : line hourlyRate rules c worked = .ok x) :
    x.map (·.1.category) = if worked ≈ .zero then none else some c := by
  have hempty : worked ≈ .zero ↔ worked.toRat = 0 := by
    rw [equiv_iff_toRat, toRat_zero]
  rcases line_eq_ok.1 h with ⟨hzero, rfl⟩ | ⟨hpos, _, l, w, -, -, -, rfl⟩
  · rw [if_pos (hempty.2 hzero)]
    rfl
  · rw [if_neg (hempty.not.2 hpos.ne'), ← category_of_place h]
    rfl

end Line

/-- The lines of the categories present, those without hours left
out. -/
theorem compute_eq_ok (h : compute hours hourlyRate rules = .ok o) :
    0 ≤ hourlyRate.toRat ∧ ∃ found,
      List.Forall₂ (fun (e : Category × Decimal) l =>
        line hourlyRate rules e.1 e.2 = .ok l) hours.entries found
      ∧ o.lines = (found.filterMap id).map (·.1)
      ∧ Decimal.sum (o.lines.map (·.amount)) = .ok o.total := by
  unfold compute at h
  split at h
  · cases h
  · rename_i hrate
    rw [lt_iff_toRat, toRat_zero, not_lt] at hrate
    obtain ⟨found, hfound, h⟩ := bind_eq_ok.1 h
    obtain ⟨total, htotal, h⟩ := bind_eq_ok.1 h
    cases h
    rw [mapM_eq_ok] at hfound
    rw [liftM_fault_eq_ok] at htotal
    exact ⟨hrate, found, hfound, rfl, htotal⟩

-- ============================================================= all lines

/-- The lines of some entries: none negative, in the order of the
entries. -/
theorem lines_of_entries {entries : List (Category × Decimal)}
    {found : List (Option (OvertimeLine × Option Warning))}
    (hrules : ∀ r ∈ rules, r.Proper) (hrate : 0 ≤ hourlyRate.toRat)
    (h : List.Forall₂ (fun (e : Category × Decimal) l =>
      line hourlyRate rules e.1 e.2 = .ok l) entries found) :
    (∀ l ∈ (found.filterMap id).map (·.1), 0 ≤ l.amount.toRat)
      ∧ (((found.filterMap id).map (·.1)).map (·.category)).Sublist
        (entries.map (·.1)) := by
  induction h with
  | nil => exact ⟨nofun, .slnil⟩
  | @cons e found? entries found hline _ ih =>
      cases found? with
      | none =>
          rw [List.filterMap_cons_none rfl]
          exact ⟨ih.1, ih.2.cons _⟩
      | some l =>
          have hcategory := category_of_place hline
          have hamount := amount_nonneg_of_place hrules hrate hline
          rw [List.filterMap_cons_some (f := id) rfl]
          refine ⟨?_, ?_⟩
          · intro l' hl'
            rcases List.mem_cons.1 hl' with rfl | hl'
            · exact hamount
            · exact ih.1 l' hl'
          · simp only [List.map_cons, hcategory]
            exact ih.2.cons_cons e.1

theorem amount_nonneg (hrules : ∀ r ∈ rules, r.Proper)
    (h : compute hours hourlyRate rules = .ok o) :
    ∀ l ∈ o.lines, 0 ≤ l.amount.toRat := by
  obtain ⟨hrate, found, hfound, hlines, -⟩ := compute_eq_ok h
  rw [hlines]
  exact (lines_of_entries hrules hrate hfound).1

theorem categories_sublist (hrules : ∀ r ∈ rules, r.Proper)
    (h : compute hours hourlyRate rules = .ok o) :
    (o.lines.map (·.category)).Sublist Category.all := by
  obtain ⟨hrate, found, hfound, hlines, -⟩ := compute_eq_ok h
  rw [hlines]
  exact (lines_of_entries hrules hrate hfound).2.trans
    hours.map_entries_sublist

/-- The categories with hours, in reporting order. -/
def worked (hours : ByCategory Decimal) : List Category :=
  (hours.entries.filter fun e : Category × Decimal =>
    decide ¬e.2 ≈ .zero).map (·.1)

/-- The lines are those of the categories with hours. -/
theorem categories_eq (h : compute hours hourlyRate rules = .ok o) :
    o.lines.map (·.category) = worked hours := by
  obtain ⟨-, found, hfound, hlines, -⟩ := compute_eq_ok h
  rw [hlines, worked]
  clear hlines h
  generalize hours.entries = entries at hfound ⊢
  induction hfound with
  | nil => rfl
  | @cons e l? entries found hline _ ih =>
      have hcategory := category_of_line hline
      by_cases hzero : e.2 ≈ .zero
      · rw [if_pos hzero, Option.map_eq_none_iff] at hcategory
        rw [hcategory, List.filterMap_cons_none rfl, ih,
          List.filter_cons_of_neg (by simpa using hzero)]
      · rw [if_neg hzero, Option.map_eq_some_iff] at hcategory
        obtain ⟨l, rfl, hl⟩ := hcategory
        rw [List.filterMap_cons_some (f := id) rfl, List.map_cons,
          List.map_cons, ih, hl,
          List.filter_cons_of_pos (by simpa using hzero), List.map_cons]

/-- There are no more lines than categories. -/
theorem length_lines_le (hrules : ∀ r ∈ rules, r.Proper)
    (h : compute hours hourlyRate rules = .ok o) : o.lines.length ≤ 4 := by
  have hle := (categories_sublist hrules h).length_le
  rwa [List.length_map] at hle

/-- Lines in reporting order are the amounts by category. -/
theorem entries_amountByCategory
    (h : (o.lines.map (·.category)).Sublist Category.all) :
    o.amountByCategory.entries
      = o.lines.map fun l => (l.category, l.amount) := by
  have hkeys : (o.lines.map fun l => (l.category, l.amount)).map (·.1)
      = o.lines.map (·.category) := by
    rw [List.map_map]
    rfl
  exact ByCategory.entries_ofList (by rw [hkeys]; exact h)

theorem values_amountByCategory
    (h : (o.lines.map (·.category)).Sublist Category.all) :
    o.amountByCategory.values = o.lines.map (·.amount) := by
  rw [ByCategory.values, entries_amountByCategory h, List.map_map]
  rfl

-- =============================================================== rounded

variable {rounding : Rounding} {o' : Overtime}

theorem rounded_eq_ok (h : o.rounded rounding = .ok o') :
    o'.lines.map (·.category) = o.lines.map (·.category)
      ∧ o'.lines.map (·.amount)
        = o.lines.map (fun l => rounding.round l.amount)
      ∧ Decimal.sum (o'.lines.map (·.amount)) = .ok o'.total := by
  obtain ⟨total, htotal, h⟩ := bind_eq_ok.1 h
  cases h
  refine ⟨?_, ?_, htotal⟩
  · rw [List.map_map]
    rfl
  · rw [List.map_map]
    rfl

theorem exists_rounded {total : Decimal}
    (h : Decimal.sum (o.lines.map fun l => rounding.round l.amount)
      = .ok total) :
    ∃ o', o.rounded rounding = .ok o' ∧ o'.total = total := by
  unfold rounded
  simp only [List.map_map, Function.comp_def, h, ok_bind]
  exact ⟨_, rfl, rfl⟩

/-- Rounded lines can be paid out of a ledger. -/
theorem payable_rounded (hplaces : rounding.places ≤ 4)
    (ho : ∀ l ∈ o.lines, 0 ≤ l.amount.toRat) :
    Payable (o.lines.map fun l => rounding.round l.amount) :=
  payable_map fun l hl => rounding.held_round hplaces (ho l hl)

end Overtime

end Payroll
