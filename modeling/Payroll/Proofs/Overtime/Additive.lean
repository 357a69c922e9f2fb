/-
Overtime is additive. What is paid for several categories is what is
paid for each of them by itself: the line of a category hangs on its own
hours and its own rule (`mem_lines_iff`), and the total is the sum of
the totals that the categories have by themselves (`separable`).

Two totals are compared by way of a third, the sum over all places of a
sheet. A place that is empty adds zero, and a zero may be left out of a
sum, so neither the categories without hours nor those that are not
named make a difference. How a total of zero is written may differ, and
totals are therefore compared by value.

# Hours

The amount of a line is the value of `OvertimeRule.price`, which rises
with the hours up to the cap and stays where it is from there on. From
the one follows that more hours are not paid less (`amountFor_mono`),
from the other that hours above the cap are paid like the cap
(`exists_compute_capped`).
-/
import Payroll.Proofs.Overtime.Itemized
import Payroll.Rules.Senegal

namespace Payroll

open Decimal

namespace Overtime

variable {rules rules' : List OvertimeRule} {rate worked worked' : Decimal}
  {c : Category} {hours hours' : ByCategory Decimal} {o o' : Overtime}
  {sheet : Sheet}

-- ============================================================== additivity

/-- A total is the sum over all places. -/
theorem sum_lines_agree {f : OvertimeLine → Decimal}
    {g : Category → Decimal} (h : ∀ c, figure f (sheet c) ≈ g c) :
    Agree (Decimal.sum (sheet.lines.map f))
      (Decimal.sum (Category.all.map g)) := by
  rw [Sheet.lines, List.map_map, List.map_filterMap]
  exact sum_filterMap_agree fun c _ => h c

/-- It is the sum over the categories that are named, too. -/
theorem sum_entries_agree {g : Category → Decimal}
    (h : ∀ c, hours.get? c = none → g c = .zero) :
    Agree (Decimal.sum (hours.entries.map fun e => g e.1))
      (Decimal.sum (Category.all.map g)) := by
  rw [ByCategory.entries, List.map_filterMap]
  refine sum_filterMap_agree fun c _ => ?_
  cases hc : hours.get? c with
  | some worked => exact equiv_refl _
  | none =>
      rw [h c hc]
      exact equiv_refl _

theorem sum_toList (x : Option Decimal) :
    Decimal.sum x.toList = .ok (x.getD .zero) := by
  cases x <;> rfl

theorem hoursIn_singleton (c' : Category) :
    hoursIn (.ofList [(c, worked)]) c' = if c' = c then worked else .zero := by
  cases c <;> cases c' <;> rfl

theorem filterMap_single (c : Category) {α : Type} (x : Option α) :
    (Category.all.filterMap fun c' => if c' = c then x else none)
      = x.toList := by
  cases c <;> cases x <;> rfl

/-- By itself, a category comes to what is in its place. -/
theorem exists_compute_alone (hrate : 0 ≤ rate.toRat)
    {x : Option (OvertimeLine × Option Warning)}
    (h : line rate rules c worked = .ok x) :
    ∃ o, compute (.ofList [(c, worked)]) rate rules = .ok o
      ∧ o.lines = (x.map (·.1)).toList
      ∧ o.total = figure (·.amount) x := by
  have hlines : (Category.all.filterMap fun c' =>
      if c' = c then x else none).map (·.1) = (x.map (·.1)).toList := by
    rw [filterMap_single, Option.toList_map]
  refine ⟨⟨_, _, _⟩, compute_eq_ok_iff.2 ⟨hrate,
    fun c' => if c' = c then x else none, fun c' => ?_, hlines, rfl, ?_⟩,
    rfl, rfl⟩
  · rw [hoursIn_singleton]
    by_cases heq : c' = c
    · simp only [if_pos heq]
      exact heq ▸ h
    · simp only [if_neg heq]
      exact line_zero
  · show Decimal.sum ((x.map (·.1)).toList.map _) = _
    rw [← Option.toList_map, sum_toList, Option.map_map]
    rfl

/-- Overtime whose lines are rounded, under the total of the rounded
lines. -/
structure RoundsTo (r : Rounding) (o o' : Overtime) : Prop where
  lines : o'.lines
    = o.lines.map fun l => { l with amount := r.round l.amount }
  warnings : o'.warnings = o.warnings
  total : Decimal.sum (o'.lines.map (·.amount)) = .ok o'.total

theorem rounded_eq_ok_iff {r : Rounding} :
    o.rounded r = .ok o' ↔ RoundsTo r o o' := by
  unfold rounded
  simp only [bind_eq_ok, pure, Except.pure, Except.ok.injEq]
  constructor
  · rintro ⟨total, htotal, rfl⟩
    exact ⟨rfl, rfl, htotal⟩
  · rintro ⟨hlines, hwarnings, htotal⟩
    rw [hlines] at htotal
    refine ⟨_, htotal, ?_⟩
    rw [← hlines, ← hwarnings]

/-- Results by single categories whose totals add up to that of a result
for all of them. -/
def AddsUp (hours : ByCategory Decimal) (alone : Category → Overtime)
    (o : Overtime) : Prop :=
  ∃ total, Decimal.sum (hours.entries.map fun e => (alone e.1).total)
    = .ok total ∧ total ≈ o.total

theorem addsUp_of_sheet {alone : Category → Overtime}
    {f : OvertimeLine → Decimal}
    (habsent : ∀ c, hours.get? c = none → sheet c = none)
    (halone : ∀ c, (alone c).total = figure f (sheet c))
    (h : Decimal.sum (sheet.lines.map f) = .ok o.total) :
    AddsUp hours alone o := by
  have hzero : ∀ c, hours.get? c = none → figure f (sheet c) = .zero := by
    intro c hc
    rw [habsent c hc]
    rfl
  obtain ⟨middle, hmiddle, hvalue⟩ :=
    (sum_lines_agree fun c => equiv_refl (figure f (sheet c))).exists_ok h
  obtain ⟨total, htotal, hvalue'⟩ :=
    (sum_entries_agree hzero).symm.exists_ok hmiddle
  simp only [AddsUp, halone]
  exact ⟨total, htotal, equiv_iff_toRat.2 (hvalue'.trans hvalue)⟩

/-- Overtime that can be calculated for each category by itself, to
totals that add up to its own, before they are rounded and after. -/
def Separable (rules : List OvertimeRule) (rate : Decimal)
    (hours : ByCategory Decimal) (o : Overtime) : Prop :=
  ∃ alone : Category → Overtime,
    (∀ e ∈ hours.entries, compute (.ofList [e]) rate rules = .ok (alone e.1))
    ∧ AddsUp hours alone o
    ∧ ∀ r o', o.rounded r = .ok o' → ∃ alone' : Category → Overtime,
      (∀ e ∈ hours.entries, (alone e.1).rounded r = .ok (alone' e.1))
      ∧ AddsUp hours alone' o'

theorem separable (h : compute hours rate rules = .ok o) :
    Separable rules rate hours o := by
  obtain ⟨hrate, sheet, hsheet, hlines, -, htotal⟩ := compute_eq_ok_iff.1 h
  choose alone hcompute halone htotals using fun c =>
    exists_compute_alone hrate (hsheet c)
  have habsent : ∀ c, hours.get? c = none → sheet c = none := by
    intro c hc
    have hline := hsheet c
    rw [hoursIn, hc, Option.getD_none, line_zero] at hline
    exact (Except.ok.inj hline).symm
  refine ⟨alone, ?_, ?_, fun r o' hr => ?_⟩
  · rintro ⟨c, worked⟩ he
    have hworked := ByCategory.mem_entries.1 he
    have := hcompute c
    rwa [hoursIn, hworked, Option.getD_some] at this
  · rw [← hlines] at htotal
    exact addsUp_of_sheet habsent htotals htotal
  · obtain ⟨-, hamounts, hsum⟩ := rounded_eq_ok hr
    rw [hamounts, ← hlines] at hsum
    have hsingle : ∀ c, ∃ o', (alone c).rounded r = .ok o'
        ∧ o'.total = figure (fun l => r.round l.amount) (sheet c) := by
      intro c
      refine exists_rounded ?_
      rw [halone c, ← Option.toList_map, sum_toList, Option.map_map]
      rfl
    choose alone' hrounded htotals' using hsingle
    exact ⟨alone', fun e _ => hrounded e.1,
      addsUp_of_sheet habsent htotals' hsum⟩

-- ======================================================== two calculations

/-- The amount of a category, and zero where it has no line. -/
def amountFor (o : Overtime) (c : Category) : Decimal :=
  (o.amountByCategory.get? c).getD .zero

/-- A line stands in the place of its category. -/
theorem Sheet.Filled.mem_lines (hsheet : sheet.Filled rules rate hours)
    {l : OvertimeLine} :
    l ∈ sheet.lines ↔ ∃ w, sheet l.category = some (l, w) := by
  simp only [Sheet.lines, List.mem_map, List.mem_filterMap, Prod.exists,
    exists_and_right, exists_eq_right]
  constructor
  · rintro ⟨w, c, -, hc⟩
    have hline := hsheet c
    rw [hc] at hline
    rw [← category_of_place hline] at hc
    exact ⟨w, hc⟩
  · rintro ⟨w, hw⟩
    exact ⟨w, l.category, l.category.mem_all, hw⟩

/-- A line is that of the rule of its category. -/
theorem exists_rule_of_mem {l : OvertimeLine}
    (hrules : OvertimeRule.Table rules)
    (h : compute hours rate rules = .ok o) (hl : l ∈ o.lines) :
    ∃ rule ∈ rules, 0 < (hoursIn hours rule.category).toRat
      ∧ rule.lineFor rate (hoursIn hours rule.category) = .ok l := by
  obtain ⟨-, sheet, hsheet, hlines, -⟩ := compute_eq_ok_iff.1 h
  rw [← hlines, hsheet.mem_lines] at hl
  obtain ⟨w, hw⟩ := hl
  rcases line_eq_ok.1 (hsheet l.category) with ⟨-, hnone⟩
    | ⟨hpos, rule, l', w', hfind, hl', -, hsome⟩
  · rw [hw] at hnone
    cases hnone
  · rw [hw] at hsome
    cases hsome
    obtain ⟨hmem, hcategory⟩ := (OvertimeRule.find?_eq_some hrules).1 hfind
    rw [← hcategory] at hpos hl'
    exact ⟨rule, hmem, hpos, hl'⟩

/-- Hours have a line. -/
theorem exists_mem_of_pos (h : compute hours rate rules = .ok o)
    (hpos : 0 < (hoursIn hours c).toRat) : ∃ l ∈ o.lines, l.category = c := by
  obtain ⟨-, sheet, hsheet, hlines, -⟩ := compute_eq_ok_iff.1 h
  rcases line_eq_ok.1 (hsheet c) with ⟨hzero, -⟩
    | ⟨-, rule, l, w, -, -, -, hsome⟩
  · exact absurd hzero hpos.ne'
  · have hplace := hsheet c
    rw [← hsome] at hplace
    have hcategory : l.category = c := category_of_place hplace
    rw [← hlines]
    exact ⟨l, hsheet.mem_lines.2 ⟨w, hcategory ▸ hsome.symm⟩, hcategory⟩

theorem amountFor_eq (hrules : ∀ rule ∈ rules, rule.Proper)
    (h : compute hours rate rules = .ok o)
    (hsheet : sheet.Filled rules rate hours) (hlines : sheet.lines = o.lines) :
    o.amountFor c = figure (·.amount) (sheet c) := by
  have hget : o.amountByCategory.get? c
      = (sheet c).map fun e => e.1.amount := by
    refine Option.ext fun a => ?_
    rw [← ByCategory.mem_entries,
      entries_amountByCategory (categories_sublist hrules h), ← hlines,
      List.mem_map, Option.map_eq_some_iff]
    simp only [hsheet.mem_lines, Prod.mk.injEq]
    constructor
    · rintro ⟨l, ⟨w, hw⟩, rfl, rfl⟩
      exact ⟨(l, w), hw, rfl⟩
    · rintro ⟨⟨l, w⟩, hw, rfl⟩
      have hline := hsheet c
      rw [hw] at hline
      have hcategory := category_of_place hline
      exact ⟨l, ⟨w, hcategory ▸ hw⟩, hcategory, rfl⟩
  rw [amountFor, hget, figure]

theorem toRat_amountFor (hrules : OvertimeRule.Table rules)
    (h : compute hours rate rules = .ok o) (c : Category) :
    (o.amountFor c).toRat
      = worth rules rate.toRat c (hoursIn hours c).toRat := by
  obtain ⟨-, sheet, hsheet, hlines, -, -⟩ := compute_eq_ok_iff.1 h
  rw [amountFor_eq hrules.proper h hsheet hlines,
    toRat_figure_amount hrules.proper (hsheet c)]

/-- A place sees the rule of its category alone. -/
theorem line_congr (h : OvertimeRule.find? rules c
      = OvertimeRule.find? rules' c) :
    line rate rules c worked = line rate rules' c worked := by
  unfold line
  rw [h]

/-- Where two calculations have the same hours and the same rule for a
category, they have the same line for it. -/
theorem mem_lines_iff (hrules : OvertimeRule.Table rules)
    (hrules' : OvertimeRule.Table rules')
    (h : compute hours rate rules = .ok o)
    (h' : compute hours' rate rules' = .ok o')
    (hhours : hoursIn hours c = hoursIn hours' c)
    (hrule : ∀ rule : OvertimeRule, rule.category = c →
      (rule ∈ rules ↔ rule ∈ rules'))
    {l : OvertimeLine} (hl : l.category = c) :
    l ∈ o.lines ↔ l ∈ o'.lines := by
  obtain ⟨-, sheet, hsheet, hlines, -, -⟩ := compute_eq_ok_iff.1 h
  obtain ⟨-, sheet', hsheet', hlines', -, -⟩ := compute_eq_ok_iff.1 h'
  have hfind : OvertimeRule.find? rules c = OvertimeRule.find? rules' c := by
    refine Option.ext fun rule => ?_
    rw [OvertimeRule.find?_eq_some hrules,
      OvertimeRule.find?_eq_some hrules']
    exact and_congr_left fun hcategory => hrule rule hcategory
  have hsame : sheet c = sheet' c := by
    have hline := hsheet c
    rw [line_congr hfind, hhours, hsheet' c] at hline
    exact (Except.ok.inj hline).symm
  rw [← hlines, ← hlines', hsheet.mem_lines, hsheet'.mem_lines, hl, hsame]

/-- More hours of a category do not lower its amount. -/
theorem amountFor_mono (hrules : OvertimeRule.Table rules)
    (h : compute hours rate rules = .ok o)
    (h' : compute hours' rate rules = .ok o')
    (hle : hoursIn hours c ≤ hoursIn hours' c) :
    o.amountFor c ≤ o'.amountFor c := by
  have hrate := (compute_eq_ok_iff.1 h).1
  rw [le_iff_toRat] at hle ⊢
  rw [toRat_amountFor hrules h, toRat_amountFor hrules h']
  exact worth_mono hrules.proper hrate hle

-- ===================================================== hours above a cap

/-- A category whose hours reach the cap of its rule. -/
def Capped (rules : List OvertimeRule) (c : Category) (hours : Decimal) :
    Prop :=
  ∃ rule ∈ rules, rule.category = c ∧ ∃ cap, rule.cap = some cap
    ∧ cap ≤ hours

/-- Hours that reach the cap are paid like the cap, whatever they are. -/
theorem paid_of_capped (hrules : OvertimeRule.Table rules)
    (h : Capped rules c worked)
    (h' : Capped rules c worked') {rule : OvertimeRule}
    (hmem : rule ∈ rules) (hcategory : rule.category = c) :
    rule.paid worked.toRat = rule.paid worked'.toRat := by
  obtain ⟨rule₁, hmem₁, hcategory₁, cap, hcap, hle⟩ := h
  obtain ⟨rule₂, hmem₂, hcategory₂, cap', hcap', hle'⟩ := h'
  cases hrules.eq_of_category hmem hmem₁ (hcategory.trans hcategory₁.symm)
  cases hrules.eq_of_category hmem hmem₂ (hcategory.trans hcategory₂.symm)
  cases hcap.symm.trans hcap'
  rw [OvertimeRule.paid_of_cap_le hcap (le_iff_toRat.1 hle),
    OvertimeRule.paid_of_cap_le hcap (le_iff_toRat.1 hle')]

theorem exists_line_capped (hrules : OvertimeRule.Table rules)
    (h : Capped rules c worked)
    (h' : Capped rules c worked')
    (hline : ∃ x, line rate rules c worked = .ok x) :
    ∃ x, line rate rules c worked' = .ok x := by
  rw [exists_line_iff hrules] at hline ⊢
  obtain ⟨rule, hmem, hcategory, cap, hcap, hle⟩ := id h'
  have hproper := hrules.proper rule hmem
  refine ⟨(hproper.cap_nonneg cap hcap).trans (le_iff_toRat.1 hle),
    fun _ => ⟨rule, hmem, hcategory, ?_⟩⟩
  have haffords : rule.Affords rate.toRat worked.toRat := by
    rcases hline.1.eq_or_lt with hzero | hpos
    · rw [← hzero]
      exact hproper.affords_zero
    · obtain ⟨rule', hmem', hcategory', haffords⟩ := hline.2 hpos
      cases hrules.eq_of_category hmem hmem' (hcategory.trans hcategory'.symm)
      exact haffords
  rw [OvertimeRule.Affords, paid_of_capped hrules h h' hmem hcategory]
    at haffords
  exact haffords

theorem worth_of_capped (hrules : OvertimeRule.Table rules)
    (h : Capped rules c worked)
    (h' : Capped rules c worked') {rate : ℚ} :
    worth rules rate c worked.toRat = worth rules rate c worked'.toRat := by
  unfold worth
  split
  · rename_i rule hfind
    obtain ⟨hmem, hcategory⟩ := (OvertimeRule.find?_eq_some hrules).1 hfind
    rw [OvertimeRule.price, paid_of_capped hrules h h' hmem hcategory]
    rfl
  · rfl

/-- Hours of a category that are the same in two calculations, or reach
the cap in both. -/
def PaidAlike (rules : List OvertimeRule) (hours hours' : ByCategory Decimal)
    (c : Category) : Prop :=
  hoursIn hours c ≈ hoursIn hours' c
    ∨ Capped rules c (hoursIn hours c)
      ∧ Capped rules c (hoursIn hours' c)

theorem PaidAlike.worth_eq (h : PaidAlike rules hours hours' c)
    (hrules : OvertimeRule.Table rules) (rate : ℚ) :
    worth rules rate c (hoursIn hours c).toRat
      = worth rules rate c (hoursIn hours' c).toRat := by
  rcases h with hsame | ⟨hcapped, hcapped'⟩
  · rw [equiv_iff_toRat.1 hsame]
  · exact worth_of_capped hrules hcapped hcapped'

theorem PaidAlike.exists_line (h : PaidAlike rules hours hours' c)
    (hrules : OvertimeRule.Table rules)
    (hline : ∃ x, line rate rules c (hoursIn hours c) = .ok x) :
    ∃ x, line rate rules c (hoursIn hours' c) = .ok x := by
  rcases h with hsame | ⟨hcapped, hcapped'⟩
  · rwa [exists_line_iff hrules, ← equiv_iff_toRat.1 hsame,
      ← exists_line_iff hrules]
  · exact exists_line_capped hrules hcapped hcapped' hline

/-- Lines that are worth the same add up to the same. -/
theorem exists_sum_of_worth (hrules : ∀ rule ∈ rules, rule.Proper)
    (hsheet : sheet.Filled rules rate hours) {sheet' : Sheet}
    (hsheet' : sheet'.Filled rules rate hours')
    (hworth : ∀ c, worth rules rate.toRat c (hoursIn hours c).toRat
      = worth rules rate.toRat c (hoursIn hours' c).toRat)
    {total : Decimal}
    (h : Decimal.sum (sheet.lines.map (·.amount)) = .ok total) :
    ∃ total', Decimal.sum (sheet'.lines.map (·.amount)) = .ok total'
      ∧ total'.toRat = total.toRat := by
  have hfigures : ∀ c, figure (·.amount) (sheet' c)
      ≈ figure (·.amount) (sheet c) := by
    intro c
    rw [equiv_iff_toRat, toRat_figure_amount hrules (hsheet c),
      toRat_figure_amount hrules (hsheet' c), hworth c]
  obtain ⟨middle, hmiddle, hvalue⟩ :=
    (sum_lines_agree fun c => equiv_refl _).exists_ok h
  obtain ⟨total', htotal', hvalue'⟩ :=
    (sum_lines_agree hfigures).symm.exists_ok hmiddle
  exact ⟨total', htotal', hvalue'.trans hvalue⟩

/-- Hours above the caps can be raised, and nothing is paid for them. -/
theorem exists_compute_capped (hrules : OvertimeRule.Table rules)
    (h : compute hours rate rules = .ok o)
    (halike : ∀ c, PaidAlike rules hours hours' c) :
    ∃ o', compute hours' rate rules = .ok o'
      ∧ (∀ c, o'.amountFor c ≈ o.amountFor c) ∧ o'.total ≈ o.total := by
  have hworth := fun c => (halike c).worth_eq hrules rate.toRat
  obtain ⟨hrate, sheet, hsheet, hlines, -, htotal⟩ := compute_eq_ok_iff.1 h
  rw [← hlines] at htotal
  have hsum := fun (sheet' : Sheet)
    (hsheet' : sheet'.Filled rules rate hours') =>
    exists_sum_of_worth hrules.proper hsheet hsheet' hworth htotal
  obtain ⟨o', ho'⟩ := exists_compute_of_places hrate
    (fun c => (halike c).exists_line hrules ⟨_, hsheet c⟩)
    fun sheet' hsheet' => (hsum sheet' hsheet').imp fun _ => And.left
  obtain ⟨-, sheet', hsheet', hlines', -, htotal'⟩ := compute_eq_ok_iff.1 ho'
  obtain ⟨total, hsum', hvalue⟩ := hsum sheet' hsheet'
  rw [hlines', htotal'] at hsum'
  cases hsum'
  refine ⟨o', ho', fun c => ?_, equiv_iff_toRat.2 hvalue⟩
  rw [equiv_iff_toRat, toRat_amountFor hrules h, toRat_amountFor hrules ho',
    hworth c]

-- ================================================================= result

/-- Under a table of rules overtime is computed unless hours are
negative, have no rule, or something overflows. Each category with hours
then has one line, and a warning if not all of them are paid; the total
is that of the lines and of the categories by themselves, rounded or
not. A line hangs on the hours and the rule of its category alone, more
hours do not lower its amount, and hours above the cap do not change
it. -/
theorem compute_additive {rules : List OvertimeRule} {rate : Decimal}
    (hrules : OvertimeRule.checkAll rules = .ok ()) (hrate : .zero ≤ rate) :
    (∀ hours, (∃ o, compute hours rate rules = .ok o)
      ↔ (∀ c, ¬hoursIn hours c < .zero)
        ∧ (∀ c ∈ withHours hours, ∃ rule ∈ rules, rule.category = c)
        ∧ Fits rules rate hours)
    ∧ (∀ hours o, compute hours rate rules = .ok o →
      Itemized rules rate hours o ∧ Separable rules rate hours o
        ∧ ∀ r o', o.rounded r = .ok o' ↔ RoundsTo r o o')
    ∧ (∀ rules' hours hours' o o' c,
      OvertimeRule.checkAll rules' = .ok () →
      compute hours rate rules = .ok o →
      compute hours' rate rules' = .ok o' →
      hoursIn hours c = hoursIn hours' c →
      (∀ rule : OvertimeRule, rule.category = c →
        (rule ∈ rules ↔ rule ∈ rules')) →
      ∀ l : OvertimeLine, l.category = c → (l ∈ o.lines ↔ l ∈ o'.lines))
    ∧ (∀ hours hours' o o' c, compute hours rate rules = .ok o →
      compute hours' rate rules = .ok o' →
      hoursIn hours c ≤ hoursIn hours' c → o.amountFor c ≤ o'.amountFor c)
    ∧ ∀ hours hours' o, compute hours rate rules = .ok o →
      (∀ c, PaidAlike rules hours hours' c) →
      ∃ o', compute hours' rate rules = .ok o'
        ∧ (∀ c, o'.amountFor c ≈ o.amountFor c) ∧ o'.total ≈ o.total := by
  rw [OvertimeRule.checkAll_eq_ok] at hrules
  rw [le_iff_toRat, toRat_zero] at hrate
  refine ⟨fun hours => exists_compute_iff hrules hrate,
    fun hours o h => ⟨itemized_of_compute hrules h, separable h,
      fun r o' => rounded_eq_ok_iff⟩, ?_,
    fun hours hours' o o' c h h' => amountFor_mono hrules h h',
    fun hours hours' o h => exists_compute_capped hrules h⟩
  intro rules' hours hours' o o' c hrules' h h' hhours hrule l
  rw [OvertimeRule.checkAll_eq_ok] at hrules'
  exact mem_lines_iff hrules hrules' h h' hhours hrule

/-- Eight hours above the cap of a category, and none at weekends. -/
def busyMonth : ByCategory Decimal :=
  { regular := some 40, night := some 4.5, weekend := some 0.0 }

/-- Eighteen hours above it, and weekends not named. -/
def busierMonth : ByCategory Decimal :=
  { regular := some 50, night := some 4.5 }

/-- The longer hours are paid like the shorter ones, and neither loses
any in silence; hours below zero are refused. -/
theorem compute_additive_busy :
    (∃ o o', compute busyMonth 2000 Senegal.overtime = .ok o
      ∧ compute busierMonth 2000 Senegal.overtime = .ok o'
      ∧ Itemized Senegal.overtime 2000 busyMonth o
      ∧ Separable Senegal.overtime 2000 busyMonth o
      ∧ o.amountFor .regular ≤ o'.amountFor .regular
      ∧ o'.total ≈ o.total
      ∧ ∀ l : OvertimeLine, l.category = .night →
        (l ∈ o.lines ↔ l ∈ o'.lines))
    ∧ ¬∃ o, compute { night := some (-1) } 2000 Senegal.overtime = .ok o := by
  have hrules : OvertimeRule.checkAll Senegal.overtime = .ok () := by
    decide +kernel
  have hrate : Decimal.zero ≤ 2000 := by decide
  obtain ⟨hcompute, hresult, hlocal, hmono, hcapped⟩ :=
    compute_additive hrules hrate
  obtain ⟨o, ho, -⟩ := exists_ok_of_any
    (x := compute busyMonth 2000 Senegal.overtime) (q := fun _ => true)
    (by decide +kernel)
  have halike : ∀ c, PaidAlike Senegal.overtime busyMonth busierMonth c := by
    intro c
    cases c with
    | regular =>
        have hmem : (⟨.regular, .of 115 2, some (.of 32 0)⟩ : OvertimeRule)
            ∈ Senegal.overtime := List.mem_cons_self
        exact .inr ⟨⟨_, hmem, rfl, _, rfl, by decide⟩,
          ⟨_, hmem, rfl, _, rfl, by decide⟩⟩
    | night => exact .inl (equiv_refl _)
    | weekend => exact .inl (by decide)
    | holiday => exact .inl (equiv_refl _)
  obtain ⟨o', ho', -, htotal⟩ := hcapped _ _ o ho halike
  exact ⟨⟨o, o', ho, ho', (hresult _ o ho).1, (hresult _ o ho).2.1,
    hmono _ _ o o' .regular ho ho' (by decide), htotal,
    hlocal _ _ _ o o' .night hrules ho ho' rfl fun _ _ => Iff.rfl⟩,
    fun h => (hcompute _).1 h |>.1 .night (by decide)⟩

end Overtime

end Payroll
