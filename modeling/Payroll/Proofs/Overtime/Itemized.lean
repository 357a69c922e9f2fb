/-
Overtime with nothing left out. Each category with hours has a line of
its own, by its rule and in reporting order, and each line that pays
less than what was asked for has a warning of its own (`Itemized`). So
an hour that is worked is either paid or warned about.

Overtime can fail in three ways only, and which one it is can be said
before anything is computed (`exists_compute_iff`).
-/
import Payroll.Proofs.Overtime.Sheet

namespace Payroll

open Decimal

-- ================================================================== lists

/-- What some elements of a list come to, in their order, where the
others come to nothing. -/
theorem forall₂_filter_filterMap {α β : Type} {R : α → β → Prop}
    {p : α → Bool} {f : α → Option β} {l : List α}
    (h : ∀ a ∈ l, if p a then ∃ b, R a b ∧ some b = f a else f a = none) :
    List.Forall₂ R (l.filter p) (l.filterMap f) := by
  induction l with
  | nil => exact .nil
  | cons a l ih =>
      obtain ⟨ha, hl⟩ := List.forall_mem_cons.1 h
      by_cases hp : p a
      · rw [if_pos hp] at ha
        obtain ⟨b, hb, hf⟩ := ha
        rw [List.filter_cons_of_pos hp, List.filterMap_cons_some hf.symm]
        exact .cons hb (ih hl)
      · rw [if_neg hp] at ha
        rw [List.filter_cons_of_neg hp, List.filterMap_cons_none ha]
        exact ih hl

namespace Overtime

variable {rules : List OvertimeRule} {rate : Decimal} {c : Category}
  {hours : ByCategory Decimal} {o : Overtime} {sheet : Sheet}

-- ============================================================== itemized

/-- The warning about the hours of a line that are not paid. -/
def Cut (l : OvertimeLine) (w : Warning) : Prop :=
  ∃ excess, l.requestedHours.sub l.paidHours = .ok excess
    ∧ clamped l.category l.paidHours excess = w

/-- A line for each category with hours, in reporting order, by the rule
of the category. -/
def LinesOf (rules : List OvertimeRule) (rate : Decimal)
    (hours : ByCategory Decimal) (lines : List OvertimeLine) : Prop :=
  List.Forall₂ (fun c l => ∃ rule ∈ rules, rule.category = c
    ∧ rule.lineFor rate (hoursIn hours c) = .ok l) (withHours hours) lines

/-- Overtime in which every hour is accounted for: it stands in a line,
and where the line does not pay it, in the warning about that line. -/
structure Itemized (rules : List OvertimeRule) (rate : Decimal)
    (hours : ByCategory Decimal) (o : Overtime) : Prop where
  lines : LinesOf rules rate hours o.lines
  warnings : List.Forall₂ Cut
    (o.lines.filter fun l => decide (l.paidHours < l.requestedHours))
    o.warnings
  total : Decimal.sum (o.lines.map (·.amount)) = .ok o.total

/-- Nothing overflows: each category with hours has an amount under its
rule, and the amounts have a sum. -/
structure Fits (rules : List OvertimeRule) (rate : Decimal)
    (hours : ByCategory Decimal) : Prop where
  lines : ∀ c ∈ withHours hours, ∀ rule ∈ rules, rule.category = c →
    ∃ l, rule.lineFor rate (hoursIn hours c) = .ok l
  total : ∀ lines, LinesOf rules rate hours lines →
    ∃ total, Decimal.sum (lines.map (·.amount)) = .ok total

theorem mem_withHours : c ∈ withHours hours ↔ 0 < (hoursIn hours c).toRat := by
  rw [withHours, List.mem_filter, decide_eq_true_eq, lt_iff_toRat,
    toRat_zero]
  exact and_iff_right c.mem_all

/-- There is one way to fill the lines. -/
theorem LinesOf.unique (hrules : OvertimeRule.Table rules)
    {lines lines' : List OvertimeLine} (h : LinesOf rules rate hours lines)
    (h' : LinesOf rules rate hours lines') : lines = lines' := by
  refine List.right_unique_forall₂' ?_ h h'
  rintro c l l' ⟨rule, hmem, hcategory, hl⟩ ⟨rule', hmem', hcategory', hl'⟩
  cases hrules.eq_of_category hmem hmem' (hcategory.trans hcategory'.symm)
  exact Except.ok.inj (hl.symm.trans hl')

theorem Sheet.Filled.linesOf (hsheet : sheet.Filled rules rate hours)
    (hrules : OvertimeRule.Table rules) :
    LinesOf rules rate hours sheet.lines := by
  rw [Sheet.lines, List.map_filterMap]
  refine forall₂_filter_filterMap fun c _ => ?_
  simp only [decide_eq_true_eq, lt_iff_toRat, toRat_zero]
  rcases line_eq_ok.1 (hsheet c) with ⟨hzero, hnone⟩
    | ⟨hpos, rule, l, w, hfind, hl, -, hsome⟩
  · rw [if_neg hzero.not_gt, hnone]
    rfl
  · rw [if_pos hpos, ← hsome]
    obtain ⟨hmem, hcategory⟩ := (OvertimeRule.find?_eq_some hrules).1 hfind
    exact ⟨l, ⟨rule, hmem, hcategory, hl⟩, rfl⟩

theorem Sheet.Filled.cuts (hsheet : sheet.Filled rules rate hours) :
    List.Forall₂ Cut
      (sheet.lines.filter fun l => decide (l.paidHours < l.requestedHours))
      sheet.warnings := by
  rw [Sheet.lines, List.filter_map, List.forall₂_map_left_iff]
  refine forall₂_filter_filterMap fun e he => ?_
  obtain ⟨c, -, hc⟩ := List.mem_filterMap.1 he
  rcases line_eq_ok.1 (hsheet c) with ⟨-, hnone⟩
    | ⟨-, rule, l, w, -, -, hw, hsome⟩
  · rw [hc] at hnone
    cases hnone
  · rw [hc] at hsome
    cases hsome
    simp only [Function.comp_apply, decide_eq_true_eq]
    unfold Warns at hw
    split at hw
    · rename_i hcut
      obtain ⟨excess, hexcess, hw⟩ := hw
      rw [if_pos hcut]
      exact ⟨_, ⟨excess, hexcess, rfl⟩, hw⟩
    · rename_i hcut
      rw [if_neg hcut]
      exact hw

theorem itemized_of_compute (hrules : OvertimeRule.Table rules)
    (h : compute hours rate rules = .ok o) : Itemized rules rate hours o := by
  obtain ⟨-, sheet, hsheet, hlines, hwarnings, htotal⟩ :=
    compute_eq_ok_iff.1 h
  refine ⟨?_, ?_, htotal⟩
  · rw [← hlines]
    exact hsheet.linesOf hrules
  · rw [← hlines, ← hwarnings]
    exact hsheet.cuts

/-- Places that can be filled make overtime, if the lines have a sum. -/
theorem exists_compute_of_places (hrate : 0 ≤ rate.toRat)
    (hplaces : ∀ c, ∃ x, line rate rules c (hoursIn hours c) = .ok x)
    (htotal : ∀ sheet : Sheet, sheet.Filled rules rate hours →
      ∃ total, Decimal.sum (sheet.lines.map (·.amount)) = .ok total) :
    ∃ o, compute hours rate rules = .ok o := by
  choose sheet hsheet using hplaces
  obtain ⟨total, htotal⟩ := htotal sheet hsheet
  exact ⟨⟨_, total, _⟩, compute_eq_ok_iff.2
    ⟨hrate, sheet, hsheet, rfl, rfl, htotal⟩⟩

/-- Overtime is computed unless hours are negative, have no rule, or
something overflows. -/
theorem exists_compute_iff (hrules : OvertimeRule.Table rules)
    (hrate : 0 ≤ rate.toRat) :
    (∃ o, compute hours rate rules = .ok o)
      ↔ (∀ c, ¬hoursIn hours c < .zero)
        ∧ (∀ c ∈ withHours hours, ∃ rule ∈ rules, rule.category = c)
        ∧ Fits rules rate hours := by
  simp only [lt_iff_toRat, toRat_zero, not_lt]
  constructor
  · rintro ⟨o, ho⟩
    obtain ⟨-, sheet, hsheet, -, -, -⟩ := compute_eq_ok_iff.1 ho
    have hitemized := itemized_of_compute hrules ho
    have hplaces := fun c => (exists_line_iff hrules).1 ⟨_, hsheet c⟩
    refine ⟨fun c => (hplaces c).1, fun c hc => ?_,
      fun c hc rule hmem hrule => ?_, fun lines hlines => ?_⟩
    · obtain ⟨rule, hmem, hcategory, -⟩ :=
        (hplaces c).2 (mem_withHours.1 hc)
      exact ⟨rule, hmem, hcategory⟩
    · obtain ⟨rule', hmem', hcategory', haffords⟩ :=
        (hplaces c).2 (mem_withHours.1 hc)
      cases hrules.eq_of_category hmem hmem' (hrule.trans hcategory'.symm)
      exact OvertimeRule.exists_lineFor.2 haffords
    · rw [hlines.unique hrules hitemized.lines]
      exact ⟨_, hitemized.total⟩
  · rintro ⟨hnonneg, hruled, hfits⟩
    refine exists_compute_of_places hrate (fun c => ?_) fun sheet hsheet =>
      hfits.total _ (hsheet.linesOf hrules)
    refine (exists_line_iff hrules).2 ⟨hnonneg c, fun hpos => ?_⟩
    have hc := mem_withHours.2 hpos
    obtain ⟨rule, hmem, hcategory⟩ := hruled c hc
    exact ⟨rule, hmem, hcategory, OvertimeRule.exists_lineFor.1
      (hfits.lines c hc rule hmem hcategory)⟩

end Overtime

end Payroll
