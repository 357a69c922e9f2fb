/-
The trace of a payslip, read back. A rule id is either one of eight
plain names or the stem of a family, such as `allowance:`, before the
name of one of its entries. No stem starts like another and no plain
name starts with a stem, so a family is the part of the trace that its
stem picks out, and it is the list that was traced, in its order
(`filter_block`).

That ids do not repeat follows class by class. Two details of one id
fall under the same stem or are both plain; within a family names are
distinct, because allowances and deductions are kept under names,
overtime under categories and schemes are checked to differ; and the
plain names are written once each (`nodup_ids`). So a look-up by id
finds the one detail there is.

The sums are those of the calculation, over the same amounts in the same
order, so the trace replays the gross, the deductions and the net to the
last digit and the last zero. A detail that is left out stands for an
amount of zero.
-/
import Payroll.Proofs.Payslip.Statutory

namespace Payroll

open Decimal (Fault)

-- ================================================================ rule ids

theorem Category.name_injective : Function.Injective name := by
  intro c c' h
  have := congrArg ofName? h
  rw [ofName?_name, ofName?_name] at this
  exact Option.some.inj this

/-- The families of details that have one member for each name. -/
inductive Family where
  | allowance
  | overtime
  | contribution
  | deduction
deriving DecidableEq

namespace Family

/-- What the rule ids of a family start with. -/
def stem : Family → String
  | allowance => "allowance:"
  | overtime => "overtime:"
  | contribution => "contribution:"
  | deduction => "deduction:"

/-- The rule id of a member. -/
def ruleId (f : Family) (name : String) : String := f.stem ++ name

/-- Whether a rule id is one of the family. -/
def holds (f : Family) (id : String) : Bool :=
  f.stem.toList.isPrefixOf id.toList

@[simp] theorem holds_ruleId (f g : Family) (name : String) :
    f.holds (g.ruleId name) = decide (f = g) := by
  cases f <;> cases g <;> simp [holds, ruleId, stem, List.isPrefixOf]

theorem ruleId_injective (f : Family) : Function.Injective f.ruleId := by
  intro name name' h
  have hlist := congrArg String.toList h
  simp only [ruleId, String.toList_append] at hlist
  exact String.toList_injective (List.append_cancel_left hlist)

end Family

/-- The rule ids of the details that belong to no family. -/
def plainRules : List String :=
  ["base_salary", "gross_salary", "taxable_income", "income_tax",
    "delay_penalty", "absence_deduction", "total_deductions", "net_salary"]

theorem not_holds_of_plain : ∀ id ∈ plainRules, ∀ f : Family,
    f.holds id = false := by
  intro id hid f
  revert id
  cases f <;> decide

theorem ruleId_not_plain (f : Family) (name : String) :
    f.ruleId name ∉ plainRules := by
  intro h
  have := not_holds_of_plain _ h f
  simp at this

-- ================================================================ figures

namespace Figures

variable (f : Figures)

/-- The amounts of a trace under their rules. -/
def entries : List (String × Decimal) :=
  f.terms.map fun t => (t.ruleId, t.amount)

/-- The members of a family, in the order of the trace. -/
def members : Family → List (String × Decimal)
  | .allowance => f.request.allowances.entries
  | .overtime => f.overtime.lines.map fun l => (l.category.name, l.amount)
  | .contribution =>
    f.contributions.lines.map fun l => (l.scheme, l.employeeAmount)
  | .deduction => f.request.deductions.entries

/-- The part of a trace that a family takes up. -/
def block (k : Family) : List (String × Decimal) :=
  (f.members k).map fun e => (k.ruleId e.1, e.2)

def delayEntries (a : Adjustment) : List (String × Decimal) :=
  if a.tier = .onTime then [] else [("delay_penalty", a.delayPenalty)]

def absenceEntries (a : Adjustment) : List (String × Decimal) :=
  if .zero < a.absenceDays then [("absence_deduction", a.absenceDeduction)]
  else []

theorem map_delayTerms (a : Adjustment) :
    (delayTerms a).map (fun t => (t.ruleId, t.amount)) = delayEntries a := by
  unfold delayTerms delayEntries
  split <;> rfl

theorem map_absenceTerms (a : Adjustment) :
    (absenceTerms a).map (fun t => (t.ruleId, t.amount))
      = absenceEntries a := by
  unfold absenceTerms absenceEntries
  split <;> rfl

/-- The trace, family by family. -/
theorem entries_eq : f.entries
    = [("base_salary", f.request.baseSalary)] ++ f.block .allowance
      ++ f.block .overtime ++ [("gross_salary", f.gross)]
      ++ f.block .contribution
      ++ [("taxable_income", f.tax.taxableIncome), ("income_tax", f.tax.tax)]
      ++ f.block .deduction ++ delayEntries f.adjustment
      ++ absenceEntries f.adjustment
      ++ [("total_deductions", f.totalDeductions), ("net_salary", f.net)] := by
  simp only [entries, terms, List.map_append, List.map_map, map_delayTerms,
    map_absenceTerms, block, members]
  rfl

/-- The entries of no family: the eight plain ones, of which the delay
and the absence may be missing. -/
def plain : List (String × Decimal) :=
  [("base_salary", f.request.baseSalary), ("gross_salary", f.gross),
    ("taxable_income", f.tax.taxableIncome), ("income_tax", f.tax.tax)]
    ++ delayEntries f.adjustment ++ absenceEntries f.adjustment
    ++ [("total_deductions", f.totalDeductions), ("net_salary", f.net)]

theorem base_mem : ("base_salary", f.request.baseSalary) ∈ f.plain := by
  simp [plain]

theorem gross_mem : ("gross_salary", f.gross) ∈ f.plain := by simp [plain]

theorem tax_mem : ("income_tax", f.tax.tax) ∈ f.plain := by simp [plain]

theorem total_mem : ("total_deductions", f.totalDeductions) ∈ f.plain := by
  simp [plain]

theorem net_mem : ("net_salary", f.net) ∈ f.plain := by simp [plain]

theorem plain_sublist : (f.plain.map (·.1)).Sublist plainRules := by
  unfold plain delayEntries absenceEntries
  split <;> split <;> simp [plainRules]

theorem filter_block (k k' : Family) :
    (f.block k').filter (fun e => k.holds e.1)
      = if k = k' then f.block k else [] := by
  unfold block
  rw [List.filter_map]
  split
  · rename_i h
    simp [Function.comp_def, h]
  · rename_i h
    simp [Function.comp_def, h]

theorem filter_block_plain (k : Family) :
    (f.block k).filter (fun e => decide (e.1 ∈ plainRules)) = [] := by
  rw [List.filter_eq_nil_iff]
  intro e he
  obtain ⟨e, -, rfl⟩ := List.mem_map.1 he
  simpa using ruleId_not_plain k e.1

theorem delay_plain (a : Adjustment) :
    ∀ e ∈ delayEntries a, e.1 ∈ plainRules := by
  unfold delayEntries
  split <;> simp [plainRules]

theorem absence_plain (a : Adjustment) :
    ∀ e ∈ absenceEntries a, e.1 ∈ plainRules := by
  unfold absenceEntries
  split <;> simp [plainRules]

theorem filter_holds_eq_nil (k : Family) {l : List (String × Decimal)}
    (h : ∀ e ∈ l, e.1 ∈ plainRules) :
    l.filter (fun e => k.holds e.1) = [] := by
  rw [List.filter_eq_nil_iff]
  intro e he
  rw [not_holds_of_plain _ (h e he) k]
  exact Bool.false_ne_true

/-- A stem picks its family out of the trace. -/
theorem filter_holds (k : Family) :
    f.entries.filter (fun e => k.holds e.1) = f.block k := by
  rw [entries_eq]
  simp only [List.filter_append, filter_block,
    filter_holds_eq_nil k (delay_plain f.adjustment),
    filter_holds_eq_nil k (absence_plain f.adjustment)]
  rw [filter_holds_eq_nil k (by simp [plainRules]),
    filter_holds_eq_nil k (by simp [plainRules]),
    filter_holds_eq_nil k (by simp [plainRules]),
    filter_holds_eq_nil k (by simp [plainRules])]
  cases k <;> simp

/-- What no stem picks out is plain. -/
theorem filter_plain :
    f.entries.filter (fun e => decide (e.1 ∈ plainRules)) = f.plain := by
  have hdelay : (delayEntries f.adjustment).filter
      (fun e => decide (e.1 ∈ plainRules)) = delayEntries f.adjustment :=
    List.filter_eq_self.2 fun e he =>
      decide_eq_true (delay_plain f.adjustment e he)
  have habsence : (absenceEntries f.adjustment).filter
      (fun e => decide (e.1 ∈ plainRules)) = absenceEntries f.adjustment :=
    List.filter_eq_self.2 fun e he =>
      decide_eq_true (absence_plain f.adjustment e he)
  rw [entries_eq]
  simp only [List.filter_append, filter_block_plain, hdelay, habsence]
  simp [plain, plainRules]

-- =========================================================== distinct ids

/-- A list has no duplicates if each of its values is of a class that
has none. -/
theorem nodup_of_classes {α : Type} [DecidableEq α] {l : List α}
    (h : ∀ a ∈ l, ∃ q : α → Bool, q a = true ∧ (l.filter q).Nodup) :
    l.Nodup := by
  rw [List.nodup_iff_count_le_one]
  intro a
  by_cases ha : a ∈ l
  · obtain ⟨q, hq, hnodup⟩ := h a ha
    rw [← List.count_filter hq]
    exact List.nodup_iff_count_le_one.1 hnodup a
  · rw [List.count_eq_zero_of_not_mem ha]
    exact Nat.zero_le 1

theorem holds_of_mem_block {k : Family} {e : String × Decimal}
    (h : e ∈ f.block k) : k.holds e.1 = true := by
  obtain ⟨e, -, rfl⟩ := List.mem_map.1 h
  simp

/-- A rule id is plain or one of a family. -/
theorem plain_or_holds {e : String × Decimal} (h : e ∈ f.entries) :
    e.1 ∈ plainRules ∨ ∃ k : Family, k.holds e.1 = true := by
  rw [entries_eq] at h
  simp only [List.mem_append, or_assoc] at h
  rcases h with h | h | h | h | h | h | h | h | h | h
  · exact .inl (by revert e; simp [plainRules])
  · exact .inr ⟨_, f.holds_of_mem_block h⟩
  · exact .inr ⟨_, f.holds_of_mem_block h⟩
  · exact .inl (by revert e; simp [plainRules])
  · exact .inr ⟨_, f.holds_of_mem_block h⟩
  · exact .inl (by revert e; simp [plainRules])
  · exact .inr ⟨_, f.holds_of_mem_block h⟩
  · exact .inl (delay_plain _ e h)
  · exact .inl (absence_plain _ e h)
  · exact .inl (by revert e; simp [plainRules])

/-- Where no family has two members of one name, no rule id occurs
twice. -/
theorem nodup_ids (h : ∀ k, ((f.members k).map (·.1)).Nodup) :
    (f.entries.map (·.1)).Nodup := by
  refine nodup_of_classes fun id hid => ?_
  obtain ⟨e, he, rfl⟩ := List.mem_map.1 hid
  rcases f.plain_or_holds he with hplain | ⟨k, hk⟩
  · refine ⟨fun id => decide (id ∈ plainRules), decide_eq_true hplain, ?_⟩
    rw [List.filter_map]
    have hfilter := f.filter_plain
    simp only [Function.comp_def, hfilter]
    exact f.plain_sublist.nodup (by decide)
  · refine ⟨k.holds, hk, ?_⟩
    rw [List.filter_map]
    have hfilter := f.filter_holds k
    simp only [Function.comp_def, hfilter, block, List.map_map]
    have hids := (h k).map (Family.ruleId_injective k)
    rwa [List.map_map] at hids

end Figures

-- ============================================================== numbering

/-- The steps count from one. -/
theorem map_stepNumber (terms : List Term) :
    (Term.number terms).map (·.stepNumber)
      = (List.range' 1 (Term.number terms).length).map .ofNat := by
  refine List.ext_getElem (by simp) fun i h₁ h₂ => ?_
  simp [Term.number, Nat.add_comm, UInt32.ofNat_add]

/-- Numbering keeps the ids and the amounts. -/
theorem map_number (terms : List Term) :
    (Term.number terms).map (fun d => (d.ruleId, d.amount))
      = terms.map fun t => (t.ruleId, t.amount) := by
  refine List.ext_getElem (by simp [Term.number]) fun i h₁ h₂ => ?_
  simp [Term.number]

-- =============================================================== payslips

namespace Payslip

variable (p : Payslip)

/-- The amounts of a payslip's trace under their rules. -/
def entries : List (String × Decimal) :=
  p.details.map fun d => (d.ruleId, d.amount)

/-- The details of a family. -/
def family (k : Family) : List (String × Decimal) :=
  p.entries.filter fun e => k.holds e.1

/-- The amount that is traced under a rule id. -/
def amount? (id : String) : Option Decimal := (p.detail? id).map (·.amount)

/-- The amount under a rule id, zero where there is none. -/
def amountOf (id : String) : Decimal := (p.amount? id).getD .zero

/-- The total of a family. -/
def familyTotal (k : Family) : Except Fault Decimal :=
  Decimal.sum ((p.family k).map (·.2))

/-- The gross salary that the trace comes to. -/
def replayGross : Except Fault Decimal := do
  let allowances ← p.familyTotal .allowance
  let overtime ← p.familyTotal .overtime
  let fixedPay ← (p.amountOf "base_salary").add allowances
  fixedPay.add overtime

/-- The total of deductions that the trace comes to. -/
def replayDeductions : Except Fault Decimal := do
  let explicit ← p.familyTotal .deduction
  let adjusted ←
    (p.amountOf "delay_penalty").add (p.amountOf "absence_deduction")
  explicit.add adjusted

/-- The net salary that the trace comes to. -/
def replayNet : Except Fault Decimal := do
  let contributions ← p.familyTotal .contribution
  let afterTax ←
    (p.amountOf "gross_salary").sub (p.amountOf "income_tax")
  let afterContributions ← afterTax.sub contributions
  afterContributions.sub (p.amountOf "total_deductions")

/-- A trace that is complete, without repetition, and adds up to its
payslip. -/
structure Traced (p : Payslip) (r : Request) (s : Snapshot) : Prop where
  numbered : p.details.map (·.stepNumber)
    = (List.range' 1 p.details.length).map .ofNat
  starts : (p.details.head?.map (·.ruleId)) = some "base_salary"
  ends : (p.details.getLast?.map (·.ruleId)) = some "net_salary"
  distinct : (p.details.map (·.ruleId)).Nodup
  lookup : ∀ id d, p.detail? id = some d ↔ d ∈ p.details ∧ d.ruleId = id
  allowances : p.family .allowance
    = r.allowances.entries.map fun e => (Family.allowance.ruleId e.1, e.2)
  overtime : p.family .overtime = p.overtimeAmounts.entries.map fun e =>
    (Family.overtime.ruleId e.1.name, e.2)
  overtime_worked : p.overtimeAmounts.entries.map (·.1)
    = Overtime.worked r.overtimeHours
  contributions : (p.family .contribution).Perm
    (p.contributions.entries.map fun e =>
      (Family.contribution.ruleId e.1, e.2))
  contribution_schemes : (p.family .contribution).map (·.1)
    = s.contributions.map fun c => Family.contribution.ruleId c.scheme
  deductions : p.family .deduction
    = r.deductions.entries.map fun e => (Family.deduction.ruleId e.1, e.2)
  base : p.amount? "base_salary" = some p.baseSalary
  gross : p.amount? "gross_salary" = some p.grossSalary
  tax : p.amount? "income_tax" = some p.incomeTax
  total : p.amount? "total_deductions" = some p.totalDeductions
  net : p.amount? "net_salary" = some p.netSalary
  delay : p.amountOf "delay_penalty" = p.attendance.delayPenalty
  absence : p.amountOf "absence_deduction" = p.attendance.absenceDeduction
  replay_gross : p.replayGross = .ok p.grossSalary
  replay_deductions : p.replayDeductions = .ok p.totalDeductions
  replay_net : p.replayNet = .ok p.netSalary

variable {p : Payslip}

/-- Where ids do not repeat, a look-up finds the one detail. -/
theorem detail?_eq_some (h : (p.details.map (·.ruleId)).Nodup)
    {id : String} {d : Detail} :
    p.detail? id = some d ↔ d ∈ p.details ∧ d.ruleId = id :=
  find?_key_eq_some h

theorem amount?_eq_some (h : (p.details.map (·.ruleId)).Nodup)
    {id : String} {a : Decimal} :
    p.amount? id = some a ↔ (id, a) ∈ p.entries := by
  rw [amount?, Option.map_eq_some_iff, entries, List.mem_map]
  constructor
  · rintro ⟨d, hd, rfl⟩
    obtain ⟨hmem, rfl⟩ := (detail?_eq_some h).1 hd
    exact ⟨d, hmem, rfl⟩
  · rintro ⟨d, hmem, heq⟩
    cases heq
    exact ⟨d, (detail?_eq_some h).2 ⟨hmem, rfl⟩, rfl⟩

end Payslip

namespace Figures

variable (f : Figures) (date : Date)

theorem entries_payslip : (f.payslip date).entries = f.entries :=
  map_number f.terms

theorem ids_payslip : (f.payslip date).details.map (·.ruleId)
    = f.entries.map (·.1) := by
  rw [← f.entries_payslip date, Payslip.entries, List.map_map]
  rfl

theorem family_payslip (k : Family) :
    (f.payslip date).family k = f.block k := by
  rw [Payslip.family, entries_payslip, filter_holds]

/-- The total of a family is the total of its members. -/
theorem familyTotal_payslip (k : Family) :
    (f.payslip date).familyTotal k
      = Decimal.sum ((f.members k).map (·.2)) := by
  rw [Payslip.familyTotal, family_payslip, block, List.map_map]
  rfl

variable (h : ∀ k, ((f.members k).map (·.1)).Nodup)

include h

theorem nodup_details : ((f.payslip date).details.map (·.ruleId)).Nodup := by
  rw [ids_payslip]
  exact f.nodup_ids h

/-- A plain rule id is looked up among the plain entries. -/
theorem amount?_payslip {id : String} (hid : id ∈ plainRules)
    {a : Decimal} :
    (f.payslip date).amount? id = some a ↔ (id, a) ∈ f.plain := by
  rw [Payslip.amount?_eq_some (f.nodup_details date h), entries_payslip,
    ← filter_plain, List.mem_filter]
  simp [hid]

theorem amountOf_of_mem {id : String} (hid : id ∈ plainRules)
    {a : Decimal} (ha : (id, a) ∈ f.plain) :
    (f.payslip date).amountOf id = a := by
  rw [Payslip.amountOf, (f.amount?_payslip date h hid).2 ha]
  rfl

/-- A plain detail that was left out counts as zero. -/
theorem amountOf_of_not_mem {id : String} (hid : id ∈ plainRules)
    (ha : ∀ a, (id, a) ∉ f.plain) : (f.payslip date).amountOf id = .zero := by
  rw [Payslip.amountOf, Option.eq_none_iff_forall_ne_some.2 fun a hsome =>
    ha a ((f.amount?_payslip date h hid).1 hsome)]
  rfl

/-- An arrival on time has no detail and costs nothing, which is what
the trace then says of it. -/
theorem amountOf_delay
    (hfree : f.adjustment.tier = .onTime →
      f.adjustment.delayPenalty = .zero) :
    (f.payslip date).amountOf "delay_penalty"
      = f.adjustment.delayPenalty := by
  by_cases htier : f.adjustment.tier = .onTime
  · rw [hfree htier]
    refine f.amountOf_of_not_mem date h (by decide) fun a => ?_
    unfold plain delayEntries absenceEntries
    rw [if_pos htier]
    split <;> simp
  · refine f.amountOf_of_mem date h (by decide) ?_
    simp [plain, delayEntries, htier]

/-- The same of an absence of no days. -/
theorem amountOf_absence
    (hfree : ¬.zero < f.adjustment.absenceDays →
      f.adjustment.absenceDeduction = .zero) :
    (f.payslip date).amountOf "absence_deduction"
      = f.adjustment.absenceDeduction := by
  by_cases hdays : .zero < f.adjustment.absenceDays
  · refine f.amountOf_of_mem date h (by decide) ?_
    simp [plain, absenceEntries, hdays]
  · rw [hfree hdays]
    refine f.amountOf_of_not_mem date h (by decide) fun a => ?_
    unfold plain delayEntries absenceEntries
    rw [if_neg hdays]
    split <;> simp

end Figures

-- ============================================================ settlements

namespace Settlement

variable {r : Request} {s : Snapshot} {rounding : Rounding}
  {st : Stages r s rounding} (t : Settlement st)

/-- No family of a calculation has two members of one name. -/
theorem members_nodup (hs : s.Proper) :
    ∀ k, ((t.figures.members k).map (·.1)).Nodup := by
  intro k
  cases k with
  | allowance => exact r.allowances.names_nodup
  | deduction => exact r.deductions.names_nodup
  | overtime =>
      have hcategories : (st.overtime.lines.map (·.category)).Nodup :=
        (st.categories_sublist hs).nodup (by decide)
      have hnames := hcategories.map Category.name_injective
      rw [List.map_map] at hnames
      rw [Figures.members, List.map_map]
      exact hnames
  | contribution =>
      have hschemes := hs.schemes
      rw [← Contributions.map_scheme st.contributions_ok,
        ← Contributions.scheme_rounded _ rounding] at hschemes
      rw [Figures.members, List.map_map]
      exact hschemes

/-- The tier and the days that go without a detail go without a
charge. -/
theorem adjustment_free :
    (st.adjustment.tier = .onTime → st.adjustment.delayPenalty = .zero)
      ∧ (¬.zero < st.adjustment.absenceDays →
        st.adjustment.absenceDeduction = .zero) := by
  obtain ⟨hdelay, habsence⟩ := Adjustment.compute_free st.adjustment_ok
  refine ⟨fun htier => ?_, fun hdays => ?_⟩
  · show rounding.round st.exactAdjustment.delayPenalty = .zero
    rw [hdelay htier]
    rfl
  · show rounding.round st.exactAdjustment.absenceDeduction = .zero
    rw [habsence hdays]
    rfl

theorem familyTotal (k : Family) : t.payslip.familyTotal k
    = Decimal.sum ((t.figures.members k).map (·.2)) :=
  t.figures.familyTotal_payslip _ k

section Replay

variable (hs : s.Proper)

include hs

theorem amountOf {id : String} (hid : id ∈ plainRules) {a : Decimal}
    (ha : (id, a) ∈ t.figures.plain) : t.payslip.amountOf id = a :=
  t.figures.amountOf_of_mem _ (t.members_nodup hs) hid ha

theorem replayGross : t.payslip.replayGross = .ok st.gross := by
  have hallowances : t.payslip.familyTotal .allowance
      = .ok st.allowances :=
    (t.familyTotal .allowance).trans st.allowances_ok
  have hovertime : t.payslip.familyTotal .overtime
      = .ok st.overtime.total := by
    rw [t.familyTotal, Figures.members, List.map_map]
    exact (Overtime.rounded_eq_ok st.overtime_ok).2.2
  have hbase : t.payslip.amountOf "base_salary" = r.baseSalary :=
    t.amountOf hs (by decide) t.figures.base_mem
  unfold Payslip.replayGross
  simp only [hallowances, hovertime, hbase, ok_bind, st.fixedPay_ok]
  exact st.gross_ok

theorem replayDeductions :
    t.payslip.replayDeductions = .ok t.deductions := by
  have hexplicit : t.payslip.familyTotal .deduction = .ok t.explicit :=
    (t.familyTotal .deduction).trans t.explicit_ok
  have hdelay : t.payslip.amountOf "delay_penalty"
      = st.adjustment.delayPenalty :=
    t.figures.amountOf_delay _ (t.members_nodup hs) adjustment_free.1
  have habsence : t.payslip.amountOf "absence_deduction"
      = st.adjustment.absenceDeduction :=
    t.figures.amountOf_absence _ (t.members_nodup hs) adjustment_free.2
  have hadjusted : st.adjustment.delayPenalty.add
      st.adjustment.absenceDeduction = .ok t.adjusted := t.adjusted_ok
  unfold Payslip.replayDeductions
  simp only [hexplicit, hdelay, habsence, hadjusted, ok_bind]
  exact t.deductions_ok

theorem replayNet : t.payslip.replayNet = .ok t.net := by
  have hcontributions : t.payslip.familyTotal .contribution
      = .ok st.withheld := by
    rw [t.familyTotal, Figures.members, List.map_map]
    exact st.withheld_ok
  have hgross : t.payslip.amountOf "gross_salary" = st.gross :=
    t.amountOf hs (by decide) t.figures.gross_mem
  have htax : t.payslip.amountOf "income_tax" = st.tax.tax :=
    t.amountOf hs (by decide) t.figures.tax_mem
  have htotal : t.payslip.amountOf "total_deductions" = t.deductions :=
    t.amountOf hs (by decide) t.figures.total_mem
  unfold Payslip.replayNet
  simp only [hcontributions, hgross, htax, htotal, t.afterTax_ok,
    t.afterContributions_ok, ok_bind]
  exact t.net_ok

end Replay

/-- The trace of a calculation is complete, free of repetition, and adds
up. -/
theorem traced (hs : s.Proper) : t.payslip.Traced r s := by
  have hn := t.members_nodup hs
  have hnodup := t.figures.nodup_details s.effectiveDate hn
  have hlines := Overtime.entries_amountByCategory (st.categories_sublist hs)
  have hschemes : st.contributions.lines.map (·.scheme)
      = s.contributions.map (·.scheme) :=
    (Contributions.scheme_rounded _ rounding).trans
      (Contributions.map_scheme st.contributions_ok)
  have hcontributions : t.payslip.family .contribution
      = t.figures.block .contribution := t.figures.family_payslip _ _
  have hplain : ∀ {id : String} {a : Decimal}, id ∈ plainRules →
      (id, a) ∈ t.figures.plain → t.payslip.amount? id = some a :=
    fun hid ha => (t.figures.amount?_payslip _ hn hid).2 ha
  exact {
    numbered := map_stepNumber t.figures.terms
    starts := rfl
    ends := by
      rw [← List.getLast?_map]
      refine (congrArg _ (t.figures.ids_payslip _)).trans ?_
      rw [Figures.entries_eq, List.map_append]
      exact List.getLast?_append_of_ne_nil _ (by simp)
    distinct := hnodup
    lookup := fun id d => Payslip.detail?_eq_some hnodup
    allowances := t.figures.family_payslip _ .allowance
    overtime := by
      rw [show t.payslip.overtimeAmounts = st.overtime.amountByCategory
        from rfl, hlines, List.map_map]
      refine (t.figures.family_payslip _ .overtime).trans ?_
      rw [Figures.block, Figures.members, List.map_map]
      rfl
    overtime_worked := by
      rw [show t.payslip.overtimeAmounts = st.overtime.amountByCategory
        from rfl, hlines, List.map_map]
      exact (Overtime.rounded_eq_ok st.overtime_ok).1.trans
        (Overtime.categories_eq st.exactOvertime_ok)
    contributions := by
      rw [hcontributions, Figures.block]
      exact (Named.entries_ofList_perm (hn .contribution)).symm.map _
    contribution_schemes := by
      rw [hcontributions, Figures.block, Figures.members, List.map_map,
        List.map_map]
      have hids := congrArg (List.map Family.contribution.ruleId) hschemes
      rw [List.map_map, List.map_map] at hids
      exact hids
    deductions := t.figures.family_payslip _ .deduction
    base := hplain (by decide) t.figures.base_mem
    gross := hplain (by decide) t.figures.gross_mem
    tax := hplain (by decide) t.figures.tax_mem
    total := hplain (by decide) t.figures.total_mem
    net := hplain (by decide) t.figures.net_mem
    delay := t.figures.amountOf_delay _ hn adjustment_free.1
    absence := t.figures.amountOf_absence _ hn adjustment_free.2
    replay_gross := t.replayGross hs
    replay_deductions := t.replayDeductions hs
    replay_net := t.replayNet hs }

end Settlement

-- ======================================================= the calculation

/-- Every payslip is traced under the rules of its period. -/
theorem calculate_traced (book : RuleBook) (r : Request) (asOf : Date)
    {p : Payslip} (h : calculate r book asOf = .ok p) :
    ∃ s, book.snapshotFor r.period = .ok s ∧ p.Traced r s := by
  unfold calculate at h
  split at h
  · cases h
  · rename_i s hs
    have hproper := Snapshot.proper_of_check
      (book.checked s (RuleBook.snapshotFor_eq_ok hs).mem)
    obtain ⟨_, -, -, st, t, rfl⟩ := (calculateWith_eq_ok hproper).1 h
    exact ⟨s, hs, t.traced hproper⟩

/-- The manager's payslip is traced, with a delay and an absence among
its details. -/
theorem calculate_traced_manager :
    ∃ p, calculate Senegal.manager Senegal.book
        { year := 2024, month := 6, day := 3 } = .ok p
      ∧ ∃ s, Senegal.book.snapshotFor Senegal.manager.period = .ok s
        ∧ p.Traced Senegal.manager s := by
  cases hp : calculate Senegal.manager Senegal.book
      { year := 2024, month := 6, day := 3 } with
  | error e =>
      have hsome : (calculate Senegal.manager Senegal.book
          { year := 2024, month := 6, day := 3 }).toOption.isSome = true := by
        decide +kernel
      rw [hp] at hsome
      cases hsome
  | ok p => exact ⟨p, rfl, calculate_traced _ _ _ hp⟩

end Payroll
