/-
The slope of a tax. A progressive tax has no notch: who earns more has
more left. Where nothing is rounded, the tax of two incomes differs by
no more than the incomes do, and by exactly the share that the rate
says if both fall in one bracket, its upper bound included.

# The argument

An income is cut into portions, one for each bracket, and a checked
table leaves no gap between its brackets, so the portions add up to the
income (`sum_portion`). The tax is the sum of the portions times their
rates (`exists_tax_exact`). From one income to a higher one no portion
gets smaller. So the increases add up to the difference of the incomes,
and times rates between zero and one they add up to no more. Where one
bracket has room for the whole difference, nothing is left for the
others, and its rate alone decides.

# Where nothing is rounded

Bounds of four places and rates of six have products of ten. An amount
holds ten places up to `10 ^ 18`, and no partial sum of the walk is
larger than the income.
-/
import Payroll.Proofs.IncomeTax.Monotone
import Payroll.Rules.Senegal

namespace Payroll

open Decimal

namespace BracketTable

/-- The part of an income that falls in a bracket. -/
def portion (b : Bracket) (income : Decimal) : ℚ :=
  max 0 ((slicedTo b income).toRat - b.minIncome.toRat)

/-- The tax of an income, no step of it rounded. -/
def exactTax (t : BracketTable) (income : Decimal) : ℚ :=
  (t.brackets.map fun b => portion b income * b.rate.toRat).sum

/-- A bracket whose bounds have at most four places and whose rate has
at most six. -/
structure MeasuredBracket (b : Bracket) : Prop where
  lower : Whole 4 b.minIncome.toRat
  upper : ∀ m, b.maxIncome = some m → Whole 4 m.toRat
  rate : Whole 6 b.rate.toRat

/-- A table of such brackets. -/
def Measured (t : BracketTable) : Prop :=
  ∀ b ∈ t.brackets, MeasuredBracket b

-- ============================================================== portions

theorem portion_nonneg (b : Bracket) (income : Decimal) :
    0 ≤ portion b income :=
  le_max_left _ _

theorem portion_mono (b : Bracket) {a c : Decimal}
    (h : a.toRat ≤ c.toRat) : portion b a ≤ portion b c :=
  max_le_max le_rfl (sub_le_sub_right (slicedTo_mono b h) _)

theorem slicedTo_le (b : Bracket) (income : Decimal) :
    (slicedTo b income).toRat ≤ income.toRat := by
  unfold slicedTo
  split
  · rw [toRat_min]
    exact min_le_left _ _
  · exact le_rfl

/-- Nothing of an income falls in a bracket that it does not exceed. -/
theorem portion_eq_zero {b : Bracket} {income : Decimal}
    (h : income.toRat ≤ b.minIncome.toRat) : portion b income = 0 := by
  have := slicedTo_le b income
  exact max_eq_left (by linarith)

/-- What an income fills of a bracket that it reaches. -/
theorem portion_eq {b : Bracket} (hb : Proper b) {income : Decimal}
    (h : b.minIncome.toRat < income.toRat) :
    portion b income = (slicedTo b income).toRat - b.minIncome.toRat :=
  max_eq_right (sub_nonneg.2 (le_slicedTo hb h))

/-- What an income fills of a bracket that it does not leave. -/
theorem portion_eq_of_le {b : Bracket} {income : Decimal}
    (hmin : b.minIncome.toRat ≤ income.toRat)
    (hmax : ∀ m, b.maxIncome = some m → income.toRat ≤ m.toRat) :
    portion b income = income.toRat - b.minIncome.toRat := by
  have hend : (slicedTo b income).toRat = income.toRat := by
    unfold slicedTo
    split
    · rename_i m hm
      rw [toRat_min, min_eq_left (hmax m hm)]
    · rfl
  rw [portion, hend]
  exact max_eq_right (sub_nonneg.2 hmin)

/-- Consecutive brackets leave out nothing above the lowest bound. -/
theorem WellFormedFrom.sum_portion {cumulative : Decimal}
    {b : Bracket} {rest : List Bracket} (income : Decimal)
    (h : WellFormedFrom cumulative (b :: rest)) :
    ((b :: rest).map (portion · income)).sum
      = max 0 (income.toRat - b.minIncome.toRat) := by
  induction rest generalizing b cumulative with
  | nil =>
      obtain ⟨-, -, hmax⟩ := wellFormedFrom_singleton.1 h
      simp [portion, slicedTo, hmax]
  | cons next above ih =>
      obtain ⟨-, -, ⟨upper, hmax, hwidth, hnext⟩, _, -, hrest⟩ :=
        wellFormedFrom_cons_cons.1 h
      rw [lt_iff_toRat] at hwidth
      rw [equiv_iff_toRat] at hnext
      rw [List.map_cons, List.sum_cons, ih hrest, hnext, portion, slicedTo,
        hmax, toRat_min]
      rcases le_total income.toRat upper.toRat with hle | hle
      · rw [min_eq_left hle, max_eq_left (sub_nonpos.2 hle), add_zero]
      · rw [min_eq_right hle, max_eq_right (sub_nonneg.2 hwidth.le),
          max_eq_right (sub_nonneg.2 hle),
          max_eq_right (sub_nonneg.2 (hwidth.le.trans hle))]
        ring

theorem sum_portion_nonneg (brackets : List Bracket) (income : Decimal) :
    0 ≤ (brackets.map (portion · income)).sum := by
  refine List.sum_nonneg fun v hv => ?_
  obtain ⟨b, -, rfl⟩ := List.mem_map.1 hv
  exact portion_nonneg b income

/-- The portions of an income add up to it. -/
theorem sum_portion (t : BracketTable) {income : Decimal}
    (h : 0 ≤ income.toRat) :
    (t.brackets.map (portion · income)).sum = income.toRat := by
  obtain ⟨first, rest, hbrackets, hfirst⟩ := t.exists_first
  have hwell := hbrackets ▸ t.wellFormed.toWellFormedFrom
  rw [hbrackets, hwell.sum_portion income, hfirst, sub_zero]
  exact max_eq_right h

-- ============================================================= exact walks

theorem whole_slicedTo {b : Bracket} (hb : MeasuredBracket b)
    {income : Decimal} (h : Whole 4 income.toRat) :
    Whole 4 (slicedTo b income).toRat := by
  unfold slicedTo
  split
  · rename_i m hm
    rw [toRat_min]
    exact h.min (hb.upper m hm)
  · exact h

/-- The tax of a portion is exact. -/
theorem exists_slice_exact {b : Bracket} (hproper : Proper b)
    (hb : MeasuredBracket b) {income : Decimal}
    (hincome : Whole 4 income.toRat)
    (hmin : b.minIncome.toRat < income.toRat)
    (hle : portion b income ≤ 10 ^ 18) :
    ∃ slice, b.slice (slicedTo b income) = .ok slice
      ∧ slice.toRat = portion b income * b.rate.toRat
      ∧ Whole 10 slice.toRat := by
  have hnonneg := portion_nonneg b income
  have hshare := mul_le_of_le_one_right hnonneg hproper.rate_le_one
  have hshare' := mul_nonneg hnonneg hproper.rate_nonneg
  have hportion := portion_eq hproper hmin
  have hwhole : Whole 4 (portion b income) :=
    hportion ▸ (whole_slicedTo hb hincome).sub hb.lower
  have htaxed : Whole 10 (portion b income * b.rate.toRat) :=
    hwhole.mul hb.rate
  obtain ⟨width, hwidth, hvalue⟩ :=
    (sub?_rounds (slicedTo b income) b.minIncome).exists_exact
      (hportion ▸ hwhole) (by decide)
      (by rw [← hportion, abs_of_nonneg hnonneg]; linarith)
      .subtractionOverflow
  rw [← hportion] at hvalue
  obtain ⟨slice, hslice, hvalue'⟩ := (mul?_rounds width b.rate).exists_exact
    (hvalue ▸ htaxed) (by decide)
    (by rw [hvalue, abs_of_nonneg hshare']; linarith)
    .multiplicationOverflow
  rw [hvalue] at hvalue'
  exact ⟨slice, bind_eq_ok.2 ⟨width, hwidth, hslice⟩, hvalue',
    hvalue' ▸ htaxed⟩

/-- A walk adds exactly the portions times their rates. What was added
up so far and the portions still to come stay below the limit
together. -/
theorem exists_walk_exact {income : Decimal}
    (hincome : Whole 4 income.toRat) {brackets : List Bracket}
    (hproper : ∀ b ∈ brackets, Proper b)
    (hbrackets : ∀ b ∈ brackets, MeasuredBracket b)
    (hrising : brackets.Pairwise (·.minIncome.toRat < ·.minIncome.toRat))
    {tax : Decimal} (htax : 0 ≤ tax.toRat) (hwhole : Whole 10 tax.toRat)
    (hle : tax.toRat + (brackets.map (portion · income)).sum ≤ 10 ^ 18) :
    ∃ t, walk income tax brackets = .ok t ∧ t.toRat = tax.toRat
      + (brackets.map fun b => portion b income * b.rate.toRat).sum := by
  induction brackets generalizing tax with
  | nil => exact ⟨tax, rfl, by simp⟩
  | cons b rest ih =>
      have hb := hproper b List.mem_cons_self
      obtain ⟨habove, hrising⟩ := List.pairwise_cons.1 hrising
      rcases le_or_gt income.toRat b.minIncome.toRat with hstop | hlt
      · -- no later bracket is reached either
        refine ⟨tax, walk_of_le hstop, ?_⟩
        rw [List.sum_eq_zero, add_zero]
        intro v hv
        obtain ⟨b', hb', rfl⟩ := List.mem_map.1 hv
        rw [portion_eq_zero, zero_mul]
        rcases List.mem_cons.1 hb' with rfl | hb'
        · exact hstop
        · exact hstop.trans (habove b' hb').le
      · have hnonneg := portion_nonneg b income
        have hshare := mul_le_of_le_one_right hnonneg hb.rate_le_one
        have hshare' := mul_nonneg hnonneg hb.rate_nonneg
        have hrest := sum_portion_nonneg rest income
        rw [List.map_cons, List.sum_cons] at hle
        obtain ⟨slice, hslice, hvalue, hslicewhole⟩ := exists_slice_exact hb
          (hbrackets b List.mem_cons_self) hincome hlt (by linarith)
        obtain ⟨sum, hsum, hsumvalue⟩ := (add?_rounds tax slice).exists_exact
          (hwhole.add hslicewhole) (by decide)
          (by rw [hvalue, abs_of_nonneg (by linarith)]; linarith)
          .additionOverflow
        obtain ⟨t, ht, htvalue⟩ := ih
          (fun b' hb' => hproper b' (List.mem_cons_of_mem b hb'))
          (fun b' hb' => hbrackets b' (List.mem_cons_of_mem b hb')) hrising
          (by rw [hsumvalue, hvalue]; linarith)
          (hsumvalue ▸ hwhole.add hslicewhole)
          (by rw [hsumvalue, hvalue]; linarith)
        refine ⟨t, walk_of_lt hlt hslice hsum ht, ?_⟩
        rw [htvalue, hsumvalue, hvalue, List.map_cons, List.sum_cons]
        ring

/-- Where the places suffice the tax is exact. -/
theorem exists_tax_exact (t : BracketTable) (ht : t.Measured)
    {income : Decimal} (hincome : Whole 4 income.toRat)
    (hnonneg : 0 ≤ income.toRat) (hle : income.toRat ≤ 10 ^ 18) :
    ∃ due, t.tax income = .ok due ∧ due.toRat = t.exactTax income := by
  have hsum := t.sum_portion hnonneg
  obtain ⟨walked, hwalked, hvalue⟩ := exists_walk_exact hincome t.proper ht
    t.rising toRat_zero.ge (by rw [toRat_zero]; exact whole_zero 10)
    (by rw [toRat_zero, zero_add, hsum]; exact hle)
  have hagree := tax_agree_of_nonneg t hnonneg
  rw [marginalTax_eq_walk t hnonneg, hwalked] at hagree
  obtain ⟨due, hdue, hvalue'⟩ := hagree.symm.exists_ok rfl
  refine ⟨due, hdue, ?_⟩
  rw [hvalue', hvalue, toRat_zero, zero_add, exactTax]

-- ================================================================ the slope

/-- What a bracket gains from one income to another. -/
def gain (a c : Decimal) (b : Bracket) : ℚ := portion b c - portion b a

variable (t : BracketTable) {a c : Decimal}

theorem gain_nonneg (h : a.toRat ≤ c.toRat) (b : Bracket) :
    0 ≤ gain a c b :=
  sub_nonneg.2 (portion_mono b h)

/-- The gains of all brackets are what is earned more. -/
theorem sum_gain (ha : 0 ≤ a.toRat) (h : a.toRat ≤ c.toRat) :
    (t.brackets.map (gain a c)).sum = c.toRat - a.toRat := by
  rw [← t.sum_portion ha, ← t.sum_portion (ha.trans h), eq_sub_iff_add_eq,
    ← List.sum_map_add]
  simp only [gain, sub_add_cancel]

/-- The tax grows by the gains times their rates. -/
theorem exactTax_sub (a c : Decimal) : t.exactTax c - t.exactTax a
    = (t.brackets.map fun b => gain a c b * b.rate.toRat).sum := by
  rw [exactTax, exactTax, sub_eq_iff_eq_add, ← List.sum_map_add]
  simp only [gain, sub_mul, sub_add_cancel]

/-- No income is taxed away. -/
theorem exactTax_le (ha : 0 ≤ a.toRat) : t.exactTax a ≤ a.toRat := by
  rw [← t.sum_portion ha]
  exact List.sum_le_sum fun b hb =>
    mul_le_of_le_one_right (portion_nonneg b a) (t.proper b hb).rate_le_one

/-- The tax grows by no more than the income. -/
theorem exactTax_sub_le (ha : 0 ≤ a.toRat) (h : a.toRat ≤ c.toRat) :
    t.exactTax c - t.exactTax a ≤ c.toRat - a.toRat := by
  rw [t.exactTax_sub, ← t.sum_gain ha h]
  exact List.sum_le_sum fun b hb =>
    mul_le_of_le_one_right (gain_nonneg h b) (t.proper b hb).rate_le_one

/-- Within one bracket the tax grows at its rate. That bracket has room
for the whole difference, which leaves the others no part of what is
taxed nor of what is left. -/
theorem exactTax_sub_eq (ha : 0 ≤ a.toRat) (h : a.toRat ≤ c.toRat)
    {b : Bracket} (hb : b ∈ t.brackets)
    (hmin : b.minIncome.toRat ≤ a.toRat)
    (hmax : ∀ m, b.maxIncome = some m → c.toRat ≤ m.toRat) :
    t.exactTax c - t.exactTax a = (c.toRat - a.toRat) * b.rate.toRat := by
  have hgain : gain a c b = c.toRat - a.toRat := by
    rw [gain, portion_eq_of_le (hmin.trans h) hmax,
      portion_eq_of_le hmin fun m hm => h.trans (hmax m hm)]
    ring
  have htaxed : gain a c b * b.rate.toRat
      ≤ (t.brackets.map fun b => gain a c b * b.rate.toRat).sum := by
    refine List.single_le_sum ?_ _ (List.mem_map_of_mem hb)
    intro v hv
    obtain ⟨b', hb', rfl⟩ := List.mem_map.1 hv
    exact mul_nonneg (gain_nonneg h b') (t.proper b' hb').rate_nonneg
  have hleft : gain a c b * (1 - b.rate.toRat)
      ≤ (t.brackets.map fun b => gain a c b * (1 - b.rate.toRat)).sum := by
    refine List.single_le_sum ?_ _ (List.mem_map_of_mem hb)
    intro v hv
    obtain ⟨b', hb', rfl⟩ := List.mem_map.1 hv
    exact mul_nonneg (gain_nonneg h b')
      (sub_nonneg.2 (t.proper b' hb').rate_le_one)
  have hsplit : (t.brackets.map fun b => gain a c b * b.rate.toRat).sum
      + (t.brackets.map fun b => gain a c b * (1 - b.rate.toRat)).sum
      = c.toRat - a.toRat := by
    rw [← t.sum_gain ha h, ← List.sum_map_add]
    refine congrArg List.sum (List.map_congr_left fun b' _ => ?_)
    ring
  rw [hgain] at htaxed hleft
  rw [t.exactTax_sub]
  linarith

end BracketTable

namespace TaxSchedule

-- ============================================================= schedules

variable (s : TaxSchedule) {a c : Decimal} {ta tc : TaxAssessment}

/-- A smaller income is assessed no higher, where both are assessed. -/
theorem assess_mono (ha : 0 ≤ a.toRat) (hac : a.toRat ≤ c.toRat)
    (hta : s.assess a = .ok ta) (htc : s.assess c = .ok tc) :
    ta.tax.toRat ≤ tc.tax.toRat := by
  obtain ⟨ta', hta', -, hle⟩ := s.exists_assess_le ha hac htc
  rw [hta] at hta'
  cases hta'
  exact hle

/-- The months that a schedule's brackets are for. -/
def span : ℚ := if s.annualized then 12 else 1

theorem one_le_span : 1 ≤ s.span := by
  unfold span
  split <;> norm_num

theorem span_le : s.span ≤ 12 := by
  unfold span
  split <;> norm_num

/-- The income looked up is exact. -/
theorem yearly_exact {income x : Decimal} (hwhole : Whole 4 income.toRat)
    (hnonneg : 0 ≤ income.toRat) (hle : income.toRat ≤ 10 ^ 16)
    (h : s.yearly income = .ok x) :
    x.toRat = income.toRat * s.span ∧ Whole 4 x.toRat := by
  by_cases hyear : s.annualized = true
  · have hyearly : Whole 4 (income.toRat * 12) :=
      hwhole.mul (whole_intCast 0 12)
    rw [s.yearly_eq_ok hyear] at h
    rw [span, if_pos hyear, toRat_mul h, toRat_months,
      hyearly.nearest_eq (by decide)]
    · exact ⟨rfl, hyearly⟩
    · rw [abs_of_nonneg (by positivity)]
      linarith
  · rw [yearly, if_neg hyear] at h
    cases h
    rw [span, if_neg hyear, mul_one]
    exact ⟨rfl, hwhole⟩

/-- A month's part of a tax, which a division may have rounded in the
last place. -/
theorem abs_monthly_sub_le {due tax : Decimal} (hnonneg : 0 ≤ due.toRat)
    (hle : due.toRat ≤ 10 ^ 18) (h : s.monthly due = .ok tax) :
    |tax.toRat - due.toRat / s.span| ≤ 1 / (2 * 10 ^ 10) := by
  by_cases hyear : s.annualized = true
  · rw [monthly, if_pos hyear, liftM_fault_eq_ok] at h
    rw [span, if_pos hyear, toRat_div months_pos.ne' h, toRat_months]
    refine abs_nearest_sub_le (by decide) ?_
    rw [abs_of_nonneg (by positivity)]
    unfold reach
    linarith
  · rw [monthly, if_neg hyear] at h
    cases h
    rw [span, if_neg hyear, div_one, sub_self, abs_zero]
    positivity

/-- A month's tax by the exact tax of the table. -/
theorem assess_near (hs : s.table.Measured) (ha : Whole 4 a.toRat)
    (hnonneg : 0 ≤ a.toRat) (hle : a.toRat ≤ 10 ^ 16)
    (hta : s.assess a = .ok ta) : ∃ x, s.yearly a = .ok x
      ∧ x.toRat = a.toRat * s.span
      ∧ |ta.tax.toRat - s.table.exactTax x / s.span|
        ≤ 1 / (2 * 10 ^ 10) := by
  obtain ⟨x, due, tax, hx, hdue, htax, rfl⟩ := s.assess_eq_ok.1 hta
  obtain ⟨hvalue, hwhole⟩ := s.yearly_exact ha hnonneg hle hx
  have hspan := s.one_le_span
  have hspan' := s.span_le
  have hxnonneg : 0 ≤ x.toRat := by rw [hvalue]; positivity
  have hxle : x.toRat ≤ 10 ^ 18 := by
    rw [hvalue]
    calc a.toRat * s.span ≤ 10 ^ 16 * 12 := by gcongr
      _ ≤ 10 ^ 18 := by norm_num
  obtain ⟨due', hdue', hexact⟩ :=
    s.table.exists_tax_exact hs hwhole hxnonneg hxle
  rw [hdue] at hdue'
  cases hdue'
  refine ⟨x, hx, hvalue, ?_⟩
  rw [← hexact]
  refine s.abs_monthly_sub_le (s.table.tax_nonneg hdue) ?_ htax
  rw [hexact]
  exact (s.table.exactTax_le hxnonneg).trans hxle

/-- Up to the last place of a division by twelve, no tax exceeds its
income. -/
theorem assess_le (hs : s.table.Measured) (ha : Whole 4 a.toRat)
    (hle : a.toRat ≤ 10 ^ 16) (hta : s.assess a = .ok ta) :
    ta.tax.toRat ≤ a.toRat + 1 / 10 ^ 10 := by
  have hnonneg := s.income_nonneg hta
  obtain ⟨x, -, hx, hnear⟩ := s.assess_near hs ha hnonneg hle hta
  have hspan : 0 < s.span := by linarith [s.one_le_span]
  have htax : s.table.exactTax x / s.span ≤ a.toRat := by
    rw [div_le_iff₀ hspan, ← hx]
    refine s.table.exactTax_le ?_
    rw [hx]
    positivity
  linarith [(abs_le.1 hnear).2]

/-- Up to the last place of two divisions by twelve, a month's tax grows
by no more than its income. -/
theorem assess_sub_le (hs : s.table.Measured) (ha : Whole 4 a.toRat)
    (hc : Whole 4 c.toRat) (hnonneg : 0 ≤ a.toRat)
    (hac : a.toRat ≤ c.toRat) (hle : c.toRat ≤ 10 ^ 16)
    (hta : s.assess a = .ok ta) (htc : s.assess c = .ok tc) :
    tc.tax.toRat - ta.tax.toRat ≤ c.toRat - a.toRat + 1 / 10 ^ 10 := by
  obtain ⟨xa, -, hxa, hta⟩ :=
    s.assess_near hs ha hnonneg (hac.trans hle) hta
  obtain ⟨xc, -, hxc, htc⟩ :=
    s.assess_near hs hc (hnonneg.trans hac) hle htc
  have hspan : 0 < s.span := by linarith [s.one_le_span]
  have hslope : s.table.exactTax xc / s.span - s.table.exactTax xa / s.span
      ≤ c.toRat - a.toRat := by
    rw [← sub_div, div_le_iff₀ hspan, sub_mul, ← hxa, ← hxc]
    refine s.table.exactTax_sub_le ?_ ?_
    · rw [hxa]
      positivity
    · rw [hxa, hxc]
      gcongr
  linarith [(abs_le.1 hta).1, (abs_le.1 htc).2]

/-- More income is never assessed a lower tax, whatever is rounded on
the way. Where the places suffice, so that nothing is, the tax of the
table grows by no more than the income, and within a bracket, its upper
bound included, at the rate of the bracket. -/
theorem no_notch {a c : Decimal} (ha : .zero ≤ a) (hac : a ≤ c) :
    (∀ ta tc, s.assess a = .ok ta → s.assess c = .ok tc →
      ta.tax ≤ tc.tax)
    ∧ (s.table.Measured → InLedger a.toRat → InLedger c.toRat →
      c.toRat < 10 ^ 15 →
      ∃ da dc, s.table.tax a = .ok da ∧ s.table.tax c = .ok dc
        ∧ dc.toRat - da.toRat ≤ c.toRat - a.toRat
        ∧ ∀ b ∈ s.table.brackets, b.minIncome ≤ a →
          (∀ m, b.maxIncome = some m → c ≤ m) →
          dc.toRat - da.toRat = (c.toRat - a.toRat) * b.rate.toRat) := by
  rw [le_iff_toRat, toRat_zero] at ha
  rw [le_iff_toRat] at hac
  constructor
  · intro ta tc hta htc
    exact le_iff_toRat.2 (s.assess_mono ha hac hta htc)
  · intro hs hwholea hwholec hlt
    obtain ⟨da, hda, hvaluea⟩ :=
      s.table.exists_tax_exact hs hwholea ha (by linarith)
    obtain ⟨dc, hdc, hvaluec⟩ :=
      s.table.exists_tax_exact hs hwholec (ha.trans hac) (by linarith)
    refine ⟨da, dc, hda, hdc, ?_, ?_⟩
    · rw [hvaluea, hvaluec]
      exact s.table.exactTax_sub_le ha hac
    · intro b hb hmin hmax
      rw [hvaluea, hvaluec]
      exact s.table.exactTax_sub_eq ha hac hb (le_iff_toRat.1 hmin)
        fun m hm => le_iff_toRat.1 (hmax m hm)

end TaxSchedule

theorem Senegal.measured_incomeTax : incomeTax.table.Measured := by
  intro b hb
  have h : ∀ b ∈ brackets, Whole 4 b.minIncome.toRat
      ∧ (b.maxIncome.all fun m => decide (Whole 4 m.toRat)) = true
      ∧ Whole 6 b.rate.toRat := by
    decide +kernel
  obtain ⟨hlower, hupper, hrate⟩ := h b hb
  refine ⟨hlower, fun m hm => ?_, hrate⟩
  rw [hm] at hupper
  exact of_decide_eq_true hupper

/-- Two incomes of the second bracket, the higher one at its upper bound.
As incomes of a month they fall in higher brackets of the year. -/
theorem TaxSchedule.no_notch_bracket_end :
    ∃ ta tc da dc, Senegal.incomeTax.assess (.of 7000005 1) = .ok ta
      ∧ Senegal.incomeTax.assess (.of 1500000 0) = .ok tc
      ∧ ta.tax ≤ tc.tax
      ∧ Senegal.incomeTax.table.tax (.of 7000005 1) = .ok da
      ∧ Senegal.incomeTax.table.tax (.of 1500000 0) = .ok dc
      ∧ dc.toRat - da.toRat = (1500000 - 7000005 / 10) * (20 / 100) := by
  have hta : Senegal.incomeTax.assess (.of 7000005 1) = .ok {
      taxableIncome := .of 7000005 1, bracketIncome := .of 84000060 1
      bracket := ⟨.of 8000000 0, some (.of 13500000 0), .of 37 2,
        .of 2324000 0⟩
      annualized := true, tax := .of 206000185 3 } := by
    decide +kernel
  have htc : Senegal.incomeTax.assess (.of 1500000 0) = .ok {
      taxableIncome := .of 1500000 0, bracketIncome := .of 18000000 0
      bracket := ⟨.of 13500000 0, some (.of 50000000 0), .of 40 2,
        .of 4359000 0⟩
      annualized := true, tax := .of 51325000 2 } := by
    decide +kernel
  obtain ⟨hmono, hexact⟩ := Senegal.incomeTax.no_notch
    (a := .of 7000005 1) (c := .of 1500000 0) (by decide) (by decide)
  obtain ⟨da, dc, hda, hdc, -, hrate⟩ := hexact
    Senegal.measured_incomeTax (by decide +kernel) (by decide +kernel)
    (by rw [toRat_of]; norm_num)
  have hbracket := hrate
    ⟨.of 630000 0, some (.of 1500000 0), .of 20 2, .of 0 0⟩ (by decide)
    (by decide) (by rintro m ⟨⟩; decide)
  rw [toRat_of, toRat_of, toRat_of] at hbracket
  refine ⟨_, _, da, dc, hta, htc, hmono _ _ hta htc, hda, hdc, ?_⟩
  rw [hbracket]
  norm_num

end Payroll
