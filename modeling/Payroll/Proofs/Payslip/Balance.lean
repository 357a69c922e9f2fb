/-
The balance of a payslip:

    net = gross - tax - contributions - total deductions

as a reader of the payslip works it out, who sees the contributions by
scheme and adds those up. The net itself is formed with the total over
the lines. The two are one as long as no line is lost on the way to the
payslip, and a line is lost where a later one bears the name of the same
scheme: `addsUp_iff` says that the balance holds exactly where what was
lost adds up to nothing.

Rules that were checked have no scheme twice. But the parts of a payslip
may be put together by hand, and a calculation takes rules that nobody
checked; nothing on the way compares the two totals. For overtime, which
has the same two totals, that comparison is made, so there every payslip
shows categories that add up, whatever the lines were.

Order matters to sums only where they are rounded. Here none is:
`AddsExactly` says that every running total is an amount.
-/
import Payroll.Proofs.Payslip.Stages

namespace Payroll

open Decimal

-- =========================================================== exact sums

namespace Decimal

variable {a b c : Decimal} {l : List Decimal} {v : ℚ}

/-- A value that some amount has. -/
def Representable (v : ℚ) : Prop := ∃ a : Decimal, a.toRat = v

theorem Representable.nearest_eq (h : Representable v) :
    nearest v = v := by
  obtain ⟨a, rfl⟩ := h
  exact nearest_toRat a

theorem Representable.inRange (h : Representable v) : InRange v := by
  obtain ⟨a, rfl⟩ := h
  exact inRange_toRat a

theorem InLedger.representable (h : InLedger v) (hv : |v| ≤ 10 ^ 24) :
    Representable v := by
  obtain ⟨k, hk⟩ := h
  have hlt : k.natAbs < limit := by
    have habs : |(k : ℚ)| ≤ 10 ^ 28 := by
      rw [← hk, abs_mul, abs_of_pos (by positivity : (0 : ℚ) < 10 ^ 4)]
      linarith
    have hnat : k.natAbs ≤ 10 ^ 28 := by
      rw [← Int.cast_abs, Int.abs_eq_natAbs] at habs
      exact_mod_cast habs
    exact hnat.trans_lt (by decide)
  refine ⟨.of k 4 hlt (by decide), ?_⟩
  rw [toRat_of, ← hk, mul_div_cancel_right₀ _ (by positivity)]

/-- Every running total from `v` on is an amount. -/
def AddsExactly : ℚ → List ℚ → Prop
  | _, [] => True
  | v, x :: xs => Representable (v + x) ∧ AddsExactly (v + x) xs

/-- Amounts of a ledger that stay small however they are added up. -/
def Small (v : ℚ) (xs : List ℚ) : Prop :=
  InLedger v ∧ (∀ x ∈ xs, InLedger x)
    ∧ |v| + (xs.map (|·|)).sum ≤ 10 ^ 24

instance (v : ℚ) (xs : List ℚ) : Decidable (Small v xs) :=
  inferInstanceAs (Decidable (_ ∧ _ ∧ _))

theorem Small.addsExactly {xs : List ℚ} (h : Small v xs) :
    AddsExactly v xs := by
  induction xs generalizing v with
  | nil => trivial
  | cons x xs ih =>
      obtain ⟨hv, hxs, hle⟩ := h
      rw [List.map_cons, List.sum_cons] at hle
      have htriangle := abs_add_le v x
      have hrest : 0 ≤ (xs.map (|·|)).sum := List.sum_nonneg (by simp)
      have hsum := hv.add (hxs x List.mem_cons_self)
      exact ⟨hsum.representable (by linarith), ih ⟨hsum,
        fun x hx => hxs x (List.mem_cons_of_mem _ hx), by linarith⟩⟩

theorem AddsExactly.exists_foldlM_add
    (h : AddsExactly a.toRat (l.map toRat)) :
    ∃ c, l.foldlM add a = .ok c ∧ c.toRat = a.toRat + total l := by
  induction l generalizing a with
  | nil => exact ⟨a, rfl, by rw [total_nil, add_zero]⟩
  | cons b l ih =>
      obtain ⟨hsum, hrest⟩ := h
      obtain ⟨c, hc, hvalue⟩ := (add?_rounds a b).exists_ok hsum.inRange
        .additionOverflow
      rw [hsum.nearest_eq] at hvalue
      rw [← hvalue] at hrest
      obtain ⟨d, hd, hvalue'⟩ := ih hrest
      have hadd : a.add b = .ok c := hc
      refine ⟨d, ?_, ?_⟩
      · rw [List.foldlM_cons, hadd]
        exact hd
      · rw [hvalue', hvalue, total_cons, add_assoc]

/-- Amounts that add up exactly have a sum, which is their total. -/
theorem AddsExactly.exists_sum (h : AddsExactly 0 (l.map toRat)) :
    ∃ c, sum l = .ok c ∧ c.toRat = total l := by
  rw [← toRat_zero] at h
  obtain ⟨c, hc, hvalue⟩ := h.exists_foldlM_add
  rw [toRat_zero, zero_add] at hvalue
  exact ⟨c, hc, hvalue⟩

theorem AddsExactly.toRat_sum (h : AddsExactly 0 (l.map toRat))
    (hc : sum l = .ok c) : c.toRat = total l := by
  obtain ⟨c', hc', hvalue⟩ := h.exists_sum
  cases hc.symm.trans hc'
  exact hvalue

theorem AddsExactly.toRat_sub {xs : List ℚ}
    (h : AddsExactly a.toRat (-b.toRat :: xs)) (hc : a.sub b = .ok c) :
    c.toRat = a.toRat - b.toRat ∧ AddsExactly c.toRat xs := by
  obtain ⟨hdifference, hrest⟩ := h
  rw [← sub_eq_add_neg] at hdifference hrest
  have hvalue := Decimal.toRat_sub hc
  rw [hdifference.nearest_eq] at hvalue
  exact ⟨hvalue, hvalue ▸ hrest⟩

end Decimal

-- ============================================================== balances

namespace Contributions

/-- The employee's shares that are withheld but shown under no scheme:
a later line bears the same name. -/
def superseded (c : Contributions) : List Decimal :=
  Named.superseded (c.lines.map fun l => (l.scheme, l.employeeAmount))

/-- The shares of the lines are those by scheme and those replaced. -/
theorem total_superseded (c : Contributions) :
    total (c.lines.map (·.employeeAmount))
      = total c.employeeByScheme.values + total c.superseded := by
  have hperm := Named.values_append_superseded_perm
    (c.lines.map fun l => (l.scheme, l.employeeAmount))
  rw [List.map_map] at hperm
  rw [← total_append]
  exact (total_perm hperm).symm

theorem superseded_eq_nil {c : Contributions}
    (h : (c.lines.map (·.scheme)).Nodup) : c.superseded = [] := by
  refine Named.superseded_eq_nil ?_
  rw [map_fst_byScheme (f := (·.employeeAmount))]
  exact h

end Contributions

namespace Payslip

/-- What is compared before a payslip is returned. -/
structure Guarded (p : Payslip) : Prop where
  overtime : ∃ sum, Decimal.sum p.overtimeAmounts.values = .ok sum
    ∧ sum ≈ p.totalOvertime
  deductions_le : p.totalDeductions.toRat ≤ p.grossSalary.toRat
  net_nonneg : 0 ≤ p.netSalary.toRat

/-- How a payslip was put together. -/
structure Formed (p : Payslip) (r : Request) (c : Contributions)
    (o : Overtime) : Prop extends Guarded p where
  contributions : p.contributions = c.employeeByScheme
  gross : ∃ allowances fixedPay, r.totalAllowances = .ok allowances
    ∧ r.baseSalary.add allowances = .ok fixedPay
    ∧ fixedPay.add o.total = .ok p.grossSalary
  net : ∃ withheld afterTax afterContributions,
    c.employeeTotal = .ok withheld
      ∧ p.grossSalary.sub p.incomeTax = .ok afterTax
      ∧ afterTax.sub withheld = .ok afterContributions
      ∧ afterContributions.sub p.totalDeductions = .ok p.netSalary

/-- No sum over a payslip and its contribution lines is rounded. -/
structure Unrounded (p : Payslip) (c : Contributions) : Prop where
  lines : AddsExactly 0 ((c.lines.map (·.employeeAmount)).map toRat)
  contributions : AddsExactly 0 (p.contributions.values.map toRat)
  overtime : AddsExactly 0 (p.overtimeAmounts.values.map toRat)
  net : AddsExactly p.grossSalary.toRat
    [-p.incomeTax.toRat, -total (c.lines.map (·.employeeAmount)),
      -p.totalDeductions.toRat]

/-- The amounts of those sums are small amounts of a ledger. -/
def Booked (p : Payslip) (c : Contributions) : Prop :=
  Small 0 ((c.lines.map (·.employeeAmount)).map toRat)
    ∧ Small 0 (p.contributions.values.map toRat)
    ∧ Small 0 (p.overtimeAmounts.values.map toRat)
    ∧ Small p.grossSalary.toRat
      [-p.incomeTax.toRat, -total (c.lines.map (·.employeeAmount)),
        -p.totalDeductions.toRat]

instance (p : Payslip) (c : Contributions) : Decidable (p.Booked c) :=
  inferInstanceAs (Decidable (_ ∧ _ ∧ _ ∧ _))

theorem Booked.unrounded {p : Payslip} {c : Contributions}
    (h : p.Booked c) : p.Unrounded c :=
  ⟨h.1.addsExactly, h.2.1.addsExactly, h.2.2.1.addsExactly,
    h.2.2.2.addsExactly⟩

/-- The net is what the amounts on the payslip leave of the gross. -/
def AddsUp (p : Payslip) : Prop := ∃ shares,
  p.totalContributions = .ok shares
    ∧ p.netSalary.toRat = p.grossSalary.toRat - p.incomeTax.toRat
      - shares.toRat - p.totalDeductions.toRat

/-- A payslip set against the contribution lines it was made from. -/
structure Balanced (p : Payslip) (c : Contributions) : Prop where
  net : p.netSalary.toRat = p.grossSalary.toRat - p.incomeTax.toRat
    - total (c.lines.map (·.employeeAmount)) - p.totalDeductions.toRat
  addsUp_iff : p.AddsUp ↔ total c.superseded = 0
  addsUp : (c.lines.map (·.scheme)).Nodup → p.AddsUp
  overtime : p.totalOvertime.toRat = total p.overtimeAmounts.values

variable {r : Request} {tax : TaxAssessment} {c : Contributions}
  {o : Overtime} {adjustment : Adjustment} {date : Date} {p : Payslip}

theorem formed_of_assemble
    (h : assemble r tax c o adjustment date = .ok p) :
    p.Formed r c o := by
  obtain ⟨f, hf, h⟩ := bind_eq_ok.1 h
  cases h
  obtain ⟨hformed, rfl, -, rfl, rfl, -⟩ := Figures.compute_eq_ok.1 hf
  obtain ⟨fixedPay, hfixedPay, hgross⟩ := hformed.gross
  obtain ⟨afterTax, afterContributions, hnet⟩ := hformed.net
  exact {
    overtime := hformed.overtime
    deductions_le := hformed.deductions_le
    net_nonneg := hformed.net_nonneg
    contributions := rfl
    gross := ⟨_, fixedPay, hformed.totalAllowances, hfixedPay, hgross⟩
    net := ⟨_, afterTax, afterContributions, hformed.totalContributions,
      hnet⟩ }

namespace Formed

/-- Without rounding the net is formed from the lines. -/
theorem net_eq (h : p.Formed r c o) (hp : p.Unrounded c) :
    p.netSalary.toRat = p.grossSalary.toRat - p.incomeTax.toRat
      - total (c.lines.map (·.employeeAmount))
      - p.totalDeductions.toRat := by
  obtain ⟨withheld, afterTax, afterContributions, hwithheld, htax, hafter,
    hnet⟩ := h.net
  have hshares := hp.lines.toRat_sum hwithheld
  have hrest := hp.net
  rw [← hshares] at hrest ⊢
  obtain ⟨htax, hrest⟩ := hrest.toRat_sub htax
  obtain ⟨hafter, hrest⟩ := hrest.toRat_sub hafter
  obtain ⟨hnet, -⟩ := hrest.toRat_sub hnet
  rw [hnet, hafter, htax]

/-- Between that net and the one on the payslip lies what no scheme
shows. -/
theorem addsUp_iff (h : p.Formed r c o) (hp : p.Unrounded c) :
    p.AddsUp ↔ total c.superseded = 0 := by
  have hnet := h.net_eq hp
  have hlines := c.total_superseded
  obtain ⟨shares, hshares, hvalue⟩ := hp.contributions.exists_sum
  rw [h.contributions] at hvalue
  constructor
  · rintro ⟨shares', hshares', heq⟩
    cases hshares.symm.trans hshares'
    linarith
  · intro hzero
    exact ⟨shares, hshares, by linarith⟩

theorem balanced (h : p.Formed r c o) (hp : p.Unrounded c) :
    p.Balanced c where
  net := h.net_eq hp
  addsUp_iff := h.addsUp_iff hp
  addsUp hdistinct := by
    rw [h.addsUp_iff hp, Contributions.superseded_eq_nil hdistinct,
      total_nil]
  overtime := by
    obtain ⟨sum, hsum, hagree⟩ := h.overtime
    exact (equiv_iff_toRat.1 hagree).symm.trans
      (hp.overtime.toRat_sum hsum)

end Formed

end Payslip

/-- A payslip shows the gross that the contributions were taken of. -/
theorem Stages.grossSalary_of_assembled {r : Request} {s : Snapshot}
    {rounding : Rounding} {p : Payslip} (st : Stages r s rounding)
    (h : st.assembled = .ok p) : p.grossSalary = st.gross := by
  obtain ⟨t, rfl⟩ := st.exists_settlement_of_assembled h
  rfl

/-- What holds of every payslip that is put together, from whatever
parts, and of every payslip that is calculated, under whatever rules. -/
theorem payslips_balance (r : Request) (p : Payslip) :
    (∀ tax c o adjustment date,
      Payslip.assemble r tax c o adjustment date = .ok p →
        p.Guarded ∧ (p.Unrounded c → p.Balanced c))
    ∧ ∀ s rounding asOf, calculateWith r s rounding asOf = .ok p →
      ∃ exact, Contributions.compute p.grossSalary s.contributions
          = .ok exact
        ∧ p.Guarded
        ∧ (p.Unrounded (exact.rounded rounding) →
          p.Balanced (exact.rounded rounding)
            ∧ ((s.contributions.map (·.scheme)).Nodup → p.AddsUp)) := by
  constructor
  · intro tax c o adjustment date h
    have hformed := Payslip.formed_of_assemble h
    exact ⟨hformed.toGuarded, hformed.balanced⟩
  · intro s rounding asOf h
    obtain ⟨-, -, -, st, hst⟩ := calculateWith_eq_ok_assembled.1 h
    have hformed := Payslip.formed_of_assemble hst
    refine ⟨st.exactContributions, ?_, hformed.toGuarded, fun hp => ?_⟩
    · rw [st.grossSalary_of_assembled hst]
      exact st.contributions_ok
    · have hbalanced : p.Balanced st.contributions := hformed.balanced hp
      refine ⟨hbalanced, fun hdistinct => hbalanced.addsUp ?_⟩
      rw [Stages.contributions, Contributions.scheme_rounded,
        Contributions.map_scheme st.contributions_ok]
      exact hdistinct

/-- A month without anything extra. -/
def Senegal.teacher : Request :=
  { employeeId := "E-1"
    period := .of 2024 3
    baseSalary := 350000
    regularHours := 160 }

/-- The payslip of that month adds up, and so it does when it is put
together from its parts. -/
theorem payslips_balance_teacher : ∃ p exact,
    calculateWith Senegal.teacher Senegal.snapshot { places := 0 }
      { year := 2024, month := 3, day := 31 } = .ok p
    ∧ Contributions.compute p.grossSalary Senegal.snapshot.contributions
      = .ok exact
    ∧ p.Unrounded (exact.rounded { places := 0 })
    ∧ p.Balanced (exact.rounded { places := 0 }) ∧ p.AddsUp
    ∧ ∃ tax c o adjustment date, Payslip.assemble Senegal.teacher tax c o
      adjustment date = .ok p ∧ p.Guarded := by
  have hpaid : (calculateWith Senegal.teacher Senegal.snapshot
      { places := 0 } { year := 2024, month := 3, day := 31 }
      ).toOption.any (fun p => (Contributions.compute p.grossSalary
        Senegal.snapshot.contributions).toOption.any fun exact =>
          decide (p.Booked (exact.rounded { places := 0 }))) = true := by
    decide +kernel
  obtain ⟨p, hp, hpaid⟩ := exists_ok_of_any hpaid
  obtain ⟨exact, hexact, hbooked⟩ := exists_ok_of_any hpaid
  have hunrounded := (of_decide_eq_true hbooked).unrounded
  obtain ⟨exact', hexact', -, hbalanced⟩ := (payslips_balance _ p).2 _ _ _ hp
  cases hexact.symm.trans hexact'
  obtain ⟨hbalanced, haddsUp⟩ := hbalanced hunrounded
  obtain ⟨-, -, -, st, hst⟩ := calculateWith_eq_ok_assembled.1 hp
  have hguarded := ((payslips_balance _ p).1 _ _ _ _ _ hst).1
  exact ⟨p, exact, hp, hexact, hunrounded, hbalanced,
    haddsUp (by decide +kernel), _, _, _, _, _, hst, hguarded⟩

/-- The shipped rules with the health scheme entered a second time, at
another rate. -/
def Senegal.doubled : Snapshot :=
  { Senegal.snapshot with
    contributions := Senegal.contributions
      ++ [⟨"ipm_health", 0.01, 0.01, none⟩] }

/-- Under rules like these, which a calculation does not check, both
lines are withheld and one is shown: the payslip does not add up,
although nothing is rounded. -/
theorem payslip_off_balance_doubled : ∃ p exact,
    calculateWith Senegal.teacher Senegal.doubled { places := 0 }
      { year := 2024, month := 3, day := 31 } = .ok p
    ∧ Contributions.compute p.grossSalary Senegal.doubled.contributions
      = .ok exact
    ∧ p.Unrounded (exact.rounded { places := 0 })
    ∧ p.netSalary = .of 233567 0 ∧ p.grossSalary = .of 350000 0
    ∧ p.incomeTax = .of 82833 0 ∧ p.totalContributions = .ok (.of 23100 0)
    ∧ p.totalDeductions = .of 0 0 ∧ ¬p.AddsUp := by
  have hpaid : (calculateWith Senegal.teacher Senegal.doubled
      { places := 0 } { year := 2024, month := 3, day := 31 }
      ).toOption.any (fun p => (Contributions.compute p.grossSalary
        Senegal.doubled.contributions).toOption.any fun exact =>
          decide (p.Booked (exact.rounded { places := 0 })
            ∧ p.netSalary = .of 233567 0 ∧ p.grossSalary = .of 350000 0
            ∧ p.incomeTax = .of 82833 0
            ∧ p.totalContributions.toOption = some (.of 23100 0)
            ∧ p.totalDeductions = .of 0 0)) = true := by
    decide +kernel
  obtain ⟨p, hp, hpaid⟩ := exists_ok_of_any hpaid
  obtain ⟨exact, hexact, hshown⟩ := exists_ok_of_any hpaid
  obtain ⟨hbooked, hnet, hgross, htax, hshares, hdeductions⟩ :=
    of_decide_eq_true hshown
  have hshares : p.totalContributions = .ok (.of 23100 0) := by
    cases h : p.totalContributions with
    | error e =>
        rw [h] at hshares
        cases hshares
    | ok shares =>
        rw [h] at hshares
        cases hshares
        rfl
  refine ⟨p, exact, hp, hexact, hbooked.unrounded, hnet, hgross, htax,
    hshares, hdeductions, ?_⟩
  rintro ⟨shares, hshares', haddsUp⟩
  cases hshares.symm.trans hshares'
  rw [hnet, hgross, htax, hdeductions] at haddsUp
  norm_num at haddsUp

end Payroll
