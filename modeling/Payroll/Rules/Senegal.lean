/-
The rules of Senegal, in force since 2024: the yearly income tax scale,
the pension, family, work accident and health schemes, and the overtime
rates, on a month of 173.33 hours. The ledger keeps whole francs.
-/
import Payroll.Rules.Book

namespace Payroll.Senegal

def jurisdiction : Jurisdiction :=
  { code := "SN"
    name := "Senegal"
    currency := "XOF"
    currencyScale := 0
    sourceUrl := some "https://www.impotsetdomaines.gouv.sn" }

/-- The tax scale of a year. -/
def brackets : List Bracket :=
  [⟨.of 0 0, some (.of 630000 0), .of 0 0, .of 0 0⟩,
   ⟨.of 630000 0, some (.of 1500000 0), .of 20 2, .of 0 0⟩,
   ⟨.of 1500000 0, some (.of 4000000 0), .of 30 2, .of 174000 0⟩,
   ⟨.of 4000000 0, some (.of 8000000 0), .of 35 2, .of 924000 0⟩,
   ⟨.of 8000000 0, some (.of 13500000 0), .of 37 2, .of 2324000 0⟩,
   ⟨.of 13500000 0, some (.of 50000000 0), .of 40 2, .of 4359000 0⟩,
   ⟨.of 50000000 0, none, .of 43 2, .of 18959000 0⟩]

theorem check_brackets : BracketTable.check brackets = .ok () := by
  decide +kernel

def incomeTax : TaxSchedule :=
  { base := .gross
    annualized := true
    table := ⟨brackets, check_brackets⟩ }

def contributions : List ContributionRate :=
  [⟨"ipres_general", .of 56 3, .of 84 3, some (.of 432000 0)⟩,
   ⟨"css_family", .of 0 0, .of 7 2, some (.of 63000 0)⟩,
   ⟨"css_work_accident", .of 0 0, .of 1 2, some (.of 63000 0)⟩,
   ⟨"ipm_health", .of 3 2, .of 3 2, none⟩]

def overtime : List OvertimeRule :=
  [⟨.regular, .of 115 2, some (.of 32 0)⟩,
   ⟨.night, .of 160 2, none⟩,
   ⟨.weekend, .of 160 2, none⟩,
   ⟨.holiday, .of 200 2, some (.of 16 0)⟩]

/-- The rules from 1 January 2024 on. -/
def snapshot : Snapshot :=
  { effectiveDate := { year := 2024, month := 1, day := 1 }
    minimumWage := .of 64223 0
    monthlyHours := .of 17333 2
    workingDays := .of 26 0
    dailyHours := .of 8 0
    attendance := { minorPenalty := .of 0 0, severeEscalation := .of 2 0 }
    incomeTax
    contributions
    overtime }

theorem check_snapshot : snapshot.check = .ok () := by
  decide +kernel

/-- The rule book of the shipped rules. -/
def book : RuleBook :=
  { jurisdiction
    snapshots := [snapshot]
    rising := by simp
    checked := by
      intro s hs
      rw [List.mem_singleton.1 hs]
      exact check_snapshot }

end Payroll.Senegal
