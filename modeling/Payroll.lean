import Payroll.Decimal.Division
import Payroll.Decimal.Rounding
import Payroll.Decimal.Text
import Payroll.Named
import Payroll.Category
import Payroll.Calendar.DateText
import Payroll.Calendar.Period
import Payroll.Calendar.ClockTime
import Payroll.Error.Basic
import Payroll.Request
import Payroll.IncomeTax.Schedule
import Payroll.Contribution.Basic
import Payroll.Overtime.Basic
import Payroll.Attendance.Adjustment
import Payroll.Document.Reader
import Payroll.Payslip.Assembly
import Payroll.Rules.Senegal
import Payroll.Pipeline
import Payroll.Document.Payslip
import Payroll.Document.Rules
import Payroll.Service
import Payroll.Rules.Folder
import Payroll.Proofs.Decimal.Nearest
import Payroll.Proofs.Decimal.Value
import Payroll.Proofs.Decimal.Whole
import Payroll.Proofs.Decimal.Operations
import Payroll.Proofs.Decimal.Division
import Payroll.Proofs.Endings
import Payroll.Proofs.IncomeTax.Table
import Payroll.Proofs.IncomeTax.Walk
import Payroll.Proofs.Decimal.Ledger
import Payroll.Proofs.Decimal.Size
import Payroll.Proofs.IncomeTax.Monotone
import Payroll.Proofs.IncomeTax.Slope
import Payroll.Proofs.IncomeTax.Share
import Payroll.Proofs.Contribution
import Payroll.Proofs.Contribution.Burden
import Payroll.Proofs.Attendance
import Payroll.Proofs.Attendance.Delay
import Payroll.Proofs.Overtime
import Payroll.Proofs.Earnings
import Payroll.Proofs.RuleBook
import Payroll.Proofs.Snapshot
import Payroll.Proofs.Payslip.Stages
import Payroll.Proofs.Payslip.Trace
import Payroll.Proofs.Validation.Bounds
import Payroll.Proofs.Validation.Sound
import Payroll.Proofs.Validation.Passing
import Payroll.Proofs.Payslip.Statutory
import Payroll.Proofs.Payslip.WholeUnits
import Payroll.Proofs.Payslip.Sizes
import Payroll.Proofs.Payslip.Answers
import Payroll.Proofs.Validation.Slack
import Payroll.Proofs.Senegal
import Payroll.Proofs.Batch.Queue
import Payroll.Proofs.Batch.Runs
import Payroll.Proofs.Batch.Accounting
import Payroll.Proofs.Batch.Results
import Payroll.Proofs.Batch.Entry
import Payroll.Proofs.Validation.Forecast
import Payroll.Proofs.Payslip.RuleOrder
import Payroll.Proofs.Payslip.EmployerShares
import Payroll.Proofs.Payslip.Formulas
import Payroll.Proofs.Document.RoundTrip
import Payroll.Proofs.Decimal.Between
import Payroll.Proofs.Validation.Enclosure
import Payroll.Proofs.Payslip.Balance
import Payroll.Proofs.Batch.Pool
import Payroll.Proofs.Validation.Breaches
import Payroll.Proofs.Validation.Absence
import Payroll.Proofs.Text.Period
import Payroll.Proofs.Payslip.EarningsSide
import Payroll.Proofs.Acceptance
import Payroll.Proofs.IncomeTax.Partition
import Payroll.Proofs.IncomeTax.MarginalRates
import Payroll.Proofs.IncomeTax.Assessment
import Payroll.Proofs.Overtime.Sheet
import Payroll.Proofs.Overtime.Itemized
import Payroll.Proofs.Overtime.Additive
import Payroll.Proofs.Calendar.Number
import Payroll.Proofs.Calendar.Tiling
import Payroll.Proofs.RuleFolder
import Payroll.Proofs.Service
