/-
Dates are read as they were written. A date carries a sign where its
year is longer than four digits or before the year 0, so every date
comes back. Periods do not; see `Period.parse_toText_eq`.
-/
import Payroll.Calendar.DateText
import Payroll.Proofs.Text.Numerals

namespace Payroll

namespace Text

variable {cs rest : List Char} {width n : ℕ}

-- =================================================================== runs

/-- A run is taken up to the first character that is not part of it. -/
theorem takeWhile_run {q : Char → Bool} (hcs : ∀ c ∈ cs, q c = true)
    (hrest : ∀ c ∈ rest.head?, q c = false) :
    (cs ++ rest).takeWhile q = cs := by
  rw [List.takeWhile_append_of_pos hcs]
  cases rest with
  | nil => simp
  | cons c rest => simp [hrest c rfl]

theorem dropWhile_run {q : Char → Bool} (hcs : ∀ c ∈ cs, q c = true)
    (hrest : ∀ c ∈ rest.head?, q c = false) :
    (cs ++ rest).dropWhile q = rest := by
  rw [List.dropWhile_append_of_pos hcs]
  cases rest with
  | nil => rfl
  | cons c rest => simp [hrest c rfl]

theorem isDigit_head_digits (rest : List Char) :
    ∀ c ∈ (digits width n ++ rest).head?, c.isDigit = true := by
  intro c hc
  rw [List.head?_append_of_ne_nil _ (digits_ne_nil width n)] at hc
  exact isDigit_of_mem_digits c (List.mem_of_mem_head? hc)

theorem trimLeft_eq (h : ∀ c ∈ cs.head?, isBlank c = false) :
    trimLeft cs = cs := by
  show ([] ++ cs).dropWhile isBlank = cs
  exact dropWhile_run nofun h

theorem trimLeft_digits (rest : List Char) :
    trimLeft (digits width n ++ rest) = digits width n ++ rest :=
  trimLeft_eq fun c hc => isBlank_of_isDigit (isDigit_head_digits rest c hc)

/-- A text without blanks has none around it. -/
theorem trim_eq (h : ∀ c ∈ cs, isBlank c = false) : trim cs = cs := by
  have hback : trimLeft cs.reverse = cs.reverse := trimLeft_eq fun c hc =>
    h c (List.mem_reverse.1 (List.mem_of_mem_head? hc))
  rw [trim, trimLeft_eq fun c hc => h c (List.mem_of_mem_head? hc),
    trimRight, ← trimLeft, hback, List.reverse_reverse]

end Text

open Text

-- ================================================================== dates

namespace Date

variable {rest : List Char} {n : ℕ}

theorem of?_self (d : Date) : of? d.year d.month d.day = some d := by
  rw [of?, dif_pos ⟨⟨d.year_ge, d.year_le⟩, ⟨d.month_ge, d.month_le⟩,
    d.day_ge, d.day_le⟩]

/-- A number is read to its end, if it has room in the width. -/
theorem readNumber_digits {k : ℕ} {width : Option ℕ}
    (hwidth : ∀ w ∈ width, (digits k n).length ≤ w)
    (hrest : ∀ c ∈ rest.head?, c.isDigit = false) :
    readNumber width (digits k n ++ rest) = some (n, rest) := by
  have hrun : (digits k n ++ rest).takeWhile (·.isDigit) = digits k n :=
    takeWhile_run isDigit_of_mem_digits hrest
  unfold readNumber
  cases width with
  | none =>
      simp only [hrun, readDigits_digits, Option.map_some, List.drop_left]
  | some w =>
      simp only [hrun, List.take_of_length_le (hwidth w rfl),
        readDigits_digits, Option.map_some, List.drop_left]

/-- Months and days have room in two digits. -/
theorem readPart_digits (hn : n < 100)
    (hrest : ∀ c ∈ rest.head?, c.isDigit = false) :
    readPart (digits 2 n ++ rest) = some (n, rest) := by
  rw [readPart, trimLeft_digits]
  refine readNumber_digits ?_ hrest
  rintro w ⟨⟩
  exact (length_digits (by decide) hn).le

/-- A year has a sign where it could not be told from its digits. -/
theorem readYear_yearText (year : ℤ)
    (hrest : ∀ c ∈ rest.head?, c.isDigit = false) :
    readYear (yearText year ++ rest) = some (year, rest) := by
  have hsigned : readNumber none (digits 4 year.natAbs ++ rest)
      = some (year.natAbs, rest) := readNumber_digits nofun hrest
  unfold yearText
  simp only
  split
  · rename_i hyear
    have hself : ((year.natAbs : ℕ) : ℤ) = year :=
      Int.natAbs_of_nonneg hyear.1
    have hshort : readNumber (some 4) (digits 4 year.natAbs ++ rest)
        = some (year.natAbs, rest) := by
      refine readNumber_digits ?_ hrest
      rintro w ⟨⟩
      exact (length_digits (by decide) (by omega)).le
    have hhead : ∀ c ∈ (digits 4 year.natAbs ++ rest).head?,
        c.isDigit = true := isDigit_head_digits rest
    unfold readYear
    rw [trimLeft_digits]
    split
    · rename_i heq
      rw [heq] at hhead
      exact absurd (hhead '-' rfl) (by decide)
    · rename_i heq
      rw [heq] at hhead
      exact absurd (hhead '+' rfl) (by decide)
    · rw [hshort, Option.map_some, hself]
  · split
    · have hself : -((year.natAbs : ℕ) : ℤ) = year := by omega
      rw [List.cons_append, readYear, trimLeft_eq (by rintro c ⟨⟩; decide)]
      simp only
      rw [hsigned, Option.map_some, hself]
    · have hself : ((year.natAbs : ℕ) : ℤ) = year := by omega
      rw [List.cons_append, readYear, trimLeft_eq (by rintro c ⟨⟩; decide)]
      simp only
      rw [hsigned, Option.map_some, hself]

/-- A date is read as it was written. -/
theorem ofText?_toText (d : Date) : ofText? d.toText = some d := by
  have hmonth := d.month_le
  have hday := d.day_le.trans (daysInMonth_le d.year d.month)
  have hhyphen : ∀ rest : List Char, ∀ c ∈ ('-' :: rest).head?,
      c.isDigit = false := by
    rintro rest c ⟨⟩
    decide
  have hskip : ∀ rest : List Char, trimLeft ('-' :: rest) = '-' :: rest :=
    fun rest => trimLeft_eq (by rintro c ⟨⟩; decide)
  have hlast : readPart (digits 2 d.day ++ []) = some (d.day, []) :=
    readPart_digits (by omega) nofun
  rw [List.append_nil] at hlast
  unfold ofText? toText
  rw [String.toList_ofList, List.append_assoc]
  unfold readWith
  simp only [List.cons_append, readYear_yearText d.year (hhyphen _), hskip,
    readPart_digits (n := d.month) (by omega) (hhyphen _), hlast, readHyphen,
    Option.bind_eq_bind, Option.bind_some]
  exact (if_pos rfl).trans d.of?_self

end Date

end Payroll
