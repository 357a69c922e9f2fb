/-
Which texts name a period. The format is `YYYY-MM`: four digits, a
hyphen, and two digits that number a month (`Written Numeral`). The
reader finds the first hyphen, asks for four characters before it and
two behind it, and reads both parts as counts. A count may have a plus
sign in front, and the sign is one of the characters, so what is read is
`Written Count` (`parse_eq_ok_iff`): `2024-+3` is March too.

These are the only texts besides the format. A number has one numeral of
a width (`Numeral.unique`), so without a plus sign a text that is read
is the one that is printed, and no two of them name one period.

A period is printed with all digits of its year, and a sign where the
year is negative. Both take the hyphen out of the fifth place, so a
period whose year has not four digits is refused, never read as another
(`parse_toText_eq`).
-/
import Payroll.Calendar.Period
import Payroll.Proofs.Text.Calendar

namespace Payroll

namespace Text

variable {cs cs' : List Char} {width n : ℕ}

-- =============================================================== numerals

/-- The text of a number in `width` digits. -/
structure Numeral (width n : ℕ) (cs : List Char) : Prop where
  length_eq : cs.length = width
  isDigit : ∀ c ∈ cs, c.isDigit = true
  value_eq : Nat.ofDigitChars 10 cs 0 = n

theorem numeral_digits (hw : 0 < width) (h : n < 10 ^ width) :
    Numeral width n (digits width n) :=
  ⟨length_digits hw h, isDigit_of_mem_digits, ofDigitChars_digits width n⟩

/-- The first digit counts for all that follow. -/
theorem ofDigitChars_cons_zero (c : Char) (cs : List Char) :
    Nat.ofDigitChars 10 (c :: cs) 0
      = 10 ^ cs.length * (c.toNat - '0'.toNat)
        + Nat.ofDigitChars 10 cs 0 := by
  rw [Nat.ofDigitChars_cons, Nat.ofDigitChars_eq_ofDigitChars_zero,
    Nat.mul_zero, Nat.zero_add]

theorem digit_lt_ten {c : Char} (h : c.isDigit = true) :
    '0'.toNat ≤ c.toNat ∧ c.toNat - '0'.toNat < 10 := by
  simp only [Char.isDigit, Bool.and_eq_true, decide_eq_true_eq] at h
  have hlow : 48 ≤ c.toNat := h.1
  have hhigh : c.toNat ≤ 57 := h.2
  have hzero : '0'.toNat = 48 := rfl
  omega

theorem ofDigitChars_lt (h : ∀ c ∈ cs, c.isDigit = true) :
    Nat.ofDigitChars 10 cs 0 < 10 ^ cs.length := by
  induction cs with
  | nil => simp
  | cons c cs ih =>
      obtain ⟨hc, hcs⟩ := List.forall_mem_cons.1 h
      have hrest := ih hcs
      have hdigit := (digit_lt_ten hc).2
      rw [ofDigitChars_cons_zero, List.length_cons, pow_succ]
      calc 10 ^ cs.length * (c.toNat - '0'.toNat)
            + Nat.ofDigitChars 10 cs 0
          < 10 ^ cs.length * (c.toNat - '0'.toNat) + 10 ^ cs.length := by
            omega
        _ = 10 ^ cs.length * (c.toNat - '0'.toNat + 1) := by ring
        _ ≤ 10 ^ cs.length * 10 := Nat.mul_le_mul_left _ (by omega)

theorem Numeral.lt (h : Numeral width n cs) : n < 10 ^ width := by
  have := ofDigitChars_lt h.isDigit
  rwa [h.length_eq, h.value_eq] at this

/-- A number has one numeral of a width. -/
theorem Numeral.unique (h : Numeral width n cs)
    (h' : Numeral width n cs') : cs = cs' := by
  induction cs generalizing cs' width n with
  | nil =>
      have hlength := h'.length_eq.trans h.length_eq.symm
      exact (List.length_eq_zero_iff.1 hlength).symm
  | cons c cs ih =>
      cases cs' with
      | nil =>
          have hlength := h.length_eq.trans h'.length_eq.symm
          cases hlength
      | cons c' cs' =>
          obtain ⟨hc, hcs⟩ := List.forall_mem_cons.1 h.isDigit
          obtain ⟨hc', hcs'⟩ := List.forall_mem_cons.1 h'.isDigit
          have hlength : cs'.length = cs.length :=
            Nat.succ_inj.1 (h'.length_eq.trans h.length_eq.symm)
          have hrest := ofDigitChars_lt hcs
          have hrest' := ofDigitChars_lt hcs'
          have hvalue := h.value_eq.trans h'.value_eq.symm
          rw [ofDigitChars_cons_zero, ofDigitChars_cons_zero, hlength]
            at hvalue
          rw [hlength] at hrest'
          -- the leading digit is the quotient by what the rest can hold
          have hlead := congrArg (· / 10 ^ cs.length) hvalue
          have hpow : 0 < 10 ^ cs.length := Nat.pow_pos (by decide)
          simp only [Nat.mul_add_div hpow, Nat.div_eq_of_lt hrest,
            Nat.div_eq_of_lt hrest', Nat.add_zero] at hlead
          rw [hlead] at hvalue
          have hchar : c = c' := Char.toNat_inj.1 (by
            have := digit_lt_ten hc
            have := digit_lt_ten hc'
            omega)
          rw [hchar, ih ⟨rfl, hcs, rfl⟩
            ⟨hlength, hcs', (Nat.add_left_cancel hvalue).symm⟩]

theorem Numeral.eq_digits (h : Numeral width n cs) (hw : 0 < width) :
    cs = digits width n :=
  h.unique (numeral_digits hw h.lt)

theorem readDigits_eq_some_iff :
    readDigits cs = some n ↔ cs ≠ [] ∧ Numeral cs.length n cs := by
  unfold readDigits
  split
  · rename_i hbad
    refine ⟨nofun, fun ⟨hne, h⟩ => ?_⟩
    rw [Bool.or_eq_true, List.isEmpty_iff, List.any_eq_true] at hbad
    obtain ⟨c, hc, hdigit⟩ := hbad.resolve_left hne
    rw [h.isDigit c hc] at hdigit
    cases hdigit
  · rename_i hgood
    rw [Bool.not_eq_true, Bool.or_eq_false_iff, List.isEmpty_eq_false_iff,
      List.any_eq_false] at hgood
    obtain ⟨hne, hdigits⟩ := hgood
    have hdigits : ∀ c ∈ cs, c.isDigit = true := by simpa using hdigits
    constructor
    · rintro ⟨⟩
      exact ⟨hne, rfl, hdigits, rfl⟩
    · rintro ⟨-, h⟩
      rw [h.value_eq]

-- ================================================================= counts

/-- The text of a number in `width` characters, the first of which may
be a plus sign. -/
inductive Count : ℕ → ℕ → List Char → Prop
  | plain {width n : ℕ} {cs : List Char} (h : Numeral width n cs) :
    Count width n cs
  | plus {width n : ℕ} {cs : List Char} (h : Numeral width n cs) :
    Count (width + 1) n ('+' :: cs)

theorem Count.length_eq (h : Count width n cs) : cs.length = width := by
  cases h with
  | plain h => exact h.length_eq
  | plus h => rw [List.length_cons, h.length_eq]

/-- Every character of a count is a digit or the plus sign. -/
theorem Count.isDigit (h : Count width n cs) :
    ∀ c ∈ cs, c = '+' ∨ c.isDigit = true := by
  intro c hc
  cases h with
  | plain h => exact .inr (h.isDigit c hc)
  | plus h =>
      rcases List.mem_cons.1 hc with rfl | hc
      · exact .inl rfl
      · exact .inr (h.isDigit c hc)

theorem Count.lt (h : Count width n cs) : n < 10 ^ width := by
  cases h with
  | plain h => exact h.lt
  | @plus width _ _ h =>
      exact h.lt.trans (Nat.pow_lt_pow_right (by decide) width.lt_succ_self)

theorem Count.numeral (h : Count width n cs) (hplus : '+' ∉ cs) :
    Numeral width n cs := by
  cases h with
  | plain h => exact h
  | plus h => exact absurd List.mem_cons_self hplus

/-- Numerals that have a digit are plain. -/
theorem Numeral.plus_not_mem (h : Numeral width n cs) : '+' ∉ cs :=
  fun hplus => absurd (h.isDigit '+' hplus) (by decide)

/-- A count is read, if it is more than a sign. -/
theorem readCount_eq_some_iff (hcs : 1 < cs.length) :
    readCount cs = some n ↔ Count cs.length n cs := by
  unfold readCount
  split
  · rename_i cs
    have hne : cs ≠ [] := by
      rintro rfl
      exact absurd hcs (by decide)
    rw [readDigits_eq_some_iff]
    constructor
    · exact fun h => .plus h.2
    · intro h
      generalize hlength : ('+' :: cs).length = width at h
      cases h with
      | plain h => exact absurd List.mem_cons_self h.plus_not_mem
      | plus h =>
          rw [List.length_cons, Nat.succ_inj] at hlength
          exact ⟨hne, hlength ▸ h⟩
  · rename_i hplus
    rw [readDigits_eq_some_iff]
    constructor
    · exact fun h => .plain h.2
    · intro h
      refine ⟨List.ne_nil_of_length_pos (by omega), h.numeral ?_⟩
      generalize cs.length = width at h
      cases h with
      | plain h => exact h.plus_not_mem
      | plus h => exact absurd rfl (hplus _)

end Text

open Text

namespace Period

variable {s : String} {p : Period} {cs : List Char} {y m : ℕ}

-- ================================================================ reading

/-- A year in four characters, a hyphen and a month in two, each number
written as `field` says. -/
def Written (field : ℕ → ℕ → List Char → Prop) (y m : ℕ)
    (cs : List Char) : Prop :=
  ∃ year month, cs = year ++ '-' :: month ∧ field 4 y year
    ∧ field 2 m month

theorem of?_self (p : Period) : of? p.year p.month = some p := by
  rw [of?, dif_pos ⟨⟨p.year_ge, p.year_le⟩, p.month_ge, p.month_le⟩]

theorem of?_eq_some_iff {year : ℤ} {month : ℕ} :
    of? year month = some p ↔ p.year = year ∧ p.month = month := by
  constructor
  · intro h
    unfold of? at h
    split at h
    · cases h
      exact ⟨rfl, rfl⟩
    · cases h
  · rintro ⟨rfl, rfl⟩
    exact p.of?_self

/-- No count has a hyphen, so the year ends at the first one. -/
theorem takeWhile_written {year : List Char} {width : ℕ}
    (h : Count width y year) (rest : List Char) :
    (year ++ '-' :: rest).takeWhile (· != '-') = year
      ∧ (year ++ '-' :: rest).dropWhile (· != '-') = '-' :: rest := by
  have hyear : ∀ c ∈ year, (c != '-') = true := by
    intro c hc
    rw [bne_iff_ne]
    rcases h.isDigit c hc with rfl | hdigit
    · decide
    · exact ne_of_isDigit hdigit (by decide)
  have hhyphen : ∀ c ∈ ('-' :: rest).head?, (c != '-') = false := by
    rintro c ⟨⟩
    decide
  exact ⟨takeWhile_run hyear hhyphen, dropWhile_run hyear hhyphen⟩

/-- A text with a hyphen in it is split there. -/
theorem exists_split (h : (cs.takeWhile (· != '-')).length ≠ cs.length) :
    ∃ rest, cs = cs.takeWhile (· != '-') ++ '-' :: rest
      ∧ (cs.dropWhile (· != '-')).drop 1 = rest := by
  have hsplit := List.takeWhile_append_dropWhile (p := (· != '-')) (l := cs)
  have hhead := List.head?_dropWhile_not (· != '-') cs
  cases hrest : cs.dropWhile (· != '-') with
  | nil =>
      rw [hrest, List.append_nil] at hsplit
      exact absurd (congrArg List.length hsplit) h
  | cons c rest =>
      rw [hrest] at hsplit hhead
      obtain rfl : c = '-' := by simpa using hhead
      exact ⟨rest, hsplit.symm, rfl⟩

/-- A text is read as the period whose year and month it counts out,
blanks around it aside. -/
theorem parse_eq_ok_iff : parse s = .ok p ↔
    ∃ y : ℕ, p.year = y ∧ Written Count y p.month (trim s.toList) := by
  unfold parse
  simp only
  constructor
  · intro h
    split at h
    · cases h
    · rename_i hshape
      simp only [not_or, not_not] at hshape
      obtain ⟨hhyphen, hyear, hmonth⟩ := hshape
      obtain ⟨rest, hsplit, hrest⟩ := exists_split hhyphen
      split at h
      · rename_i y m hy hm
        split at h
        · rename_i q hq
          cases h
          obtain ⟨hpyear, rfl⟩ := of?_eq_some_iff.1 hq
          rw [readCount_eq_some_iff (by omega), hyear] at hy
          rw [readCount_eq_some_iff (by omega), hmonth, hrest] at hm
          exact ⟨y, hpyear, _, rest, hsplit, hy, hm⟩
        · cases h
      · cases h
  · rintro ⟨y, hy, year, month, hbody, hyear, hmonth⟩
    obtain ⟨htake, hdrop⟩ := takeWhile_written hyear month
    have hready := (readCount_eq_some_iff
      (by rw [hyear.length_eq]; decide)).2 (hyear.length_eq ▸ hyear)
    have hreadm := (readCount_eq_some_iff
      (by rw [hmonth.length_eq]; decide)).2 (hmonth.length_eq ▸ hmonth)
    rw [hbody, htake, hdrop, List.drop_succ_cons, List.drop_zero,
      if_neg (by simp [hyear.length_eq, hmonth.length_eq])]
    simp only [hready, hreadm, of?_eq_some_iff.2 ⟨hy, rfl⟩]

/-- The error names the text as it came. -/
theorem parse_eq_error {e : ParseError} (h : parse s = .error e) :
    e = ⟨s⟩ := by
  unfold parse at h
  simp only at h
  split at h
  · cases h
    rfl
  · split at h
    · split at h
      · cases h
      · cases h
        rfl
    · cases h
      rfl

-- =============================================================== printing

theorem isBlank_toText (p : Period) :
    ∀ c ∈ p.toText.toList, isBlank c = false := by
  have hdigit : ∀ width n, ∀ c ∈ digits width n, isBlank c = false :=
    fun width n c hc => isBlank_of_isDigit (isDigit_of_mem_digits c hc)
  have hhyphen : isBlank '-' = false := by decide
  rw [toText, String.toList_ofList, List.forall_mem_append,
    List.forall_mem_cons]
  refine ⟨?_, hhyphen, hdigit 2 p.month⟩
  unfold yearText
  split
  · exact List.forall_mem_cons.2 ⟨hhyphen, hdigit 3 _⟩
  · exact hdigit 4 _

theorem trim_toText (p : Period) :
    trim p.toText.toList = p.toText.toList :=
  trim_eq p.isBlank_toText

/-- Numerals of the year and the month are what is printed. -/
theorem Written.eq_toText (h : Written Numeral y p.month cs)
    (hy : p.year = y) : cs = p.toText.toList := by
  obtain ⟨year, month, rfl, hyear, hmonth⟩ := h
  have habs : p.year.natAbs = y := by omega
  rw [toText, String.toList_ofList, yearText, if_neg (by omega), habs,
    hyear.eq_digits (by decide), hmonth.eq_digits (by decide)]

theorem written_toText (h₀ : 0 ≤ p.year) (h₁ : p.year ≤ 9999) :
    Written Numeral p.year.natAbs p.month p.toText.toList := by
  have hmonth := p.month_le
  refine ⟨_, _, ?_, numeral_digits (by decide) (by omega),
    numeral_digits (by decide) (by omega)⟩
  rw [toText, String.toList_ofList, yearText, if_neg (by omega)]

theorem Written.count (h : Written Numeral y m cs) :
    Written Count y m cs := by
  obtain ⟨year, month, hcs, hyear, hmonth⟩ := h
  exact ⟨year, month, hcs, .plain hyear, .plain hmonth⟩

theorem Written.plus_not_mem (h : Written Numeral y m cs) : '+' ∉ cs := by
  obtain ⟨year, month, rfl, hyear, hmonth⟩ := h
  simp [hyear.plus_not_mem, hmonth.plus_not_mem]

/-- Without a plus sign counts are numerals. -/
theorem Written.numeral (h : Written Count y m cs) (hplus : '+' ∉ cs) :
    Written Numeral y m cs := by
  obtain ⟨year, month, rfl, hyear, hmonth⟩ := h
  rw [List.mem_append, List.mem_cons, not_or, not_or] at hplus
  exact ⟨year, month, rfl, hyear.numeral hplus.1, hmonth.numeral hplus.2.2⟩

/-- A period whose year has four digits is read as it was printed. -/
theorem parse_toText (p : Period) (h₀ : 0 ≤ p.year) (h₁ : p.year ≤ 9999) :
    parse p.toText = .ok p := by
  refine parse_eq_ok_iff.2
    ⟨p.year.natAbs, (Int.natAbs_of_nonneg h₀).symm, ?_⟩
  rw [trim_toText]
  exact (written_toText h₀ h₁).count

/-- What is read is what is printed, unless it has a plus sign. -/
theorem toText_eq_iff (h : parse s = .ok p) :
    p.toText.toList = trim s.toList ↔ '+' ∉ trim s.toList := by
  obtain ⟨y, hy, hwritten⟩ := parse_eq_ok_iff.1 h
  constructor
  · intro htext
    obtain ⟨_, _, -, hyear, -⟩ := hwritten
    have hlt := hyear.lt
    rw [← htext]
    exact (written_toText (p := p) (by omega) (by omega)).plus_not_mem
  · intro hplus
    exact ((hwritten.numeral hplus).eq_toText hy).symm

/-- A text without a plus sign is read exactly where it is written as
`YYYY-MM` with a month from 01 to 12. -/
theorem exists_parse_iff (hplus : '+' ∉ trim s.toList) :
    (∃ p, parse s = .ok p) ↔ ∃ y m, Written Numeral y m (trim s.toList)
      ∧ 1 ≤ m ∧ m ≤ 12 := by
  constructor
  · rintro ⟨p, h⟩
    obtain ⟨y, -, hwritten⟩ := parse_eq_ok_iff.1 h
    exact ⟨y, p.month, hwritten.numeral hplus, p.month_ge, p.month_le⟩
  · rintro ⟨y, m, hwritten, hm⟩
    obtain ⟨year, month, -, hyear, -⟩ := id hwritten
    have hlt := hyear.lt
    have hrange : Date.minYear ≤ (y : ℤ) ∧ (y : ℤ) ≤ Date.maxYear := by
      unfold Date.minYear Date.maxYear
      omega
    let p : Period := ⟨y, m, hrange.1, hrange.2, hm.1, hm.2⟩
    exact ⟨p, parse_eq_ok_iff.2 ⟨y, rfl, hwritten.count⟩⟩

/-- What is read and what it says. Every text that is read counts out
the year and the month, and the error of any other names it. It is the
text that is printed exactly if it has no plus sign. Among the texts
without one the format is all that is read, and each period has one
text. -/
theorem period_texts (s : String) :
    (∀ p, parse s = .ok p ↔
      ∃ y : ℕ, p.year = y ∧ Written Count y p.month (trim s.toList))
    ∧ (∀ e, parse s = .error e → e = ⟨s⟩)
    ∧ (∀ p, parse s = .ok p →
      (p.toText.toList = trim s.toList ↔ '+' ∉ trim s.toList))
    ∧ ('+' ∉ trim s.toList →
      ((∃ p, parse s = .ok p) ↔ ∃ y m,
        Written Numeral y m (trim s.toList) ∧ 1 ≤ m ∧ m ≤ 12)
      ∧ ∀ s' p, '+' ∉ trim s'.toList → parse s = .ok p →
        parse s' = .ok p → trim s.toList = trim s'.toList) := by
  refine ⟨fun p => parse_eq_ok_iff, fun e => parse_eq_error,
    fun p => toText_eq_iff, fun hplus => ⟨exists_parse_iff hplus, ?_⟩⟩
  intro s' p hplus' h h'
  rw [← (toText_eq_iff h).2 hplus, ← (toText_eq_iff h').2 hplus']

/-- A period with blanks around it, and the text that it is printed
as. -/
theorem period_texts_march :
    '+' ∉ trim " 2024-03\n".toList
      ∧ (∃ y m, Written Numeral y m (trim " 2024-03\n".toList)
        ∧ 1 ≤ m ∧ m ≤ 12)
      ∧ parse " 2024-03\n" = .ok (.of 2024 3)
      ∧ (Period.of 2024 3).toText.toList = trim " 2024-03\n".toList
      ∧ trim " 2024-03\n".toList = trim "2024-03".toList := by
  have hplus : '+' ∉ trim " 2024-03\n".toList := by decide
  have hparse : parse " 2024-03\n" = .ok (.of 2024 3) := by decide
  obtain ⟨-, -, htext, hformat⟩ := period_texts " 2024-03\n"
  obtain ⟨hread, honly⟩ := hformat hplus
  exact ⟨hplus, hread.1 ⟨_, hparse⟩, hparse, (htext _ hparse).2 hplus,
    honly "2024-03" _ (by decide) hparse (by decide)⟩

/-- A plus sign in the place of a digit is read, although the text is
not of the format: it is not the text that is printed, and both name
one period. -/
theorem plus_sign_read :
    parse "2024-+3" = .ok (.of 2024 3) ∧ parse "2024-03" = .ok (.of 2024 3)
      ∧ trim "2024-+3".toList ≠ trim "2024-03".toList
      ∧ (Period.of 2024 3).toText ≠ "2024-+3"
      ∧ ¬∃ y m, Written Numeral y m (trim "2024-+3".toList) := by
  have hplus : '+' ∈ trim "2024-+3".toList := by decide
  refine ⟨by decide, by decide, by decide, by decide, ?_⟩
  rintro ⟨y, m, h⟩
  exact h.plus_not_mem hplus

-- ============================================================ printed texts

/-- A text that is read has its first hyphen in the fifth place. -/
theorem length_takeWhile_of_parse (h : parse s = .ok p) :
    ((trim s.toList).takeWhile (· != '-')).length = 4 := by
  obtain ⟨y, -, year, month, hbody, hyear, -⟩ := parse_eq_ok_iff.1 h
  rw [hbody, (takeWhile_written hyear _).1, hyear.length_eq]

/-- The hyphen of a printed period is elsewhere, unless the year has
four digits. -/
theorem length_takeWhile_toText (h : ¬(0 ≤ p.year ∧ p.year ≤ 9999)) :
    (p.toText.toList.takeWhile (· != '-')).length ≠ 4 := by
  rw [toText, String.toList_ofList, yearText]
  split
  · simp
  · rename_i hyear
    have hlong : 10 ^ 4 ≤ p.year.natAbs := by omega
    have hlength := mt (Nat.length_toDigits_le_iff (b := 10) (k := 4)
      (n := p.year.natAbs) (by decide) (by decide)).1 (not_lt.2 hlong)
    rw [(takeWhile_written (.plain ⟨rfl, isDigit_of_mem_digits,
      ofDigitChars_digits 4 _⟩) _).1]
    simp only [digits, List.length_append]
    omega

/-- A period is read as it was printed, or, where its year has not four
digits, not at all. This is every period: each is the one that is made
of its year and month (`of?_self`). -/
theorem parse_toText_eq (p : Period) : parse p.toText =
    if 0 ≤ p.year ∧ p.year ≤ 9999 then .ok p else .error ⟨p.toText⟩ := by
  split
  · rename_i h
    exact parse_toText p h.1 h.2
  · rename_i h
    cases hread : parse p.toText with
    | ok q =>
        have hlength := length_takeWhile_of_parse hread
        rw [trim_toText] at hlength
        exact absurd hlength (length_takeWhile_toText h)
    | error e => rw [parse_eq_error hread]

end Period

end Payroll
