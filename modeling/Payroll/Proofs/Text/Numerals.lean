/-
Numerals are read as they were written. A text is written as runs of
digits with marks between them, and each reader takes a run up to the
first character that is none: so every lemma here is about a run with
something behind it.

An amount comes back with its value and its scale. Only the sign of a
zero is lost, because a reader takes no notice of it
(`Decimal.unsigned`).
-/
import Payroll.Decimal.Text
import Payroll.Text.Blank
import Payroll.Proofs.Decimal.Value

namespace Payroll

-- ================================================================= digits

namespace Text

theorem isDigit_of_mem_digits {width n : ℕ} :
    ∀ c ∈ digits width n, c.isDigit = true := by
  intro c hc
  rcases List.mem_append.1 hc with h | h
  · obtain ⟨-, rfl⟩ := List.mem_replicate.1 h
    rfl
  · exact Nat.isDigit_of_mem_toDigits (by decide) (by decide) h

theorem digits_ne_nil (width n : ℕ) : digits width n ≠ [] := by
  simp [digits, Nat.toDigits_ne_nil]

theorem ofDigitChars_digits (width n : ℕ) :
    Nat.ofDigitChars 10 (digits width n) 0 = n := by
  rw [digits, ofDigitChars_zeros, Nat.ofDigitChars_ten_toDigits]

theorem width_le_length_digits (width n : ℕ) :
    width ≤ (digits width n).length := by
  simp only [digits, List.length_append, List.length_replicate]
  omega

/-- A number with room in a width fills it. -/
theorem length_digits {width n : ℕ} (hw : 0 < width)
    (h : n < 10 ^ width) : (digits width n).length = width := by
  have hle := (Nat.length_toDigits_le_iff (by decide) hw).2 h
  simp only [digits, List.length_append, List.length_replicate]
  omega

theorem isBlank_of_isDigit {c : Char} (h : c.isDigit = true) :
    isBlank c = false := by
  simp only [Char.isDigit, Bool.and_eq_true, decide_eq_true_eq] at h
  have hlow : 48 ≤ c.toNat := h.1
  have hhigh : c.toNat ≤ 57 := h.2
  simp only [isBlank, Bool.or_eq_false_iff, Bool.and_eq_false_iff,
    decide_eq_false_iff_not, beq_eq_false_iff_ne]
  omega

theorem ne_of_isDigit {c d : Char} (h : c.isDigit = true)
    (hd : d.isDigit = false) : c ≠ d := by
  rintro rfl
  rw [h] at hd
  cases hd

/-- The value of a run only grows with what is added to it. -/
theorem le_ofDigitChars (cs : List Char) (n : ℕ) :
    n ≤ Nat.ofDigitChars 10 cs n := by
  rw [Nat.ofDigitChars_eq_ofDigitChars_zero]
  have := Nat.le_mul_of_pos_left n (Nat.pow_pos (n := cs.length)
    (by decide : 0 < 10))
  omega

end Text

-- ================================================================ amounts

namespace Decimal

open Text

variable {n s : ℕ} {cs : List Char}

/-- A run of digits before the point. -/
theorem readFrom_whole {begun : Bool} (hcs : ∀ c ∈ cs, c.isDigit = true)
    (hlt : Nat.ofDigitChars 10 cs n < limit) (rest : List Char) :
    readFrom n s begun false (cs ++ rest)
      = readFrom (Nat.ofDigitChars 10 cs n) s (begun || !cs.isEmpty) false
        rest := by
  induction cs generalizing n begun with
  | nil => simp
  | cons c cs ih =>
      obtain ⟨hc, hcs⟩ := List.forall_mem_cons.1 hcs
      rw [Nat.ofDigitChars_cons, Nat.mul_comm] at hlt ⊢
      have hstep := (le_ofDigitChars cs _).trans_lt hlt
      rw [List.cons_append, readFrom, if_pos hc]
      simp only [Bool.not_false, if_true, if_pos hstep]
      rw [ih hcs hlt]
      simp

/-- A run of digits behind the point, with which the text ends. -/
theorem readFrom_part (hcs : ∀ c ∈ cs, c.isDigit = true)
    (hlt : Nat.ofDigitChars 10 cs n < limit)
    (hs : s + cs.length ≤ maxScale) :
    readFrom n s true true cs
      = some (Nat.ofDigitChars 10 cs n, s + cs.length) := by
  induction cs generalizing n s with
  | nil => rfl
  | cons c cs ih =>
      obtain ⟨hc, hcs⟩ := List.forall_mem_cons.1 hcs
      rw [Nat.ofDigitChars_cons, Nat.mul_comm] at hlt ⊢
      rw [List.length_cons] at hs ⊢
      have hstep := (le_ofDigitChars cs _).trans_lt hlt
      have hroom : s < maxScale := by omega
      rw [readFrom, if_pos hc]
      simp only [Bool.not_true, Bool.false_eq_true, if_false,
        if_pos (And.intro hroom hstep)]
      rw [ih hcs hlt (by omega)]
      congr 2
      omega

theorem readFrom_magnitudeText (hn : n < limit) (hs : s ≤ maxScale) :
    readFrom 0 0 false false (magnitudeText n s) = some (n, s) := by
  have hdigits : ∀ c ∈ digits (s + 1) n, c.isDigit = true :=
    isDigit_of_mem_digits
  have hvalue := ofDigitChars_digits (s + 1) n
  have hwidth := width_le_length_digits (s + 1) n
  unfold magnitudeText
  generalize digits (s + 1) n = ds at hdigits hvalue hwidth ⊢
  simp only
  split
  · rename_i hzero
    have hne : ds.isEmpty = false := by
      rw [List.isEmpty_eq_false_iff, ← List.length_pos_iff]
      omega
    rw [← List.append_nil ds, readFrom_whole hdigits (by rwa [hvalue]),
      hvalue, hne, hzero]
    rfl
  · rename_i hpos
    have hsplit := List.take_append_drop (ds.length - s) ds
    generalize hwhole : ds.take (ds.length - s) = whole at hsplit ⊢
    generalize hpart : ds.drop (ds.length - s) = part at hsplit ⊢
    have hlength : part.length = s := by
      rw [← hpart, List.length_drop]
      omega
    have hne : whole.isEmpty = false := by
      rw [List.isEmpty_eq_false_iff, ← List.length_pos_iff, ← hwhole,
        List.length_take]
      omega
    rw [← hsplit, Nat.ofDigitChars_append] at hvalue
    have hlast : Nat.ofDigitChars 10 part (Nat.ofDigitChars 10 whole 0)
        < limit := by rwa [hvalue]
    rw [← hsplit] at hdigits
    rw [readFrom_whole (fun c hc => hdigits c (List.mem_append_left _ hc))
      ((le_ofDigitChars part _).trans_lt hlast), hne]
    rw [readFrom, if_neg (by decide)]
    simp only [Bool.or_true, Bool.not_false, Bool.and_true, decide_true,
      if_true]
    rw [readFrom_part (fun c hc => hdigits c (List.mem_append_right _ hc))
      hlast (by omega), hvalue, hlength, Nat.zero_add]

/-- A text that starts with a digit has no sign. -/
theorem splitSign_eq (h : ∀ c ∈ cs.head?, c.isDigit = true) :
    splitSign cs = (false, cs) := by
  cases cs with
  | nil => rfl
  | cons c cs =>
      have hc : c.isDigit = true := h c rfl
      have hminus : c ≠ '-' := ne_of_isDigit hc (by decide)
      have hplus : c ≠ '+' := ne_of_isDigit hc (by decide)
      unfold splitSign
      split
      · rename_i heq
        exact absurd (List.cons.inj heq).1 hminus
      · rename_i heq
        exact absurd (List.cons.inj heq).1 hplus
      · rfl

theorem isDigit_head_magnitudeText (n s : ℕ) :
    ∀ c ∈ (magnitudeText n s).head?, c.isDigit = true := by
  have hdigits : ∀ c ∈ digits (s + 1) n, c.isDigit = true :=
    isDigit_of_mem_digits
  have hwidth := width_le_length_digits (s + 1) n
  unfold magnitudeText
  generalize digits (s + 1) n = ds at hdigits hwidth ⊢
  intro c hc
  simp only at hc
  split at hc
  · exact hdigits c (List.mem_of_mem_head? hc)
  · have hne : ds.take (ds.length - s) ≠ [] := by
      rw [← List.length_pos_iff, List.length_take]
      omega
    rw [List.head?_append_of_ne_nil _ hne] at hc
    exact hdigits c (List.mem_of_mem_take (List.mem_of_mem_head? hc))

/-- The amount without the sign of a zero. -/
def unsigned (a : Decimal) : Decimal := a.signZero false

/-- It is of the same value. -/
theorem unsigned_equiv (a : Decimal) : a.unsigned ≈ a := by
  rw [equiv_iff_toRat, unsigned, toRat_signZero]

/-- An amount is read as it was written, but for the sign of a zero. -/
theorem ofText?_toText (a : Decimal) : ofText? a.toText = some a.unsigned := by
  have hsign : splitSign a.toText.toList
      = (a.negative, magnitudeText a.magnitude a.scale) := by
    unfold toText
    rw [String.toList_ofList]
    cases a.negative with
    | true => rfl
    | false => exact splitSign_eq (isDigit_head_magnitudeText _ _)
  have hpositional : ofPositional? a.toText.toList = some a.unsigned := by
    unfold ofPositional?
    rw [hsign]
    simp only
    rw [readFrom_magnitudeText a.magnitude_lt a.scale_le, Option.bind_some,
      ofMagnitude?, dif_pos ⟨a.magnitude_lt, a.scale_le⟩]
    rfl
  rw [ofText?, hpositional]
  rfl

/-- What a number is written with. -/
theorem mem_toText {a : Decimal} {c : Char} (h : c ∈ a.toText.toList) :
    c.isDigit = true ∨ c = '.' ∨ c = '-' := by
  have hbody : c ∈ magnitudeText a.magnitude a.scale →
      c.isDigit = true ∨ c = '.' := by
    intro hc
    unfold magnitudeText at hc
    simp only at hc
    split at hc
    · exact .inl (Text.isDigit_of_mem_digits c hc)
    · rcases List.mem_append.1 hc with hc | hc
      · exact .inl (Text.isDigit_of_mem_digits c (List.mem_of_mem_take hc))
      · rcases List.mem_cons.1 hc with hc | hc
        · exact .inr hc
        · exact .inl
            (Text.isDigit_of_mem_digits c (List.mem_of_mem_drop hc))
  unfold toText at h
  rw [String.toList_ofList] at h
  split at h
  · rcases List.mem_cons.1 h with h | h
    · exact .inr (.inr h)
    · rcases hbody h with h | h
      · exact .inl h
      · exact .inr (.inl h)
  · rcases hbody h with h | h
    · exact .inl h
    · exact .inr (.inl h)

/-- No other character stands in a number. -/
theorem not_mem_toText {a : Decimal} {c : Char} (hdigit : c.isDigit = false)
    (hpoint : c ≠ '.') (hsign : c ≠ '-') : c ∉ a.toText.toList := by
  intro h
  rcases mem_toText h with h | h | h
  · rw [hdigit] at h
    cases h
  · exact hpoint h
  · exact hsign h

end Decimal

end Payroll
