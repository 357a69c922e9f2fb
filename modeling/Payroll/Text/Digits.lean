/-
Numbers as decimal digits. `digits` writes a number in at least a given
width, and `readDigits` reads a text that is nothing but digits; only
the ten ASCII digits count. `readDigits_digits` says that reading
undoes writing at every width.
-/

namespace Payroll.Text

/-- The digits of `n`, with zeros in front up to `width`. -/
def digits (width n : Nat) : List Char :=
  let ds := Nat.toDigits 10 n
  List.replicate (width - ds.length) '0' ++ ds

/-- The number that a non-empty run of digits stands for. -/
def readDigits (cs : List Char) : Option Nat :=
  if cs.isEmpty || cs.any (!·.isDigit) then none
  else some (Nat.ofDigitChars 10 cs 0)

/-- A number that may have a plus sign in front. -/
def readCount : List Char → Option Nat
  | '+' :: cs => readDigits cs
  | cs => readDigits cs

theorem ofDigitChars_zeros (k : Nat) (cs : List Char) :
    Nat.ofDigitChars 10 (List.replicate k '0' ++ cs) 0
      = Nat.ofDigitChars 10 cs 0 := by
  induction k with
  | zero => rfl
  | succ k ih => simpa [List.replicate_succ, Nat.ofDigitChars_cons] using ih

theorem readDigits_digits (width n : Nat) :
    readDigits (digits width n) = some n := by
  have hne : Nat.toDigits 10 n ≠ [] := Nat.toDigits_ne_nil
  have hd : ∀ c ∈ digits width n, c.isDigit = true := by
    intro c hc
    rcases List.mem_append.1 hc with h | h
    · obtain ⟨-, rfl⟩ := List.mem_replicate.1 h
      rfl
    · exact Nat.isDigit_of_mem_toDigits (by decide) (by decide) h
  have hany : (digits width n).any (fun c => !c.isDigit) = false := by
    rw [List.any_eq_false]
    intro c hc
    simp [hd c hc]
  have hemp : (digits width n).isEmpty = false := by
    simp [digits, hne]
  unfold readDigits
  rw [hany, hemp]
  simp only [Bool.or_self, Bool.false_eq_true, ↓reduceIte]
  rw [show digits width n = List.replicate
      (width - (Nat.toDigits 10 n).length) '0' ++ Nat.toDigits 10 n from rfl,
    ofDigitChars_zeros, Nat.ofDigitChars_toDigits (by decide) (by decide)]

end Payroll.Text
