/-
Numbers in documents. A `Literal` is a number as it is spelled: a sign,
digits with a point among them, a power of ten. A `Number` is what is
kept of it: a whole number exactly, any other as the shortest decimal
number that its double can be told by.

Formats differ in how they come to the double. `ofLiteral?` takes the
nearest one. `ofJson?` reads as many digits as fit 64 bits, makes them a
double and multiplies or divides it by a power of ten, rounding once
more; the two agree on all but very long or very small numbers.
-/
import Payroll.Decimal.Text
import Payroll.Document.Double

namespace Payroll

open scoped Power

/-- A number as written: a whole number, or a coefficient and a power
of ten. -/
inductive Number where
  | whole (n : Int)
  | fraction (coefficient exponent : Int)
deriving DecidableEq

/-- The spelling of a number: digits before and behind the point. The
part behind it and the exponent may be missing. -/
structure Literal where
  negative : Bool
  whole : List Char
  part : Option (List Char)
  exponent : Option Int

namespace Literal

open Text

/-- The exponent behind its mark, with a sign of its own. -/
def readExponent? : List Char → Option Int
  | '-' :: rest => (readDigits rest).map fun n => -(n : Int)
  | rest => (readCount rest).map fun n => (n : Int)

/-- The spelling of a number, with a digit before or after the point. -/
def ofChars? (cs : List Char) : Option Literal := do
  let (negative, body) := Decimal.splitSign cs
  let isMark := fun c => c == 'e' || c == 'E'
  let mantissa := body.takeWhile (!isMark ·)
  let whole := mantissa.takeWhile Char.isDigit
  let part ← match mantissa.dropWhile Char.isDigit with
    | [] => some none
    | '.' :: part => if part.all Char.isDigit then some (some part) else none
    | _ => none
  if whole.isEmpty && (part.getD []).isEmpty then none
  else
    let exponent ← match body.dropWhile (!isMark ·) with
      | [] => some none
      | _ :: rest => (readExponent? rest).map some
    return { negative, whole, part, exponent }

end Literal

namespace Number

def ofDouble (negative : Bool) (x : Double) : Number :=
  let (c, e) := x.shortest
  .fraction (if negative then -c else c) e

/-- The number of a spelling by the nearest double; `none` if that is too
large. -/
def ofLiteral? (l : Literal) : Option Number :=
  let digits := l.whole ++ l.part.getD []
  let n := Nat.ofDigitChars 10 digits 0
  let e := l.exponent.getD 0 - (l.part.getD []).length
  if n = 0 ∨ e + digits.length < -330 then some (ofDouble l.negative .zero)
  else if 310 < e then none
  else
    let x := Double.nearest (n * 10 ^ e.toNat) (10 ^ (-e).toNat)
    if x.isFinite then some (ofDouble l.negative x) else none

-- =================================================================== JSON

/-- Adds digits to a coefficient as long as it fits 64 bits, and says how
many were added. -/
def takeDigits (n taken : Nat) : List Char → Nat × Nat
  | [] => (n, taken)
  | c :: rest =>
    let n' := 10 * n + (c.toNat - '0'.toNat)
    if n' < 2 ^ (64 : Nat) then takeDigits n' (taken + 1) rest else (n, taken)

/-- Multiplies a double by a power of ten, which is itself rounded. A
very small power is applied in steps. -/
def timesTen (x : Double) (e : Int) : Double :=
  let ten := fun (k : Nat) => Double.nearest (10 ^ k) 1
  if 0 ≤ e then x.mul (ten e.toNat)
  else if -308 ≤ e then x.div (ten (-e).toNat)
  else if x.mantissa = 0 then x
  else timesTen (x.div (ten 308)) (e + 308)
termination_by (-e).toNat

/-- The number of a spelling in JSON. Whole ones of up to 64 bits are
exact. A minus zero is no whole number. -/
def ofJson? (l : Literal) : Option Number :=
  let (n, taken) := takeDigits 0 0 l.whole
  let isExact := taken = l.whole.length
  if isExact ∧ l.part.isNone ∧ l.exponent.isNone ∧
      (!l.negative ∨ (0 < n ∧ n ≤ 2 ^ (63 : Nat))) then
    some (.whole (if l.negative then -n else n))
  else
    let (n, behind) := takeDigits n 0 (l.part.getD [])
    let e := l.exponent.getD 0 + (l.whole.length - taken : Nat) - behind
    if n = 0 then some (ofDouble l.negative .zero)
    else if 308 < e then none
    else
      let x := timesTen (Double.nearest n 1) e
      if x.isFinite then some (ofDouble l.negative x) else none

-- ================================================================ amounts

/-- The amount of a number. A whole number has to fit a machine word. A
fraction is read from its positional text, and has no sign if it is
zero. -/
def toDecimal? : Number → Option Decimal
  | whole n =>
    if -(2 ^ (63 : Nat)) ≤ n ∧ n < 2 ^ (64 : Nat) then
      Decimal.ofMagnitude? (n < 0) (n.natAbs, 0)
    else none
  | fraction c e =>
    if c = 0 then some .zero
    else
      Decimal.ofPositional? ((if c < 0 then ['-'] else [])
        ++ Decimal.magnitudeText (c.natAbs * 10 ^ e.toNat) (-e).toNat)

end Number

end Payroll
