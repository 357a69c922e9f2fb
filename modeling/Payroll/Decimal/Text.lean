/-
Amounts as text. An amount is written with all the fraction digits of
its scale, so zero at scale two is 0.00, and it is read with as many.

Reading is generous in three ways. Underscores may divide digits once
a first digit has been read. A fraction longer than an amount can hold
is rounded at the first digit that does not fit, a half going up in
magnitude, and the digits behind it are only checked. And a text that
is no positional number may be a scientific one, with a whole exponent
of at most 28 either way; digits that its point would push beyond the
largest scale are rounded off in the same way.

A positional zero has no sign, whatever is written in front of it. A
scientific number whose digits are all rounded off keeps its own.
-/
import Payroll.Decimal.Rounding
import Payroll.Text.Digits

namespace Payroll.Decimal

open Payroll.Text
open scoped Power

-- =============================================================== writing

/-- The text of a number without its sign: digits, with a point before
the last `scale` of them. -/
def magnitudeText (n scale : Nat) : List Char :=
  let ds := digits (scale + 1) n
  if scale = 0 then ds
  else
    ds.take (ds.length - scale) ++ '.' :: ds.drop (ds.length - scale)

/-- The text of an amount, with every fraction digit of its scale. -/
def toText (a : Decimal) : String :=
  let body := magnitudeText a.magnitude a.scale
  String.ofList (if a.negative then '-' :: body else body)

-- =============================================================== reading

/-- A magnitude and its scale. -/
abbrev Magnitude := Nat × Nat

/-- A magnitude that rounding may have carried to the limit: it then
gives up a digit, if it has one. -/
def carry (n scale : Nat) : Option Magnitude :=
  if n < limit then some (n, scale)
  else if scale = 0 then none
  else some ((n + 4) / 10, scale - 1)

/-- Reads on from the magnitude and scale read so far; `begun` says
that there has been a digit and `pointed` that there has been a
point. -/
def readFrom (n scale : Nat) (begun pointed : Bool) :
    List Char → Option Magnitude
  | [] => if begun then some (n, scale) else none
  | c :: rest =>
    if c.isDigit then
      let digit := c.toNat - '0'.toNat
      let n' := n * 10 + digit
      if !pointed then
        if n' < limit then readFrom n' scale true false rest else none
      else if scale < maxScale ∧ n' < limit then
        readFrom n' (scale + 1) true true rest
      else if rest.all fun c => c.isDigit || c == '_' then
        carry (if 5 ≤ digit then n + 1 else n) scale
      else none
    else if c = '.' && !pointed then readFrom n scale begun true rest
    else if c = '_' && begun then readFrom n scale begun pointed rest
    else none

/-- A sign, if there is one, and what follows it. -/
def splitSign : List Char → Bool × List Char
  | '-' :: cs => (true, cs)
  | '+' :: cs => (false, cs)
  | cs => (false, cs)

/-- The amount of a magnitude, if it is in range. A zero is read
without its sign. -/
def ofMagnitude? (negative : Bool) (m : Magnitude) : Option Decimal :=
  if h : m.1 < limit ∧ m.2 ≤ maxScale then
    let a : Decimal :=
      { negative, magnitude := m.1, scale := m.2
        magnitude_lt := h.1, scale_le := h.2 }
    some (a.signZero false)
  else none

/-- A positional number: a sign, digits, and a point among them. -/
def ofPositional? (cs : List Char) : Option Decimal :=
  let (negative, body) := splitSign cs
  (readFrom 0 0 false false body).bind (ofMagnitude? negative)

/-- Divides by a power of ten: the point moves left, and digits that
have no room behind it are rounded off. A negative amount stays
negative even if no digit of it is left. -/
def shiftDown (a : Decimal) (places : Nat) (h : places ≤ maxScale) :
    Decimal :=
  let kept := a.round .awayFromZero (maxScale - places)
  let moved : Decimal :=
    { kept with
      scale := kept.scale + places
      scale_le := Nat.add_le_of_le_sub h (a.scale_round_le _ _) }
  moved.signZero a.negative

/-- Multiplies by a power of ten: the point moves right through the
fraction and on into zeros, if the magnitude has room for them. -/
def shiftUp? (a : Decimal) (places : Nat) : Option Decimal :=
  ofMagnitude? a.negative
    (a.magnitude * 10 ^ (places - a.scale), a.scale - places)

/-- Multiplies or divides by a power of ten with an exponent of at most
28. -/
def shiftPoint? (a : Decimal) (down : Bool) (places : Nat) :
    Option Decimal :=
  if h : places ≤ maxScale then
    if down then some (a.shiftDown places h) else a.shiftUp? places
  else none

/-- A scientific number: a positional one, the letter e in either case,
and an exponent. -/
def ofScientific? (cs : List Char) : Option Decimal :=
  let isMark := fun c => c == 'e' || c == 'E'
  match cs.dropWhile (!isMark ·) with
  | [] => none
  | _ :: exponent =>
    let (down, count) := match exponent with
      | '-' :: rest => (true, rest)
      | rest => (false, rest)
    match ofPositional? (cs.takeWhile (!isMark ·)), readCount count with
    | some a, some places => a.shiftPoint? down places
    | _, _ => none

/-- The amount that a text stands for. -/
def ofText? (s : String) : Option Decimal :=
  (ofPositional? s.toList).or (ofScientific? s.toList)

end Payroll.Decimal
