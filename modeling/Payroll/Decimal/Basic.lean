/-
Amounts: decimal numbers of bounded size. An amount is a sign, a
magnitude below 2^96 and a power of ten with exponent at most 28 to
divide by. It keeps its scale, so 1.50 and 1.5 are two amounts of one
value, and zero keeps its sign, so there is a 0.00 and a -0.00.

Two readings of an amount are used side by side. `toRat` is its value,
and every order (`<`, `≤`, `≈`, `min`) compares values. Its spelling
is the sign, magnitude and scale as they stand, which decide how it is
printed and where arithmetic starts to round. `coefficient` is sign and
magnitude as one integer; the value depends on nothing else but the
scale.

A minus zero is rare: `of` never makes one. It arises only where a
negative amount is rounded away by an operation that says so with
`signZero`, and it prints like the number that it once was.

`shorten` drops zeros at the end of the fraction and never changes the
value; `normalize` drops all of them.
-/
import Payroll.Decimal.Quotient

namespace Payroll

open scoped Power

/-- The first magnitude that an amount cannot have. -/
def Decimal.limit : Nat := 2 ^ (96 : Nat)

/-- The largest scale of an amount. -/
def Decimal.maxScale : Nat := 28

/-- The amount `magnitude / 10 ^ scale`, or its opposite. -/
structure Decimal where
  negative : Bool
  magnitude : Nat
  scale : Nat
  magnitude_lt : magnitude < Decimal.limit := by decide
  scale_le : scale ≤ Decimal.maxScale := by decide
deriving DecidableEq

namespace Decimal

/-- The amount `coefficient / 10 ^ scale`, its bounds checked where it
is written. Zero gets no sign. -/
def of (coefficient : Int) (scale : Nat)
    (hc : coefficient.natAbs < limit := by decide)
    (hs : scale ≤ maxScale := by decide) : Decimal :=
  { negative := decide (coefficient < 0), magnitude := coefficient.natAbs
    scale, magnitude_lt := hc, scale_le := hs }

/-- A whole amount, with no fraction digits. -/
def ofNat (n : Nat) (h : n < limit := by decide) : Decimal :=
  { negative := false, magnitude := n, scale := 0, magnitude_lt := h
    scale_le := Nat.zero_le maxScale }

def zero : Decimal := ofNat 0

def one : Decimal := ofNat 1

instance : Inhabited Decimal := ⟨zero⟩

/-- Numerals stand for amounts and wrap round at the limit. -/
instance (n : Nat) : OfNat Decimal n where
  ofNat := ofNat (n % limit) (Nat.mod_lt n (by decide))

/-- A numeral with a point keeps every digit behind it, zeros too. -/
instance : OfScientific Decimal where
  ofScientific digits hasPoint exponent :=
    if hasPoint then
      { negative := false, magnitude := digits % limit
        scale := min exponent maxScale
        magnitude_lt := Nat.mod_lt digits (by decide)
        scale_le := Nat.min_le_right exponent maxScale }
    else ofNat (digits * 10 ^ exponent % limit) (Nat.mod_lt _ (by decide))

/-- A count of minutes as an amount. -/
def ofUInt32 (n : UInt32) : Decimal :=
  ofNat n.toNat (Nat.lt_trans n.toNat_lt (by decide))

def isZero (a : Decimal) : Bool := a.magnitude == 0

/-- Sign and magnitude as an integer. -/
def coefficient (a : Decimal) : Int :=
  if a.negative then -a.magnitude else a.magnitude

@[simp] theorem natAbs_coefficient (a : Decimal) :
    a.coefficient.natAbs = a.magnitude := by
  unfold coefficient
  split <;> omega

@[simp] theorem coefficient_of (c : Int) (s : Nat)
    (hc : c.natAbs < limit) (hs : s ≤ maxScale) :
    (of c s hc hs).coefficient = c := by
  simp only [coefficient, of, decide_eq_true_eq]
  split <;> omega

/-- A zero with the sign asked for; any other amount as it is. -/
def signZero (negative : Bool) (a : Decimal) : Decimal :=
  if a.isZero then { a with negative } else a

@[simp] theorem coefficient_signZero (negative : Bool) (a : Decimal) :
    (a.signZero negative).coefficient = a.coefficient := by
  unfold signZero
  split
  · rename_i h
    have : a.magnitude = 0 := by simpa [isZero] using h
    simp [coefficient, this]
  · rfl

@[simp] theorem scale_signZero (negative : Bool) (a : Decimal) :
    (a.signZero negative).scale = a.scale := by
  unfold signZero
  split <;> rfl

-- ========================================================== the value

/-- The value of an amount. -/
def toRat (a : Decimal) : Rat := mkRat a.coefficient (10 ^ a.scale)

/-- Order by value: both coefficients brought to a common scale. -/
instance : LE Decimal where
  le a b := a.coefficient * 10 ^ b.scale ≤ b.coefficient * 10 ^ a.scale

instance : LT Decimal where
  lt a b := a.coefficient * 10 ^ b.scale < b.coefficient * 10 ^ a.scale

/-- Equality of value: 1.50 and 1.5 are equivalent and not equal. -/
instance : HasEquiv Decimal where
  Equiv a b := a.coefficient * 10 ^ b.scale = b.coefficient * 10 ^ a.scale

instance (a b : Decimal) : Decidable (a ≤ b) := Int.decLe _ _

instance (a b : Decimal) : Decidable (a < b) := Int.decLt _ _

instance (a b : Decimal) : Decidable (a ≈ b) := Int.instDecidableEq _ _

/-- The lesser of two amounts; of two spellings of one value, the
first. -/
instance : Min Decimal where
  min a b := if b < a then b else a

-- ======================================================= other spellings

/-- The opposite amount. -/
def neg (a : Decimal) : Decimal := { a with negative := !a.negative }

instance : Neg Decimal := ⟨neg⟩

@[simp] theorem coefficient_neg (a : Decimal) :
    (-a).coefficient = -a.coefficient := by
  show (neg a).coefficient = _
  cases h : a.negative <;> simp [neg, coefficient, h]

/-- Drops the last `places` fraction digits if all of them are
zeros. -/
def shorten (places : Nat) (a : Decimal) : Decimal :=
  if places ≤ a.scale ∧ a.magnitude % 10 ^ places = 0 then
    { a with
      magnitude := a.magnitude / 10 ^ places
      scale := a.scale - places
      magnitude_lt :=
        Nat.lt_of_le_of_lt (Nat.div_le_self _ _) a.magnitude_lt
      scale_le := Nat.le_trans (Nat.sub_le _ _) a.scale_le }
  else a

/-- The shortest spelling of an amount: no fraction ends in a zero, and
zero is written with no fraction and no sign at all. -/
def normalize (a : Decimal) : Decimal :=
  if a.isZero then zero else Nat.repeat (shorten 1) a.scale a

end Decimal

end Payroll
