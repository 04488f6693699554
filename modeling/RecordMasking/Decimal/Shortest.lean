/-!
# Shortest decimals

A double stands for `mantissa * 2 ^ exponent`, and every real number close
enough to it is rounded to it.  Among the decimals of one, two, … digits the
first that is close enough to a double is the shortest one that reads back.
-/

namespace RecordMasking

/-- A positive double as an integer times a power of two. -/
structure Binary where
  mantissa : Nat
  exponent : Int
deriving DecidableEq, Repr

/-- The least mantissa of a double that is not subnormal: one with 53 binary
digits. -/
def Binary.unit : Nat := Nat.pow 2 52

/-- The magnitude that the bits of a finite double stand for. -/
def Binary.ofBits (bits : UInt64) : Binary :=
  let fraction : Nat := bits.toNat % Binary.unit
  let biased : Nat := bits.toNat / Binary.unit % 2048
  if biased = 0 then ⟨fraction, -1074⟩
  else ⟨fraction + Binary.unit, Int.ofNat biased - 1075⟩

/-- The decimal `digits * 10 ^ exponent`. -/
structure Decimal where
  digits : Nat
  exponent : Int
deriving DecidableEq, Repr

/-- Quarters of the mantissa's unit, brought to a common scale with decimals
of the given exponent. -/
def Binary.scale (value : Binary) (ten : Int) (quarters : Nat) : Nat :=
  quarters * Nat.pow 2 (value.exponent - 2).toNat * Nat.pow 10 (-ten).toNat

def Decimal.scale (value : Binary) (ten : Int) (digits : Nat) : Nat :=
  digits * Nat.pow 2 (2 - value.exponent).toNat * Nat.pow 10 ten.toNat

/-- Whether a decimal is rounded to the double.  The ends of the interval
belong to it when the mantissa is even, and below a power of two the interval
is half as wide. -/
def Binary.readsBack (value : Binary) (decimal : Decimal) : Bool :=
  let quarters := 4 * value.mantissa
  let narrow := value.mantissa = Binary.unit && value.exponent > -1074
  let low := value.scale decimal.exponent (quarters - if narrow then 1 else 2)
  let high := value.scale decimal.exponent (quarters + 2)
  let point := Decimal.scale value decimal.exponent decimal.digits
  if value.mantissa % 2 = 0 then low ≤ point && point ≤ high
  else low < point && point < high

def Binary.magnitude (value : Binary) : Int :=
  let exponents := (List.range 633).map fun n => 308 - Int.ofNat n
  (exponents.find? fun ten =>
    Decimal.scale value ten 1 ≤ value.scale ten (4 * value.mantissa)).getD 0

/-- The neighbours of the double on the grid of the given exponent, the nearer
one first. -/
def Binary.neighbours (value : Binary) (ten : Int) : List Decimal :=
  let point := value.scale ten (4 * value.mantissa)
  let unit := Decimal.scale value ten 1
  let floor := point / unit
  let rest := point % unit
  if 2 * rest < unit || (2 * rest = unit && floor % 2 = 0) then
    [⟨floor, ten⟩, ⟨floor + 1, ten⟩]
  else [⟨floor + 1, ten⟩, ⟨floor, ten⟩]

/-- The shortest decimal that reads back.  Grids are tried from the coarsest
on, and only on that one the digits can end in a zero. -/
def Binary.shortest (value : Binary) : Decimal :=
  let grids := (List.range 17).map fun n => value.magnitude - Int.ofNat n
  let found :=
    (grids.findSome? fun ten =>
      (value.neighbours ten).find? value.readsBack).getD ⟨0, 0⟩
  if found.digits = 10 then ⟨1, found.exponent + 1⟩ else found

end RecordMasking
