import RecordMasking.Decimal.Shortest

/-!
# Numbers of JSON

A number without fraction and exponent is an integer when it fits 64 bits, and
all others are doubles.  A double is shown by its shortest decimal: with a
point while it has at most sixteen digits before it or four zeros behind it,
and with a signed exponent otherwise.
-/

namespace RecordMasking.Json

inductive Number where
  | natural (value : Nat)
  | negative (magnitude : Nat)
  | double (value : Float)

def zeros (count : Nat) : String :=
  String.ofList (List.replicate count '0')

def decimalText (decimal : Decimal) : String :=
  let digits := toString decimal.digits
  let length := (digits.length : Int)
  let point := length + decimal.exponent
  if 0 ≤ decimal.exponent && point ≤ 16 then
    digits ++ zeros decimal.exponent.toNat ++ ".0"
  else if 0 < point && point ≤ 16 then
    String.ofList (digits.toList.take point.toNat) ++ "." ++
      String.ofList (digits.toList.drop point.toNat)
  else if -5 < point && point ≤ 0 then
    "0." ++ zeros (-point).toNat ++ digits
  else
    let fraction := digits.toList.drop 1
    String.ofList (digits.toList.take 1) ++
      (if fraction.isEmpty then "" else "." ++ String.ofList fraction) ++
      (if 0 < point then "e+" else "e") ++ toString (point - 1)

def doubleText (value : Float) : String :=
  let negative := value.toBits.toNat ≥ UInt64.size / 2
  let binary := Binary.ofBits value.toBits
  (if negative then "-" else "") ++
    if binary.mantissa = 0 then "0.0" else decimalText binary.shortest

def Number.describe : Number → String
  | .natural value => "integer `" ++ toString value ++ "`"
  | .negative magnitude => "integer `-" ++ toString magnitude ++ "`"
  | .double value => "floating point `" ++ doubleText value ++ "`"

end RecordMasking.Json
