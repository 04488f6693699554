/-!
# Decimal digits

The number that a row of decimal digits stands for; numbers are told apart by
their numerals.
-/

namespace RecordMasking

def digitsValue (digits : List Char) : Nat :=
  digits.foldl (fun value digit => 10 * value + (digit.toNat - '0'.toNat)) 0

theorem toString_nat_inj {left right : Nat}
    (heq : toString left = toString right) : left = right := by
  have hdigits : Nat.toDigits 10 left = Nat.toDigits 10 right := by
    simpa using congrArg String.toList heq
  rw [← @Nat.ofDigitChars_ten_toDigits left, hdigits,
    Nat.ofDigitChars_ten_toDigits]

end RecordMasking
