import RecordMasking.Host.Reader

/-!
# Numbers, dates and times of a manifest

None of them tells anything about a dependency, but a malformed one makes the
whole manifest unreadable.  Single underscores may stand between digits; a
number in base ten has no zero in front; an integer fits 64 bits, and a number
with a point or an exponent is no greater than every double.
-/

namespace RecordMasking.Host.Reader

def sign : Reader Char :=
  either (one fun c => c = '+' || c = '-') (pure '+')

/-- Takes digits with single underscores between them, and answers the
digits. -/
def digits (isDigit : Char → Bool) : Reader (List Char) := do
  let first ← one isDigit
  let rest ← many do
    if (← peek).any isDigit then return some (← one isDigit)
    else if (← peek) = some '_' then
      drop 1
      return some (← one isDigit)
    else return none
  return first :: rest

/-- Takes a number in base ten, which is zero or starts with another digit. -/
def decimal : Reader (List Char) := do
  if (← peek) = some '0' then
    drop 1
    return ['0']
  else digits Char.isDigit

def digitValue (c : Char) : Nat :=
  if c.isDigit then c.toNat - '0'.toNat
  else if 'a' ≤ c then c.toNat - 'a'.toNat + 10
  else c.toNat - 'A'.toNat + 10

def valueOf (base : Nat) (digits : List Char) : Nat :=
  digits.foldl (fun value c => base * value + digitValue c) 0

def isHexDigit (c : Char) : Bool :=
  c.isDigit || ('a' ≤ c && c ≤ 'f') || ('A' ≤ c && c ≤ 'F')

/-- Takes an integer in base ten or, behind a zero and a letter, in another
base. -/
def integer : Reader Unit := do
  if ← sees ['0', 'x'] then
    drop 2
    fits 16 (← digits isHexDigit)
  else if ← sees ['0', 'o'] then
    drop 2
    fits 8 (← digits fun c => '0' ≤ c && c ≤ '7')
  else if ← sees ['0', 'b'] then
    drop 2
    fits 2 (← digits fun c => c = '0' || c = '1')
  else if (← sign) = '-' then
    if valueOf 10 (← decimal) > UInt64.size / 2 then fail
  else fits 10 (← decimal)
where
  fits (base : Nat) (digits : List Char) : Reader Unit :=
    if valueOf base digits < UInt64.size / 2 then pure () else fail

/-- Whether `digits * 10 ^ exponent` is closer to the double behind the
greatest one, were there one, than to the greatest. -/
def overflows (digits : Nat) (exponent : Int) : Bool :=
  let bound := (Nat.pow 2 54 - 1) * Nat.pow 2 970
  let length := Int.ofNat (toString digits).length
  if digits = 0 || length + exponent < 300 then false
  else if length + exponent > 320 then true
  else
    bound * Nat.pow 10 (-exponent).toNat ≤ digits * Nat.pow 10 exponent.toNat

/-- Takes the part of a number behind an `e`, and answers its value. -/
def exponent : Reader Int := do
  let _ ← one fun c => c = 'e' || c = 'E'
  let negative := (← sign) = '-'
  let size := Int.ofNat (valueOf 10 (← digits Char.isDigit))
  return if negative then -size else size

/-- Takes a number with a point, an exponent or both.  Only a positive one can
be too great. -/
def float : Reader Unit := do
  let negative := (← sign) = '-'
  let whole ← decimal
  let (fraction, power) ←
    if (← peek) = some '.' then do
      drop 1
      let fraction ← digits Char.isDigit
      pure (fraction, ← either exponent (pure 0))
    else do pure ([], ← exponent)
  let value := valueOf 10 (whole ++ fraction)
  if !negative && overflows value (power - Int.ofNat fraction.length) then fail

/-- Takes an infinity or what is no number. -/
def special : Reader Unit := do
  let _ ← sign
  either (expect ['i', 'n', 'f']) (expect ['n', 'a', 'n'])

/-- Takes two digits whose value lies between the given ones. -/
def twoDigits (least greatest : Nat) : Reader Unit := do
  let high ← one Char.isDigit
  let low ← one Char.isDigit
  let value := valueOf 10 [high, low]
  if value < least || greatest < value then fail

/-- Takes a date; months are not told apart by their lengths. -/
def date : Reader Unit := do
  for _ in [0, 1, 2, 3] do
    let _ ← one Char.isDigit
  expect ['-']
  twoDigits 1 12
  expect ['-']
  twoDigits 1 31

/-- Takes a time with its seconds, of which one may be a leap second. -/
def time : Reader Unit := do
  twoDigits 0 23
  expect [':']
  twoDigits 0 59
  expect [':']
  twoDigits 0 60
  optional do
    expect ['.']
    let _ ← one Char.isDigit
    let _ ← takeWhile Char.isDigit

def offset : Reader Unit := do
  let mark ← one fun c => c = 'Z' || c = 'z' || c = '+' || c = '-'
  if mark = '+' || mark = '-' then
    twoDigits 0 23
    expect [':']
    twoDigits 0 59

/-- Takes a date, a time, or both. -/
def moment : Reader Unit :=
  either
    (do
      date
      optional do
        let _ ← one fun c => c = 'T' || c = 't' || c = ' '
        time
        optional offset)
    time

/-- Takes a number, a date or a time. -/
def scalar : Reader Unit :=
  either moment (either float (either special integer))

end RecordMasking.Host.Reader
