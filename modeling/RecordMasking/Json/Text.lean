/-!
# Strings of JSON

Writing a string escapes quotes, backslashes and control characters.  Reading
one undoes every escape there is: a character beyond the sixteen-bit range is
escaped by two units, and neither of them can stand alone.
-/

namespace RecordMasking.Json

inductive JsonFault where
  | malformed
  | ended
  /-- Well-formed so far, but not what is wanted. -/
  | unsuitable (complaint : String)
deriving DecidableEq, Repr

def JsonFault.message : JsonFault → String
  | .malformed => "syntax"
  | .ended => "eof"
  | .unsuitable complaint => "data: " ++ complaint

def hexDigit (value : Nat) : Char :=
  if value < 10 then Char.ofNat ('0'.toNat + value)
  else Char.ofNat ('a'.toNat + (value - 10))

def writeChar (c : Char) : List Char :=
  if c = '"' then ['\\', '"']
  else if c = '\\' then ['\\', '\\']
  else if c = '\x08' then ['\\', 'b']
  else if c = '\x0c' then ['\\', 'f']
  else if c = '\n' then ['\\', 'n']
  else if c = '\r' then ['\\', 'r']
  else if c = '\t' then ['\\', 't']
  else if c.toNat < 32 then
    ['\\', 'u', '0', '0', hexDigit (c.toNat / 16), hexDigit (c.toNat % 16)]
  else [c]

def writeText (text : String) : String :=
  String.ofList ('"' :: text.toList.flatMap writeChar ++ ['"'])

def hexValue? (c : Char) : Option Nat :=
  if '0' ≤ c && c ≤ '9' then some (c.toNat - '0'.toNat)
  else if 'a' ≤ c && c ≤ 'f' then some (c.toNat - 'a'.toNat + 10)
  else if 'A' ≤ c && c ≤ 'F' then some (c.toNat - 'A'.toNat + 10)
  else none

def unit? (a b c d : Char) : Option Nat := do
  return ((← hexValue? a) * 16 + (← hexValue? b)) * 256 +
    ((← hexValue? c) * 16 + (← hexValue? d))

def isLeading (unit : Nat) : Bool := 0xd800 ≤ unit && unit < 0xdc00

def isTrailing (unit : Nat) : Bool := 0xdc00 ≤ unit && unit < 0xe000

def pairChar (leading trailing : Nat) : Char :=
  Char.ofNat ((leading - 0xd800) * 1024 + (trailing - 0xdc00) + 0x10000)

/-- What a backslash and a character stand for, apart from units. -/
def escape? (c : Char) : Option Char :=
  if c = '"' then some '"'
  else if c = '\\' then some '\\'
  else if c = '/' then some '/'
  else if c = 'b' then some '\x08'
  else if c = 'f' then some '\x0c'
  else if c = 'n' then some '\n'
  else if c = 'r' then some '\r'
  else if c = 't' then some '\t'
  else none

/-- The fault of fewer than four characters in place of four digits.  A
character beyond ASCII fills the places of several digits. -/
def shortUnit (rest : List Char) : JsonFault :=
  if (String.ofList rest).utf8ByteSize < 4 then .ended else .malformed

def takeUnit : List Char → Except JsonFault (Nat × List Char)
  | a :: b :: c :: d :: rest =>
      match unit? a b c d with
      | some unit => .ok (unit, rest)
      | none => .error .malformed
  | rest => .error (shortUnit rest)

/-- Reads the second of two units behind the first one. -/
def takeTrailing (leading : Nat) :
    List Char → Except JsonFault (Char × List Char)
  | [] => .error .ended
  | ['\\'] => .error .ended
  | '\\' :: 'u' :: rest =>
      match takeUnit rest with
      | .error fault => .error fault
      | .ok (unit, rest) =>
          if isTrailing unit then .ok (pairChar leading unit, rest)
          else .error .malformed
  | _ => .error .malformed

/-- Reads what an escape stands for, behind its backslash. -/
def takeEscape : List Char → Except JsonFault (Char × List Char)
  | [] => .error .ended
  | 'u' :: rest =>
      match takeUnit rest with
      | .error fault => .error fault
      | .ok (unit, rest) =>
          if isTrailing unit then .error .malformed
          else if isLeading unit then takeTrailing unit rest
          else .ok (Char.ofNat unit, rest)
  | c :: rest =>
      match escape? c with
      | some meaning => .ok (meaning, rest)
      | none => .error .malformed

/-- Reads a string behind its opening quote; `fuel` bounds its characters. -/
def takeChars : Nat → List Char → Except JsonFault (List Char × List Char)
  | 0, _ => .error .malformed
  | _ + 1, [] => .error .ended
  | fuel + 1, c :: rest =>
      if c = '"' then .ok ([], rest)
      else if c = '\\' then do
        let (meaning, rest) ← takeEscape rest
        let (chars, rest) ← takeChars fuel rest
        return (meaning :: chars, rest)
      else if c.toNat < 32 then .error .malformed
      else do
        let (chars, rest) ← takeChars fuel rest
        return (c :: chars, rest)

def takeText (input : List Char) : Except JsonFault (String × List Char) := do
  let (chars, rest) ← takeChars (input.length + 1) input
  return (String.ofList chars, rest)

/-- Passes over a string behind its opening quote; its units may stand
alone. -/
def skipChars : Nat → List Char → Except JsonFault (List Char)
  | 0, _ => .error .malformed
  | _ + 1, [] => .error .ended
  | fuel + 1, c :: rest =>
      if c = '"' then .ok rest
      else if c = '\\' then
        match rest with
        | [] => .error .ended
        | 'u' :: rest => do
            let (_, rest) ← takeUnit rest
            skipChars fuel rest
        | c :: rest =>
            if (escape? c).isSome then skipChars fuel rest
            else .error .malformed
      else if c.toNat < 32 then .error .malformed
      else skipChars fuel rest

def skipText (input : List Char) : Except JsonFault (List Char) :=
  skipChars (input.length + 1) input

end RecordMasking.Json
