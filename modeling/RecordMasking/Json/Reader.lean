import RecordMasking.Code.Quoted
import RecordMasking.Decimal.Digits
import RecordMasking.Json.Number
import RecordMasking.Json.Text

/-!
# Reading JSON

A reader takes what it wants from the front of a text and stops at the first
fault.  A record is written as an object with the names of its members, or as
an array of their values in order.  A value of the wrong kind is read as far
as its complaint needs it.
-/

namespace RecordMasking.Json

abbrev JsonReader := StateT (List Char) (Except JsonFault)

def isBlank (c : Char) : Bool :=
  c = ' ' || c = '\n' || c = '\t' || c = '\r'

namespace JsonReader

def fail {α : Type} (fault : JsonFault) : JsonReader α :=
  throw fault

def next : JsonReader (Option Char) := fun input =>
  let rest := input.dropWhile isBlank
  .ok (rest.head?, rest)

def peek : JsonReader (Option Char) := fun input =>
  .ok (input.head?, input)

def drop : JsonReader Unit :=
  modify (List.drop 1)

def text : JsonReader String := takeText

def skipString : JsonReader Unit := fun input =>
  (skipText input).map fun rest => ((), rest)

def keyword : List Char → JsonReader Unit
  | [] => pure ()
  | c :: rest => do
      match ← peek with
      | none => fail .ended
      | some found =>
          if found = c then
            drop
            keyword rest
          else fail .malformed

def digits : JsonReader (List Char) := fun input =>
  .ok (input.takeWhile Char.isDigit, input.dropWhile Char.isDigit)

def wantDigit {α : Type} : JsonReader α := do
  match ← peek with
  | none => fail .ended
  | some _ => fail .malformed

/-- The longest run of leading digits whose value fits 64 bits, and how many
digits are left. -/
def leadingValue (digits : List Char) : Nat × Nat :=
  go 0 digits
where
  go (value : Nat) : List Char → Nat × Nat
    | [] => (value, 0)
    | digit :: rest =>
        let longer := 10 * value + (digit.toNat - '0'.toNat)
        if longer < UInt64.size then go longer rest
        else (value, rest.length + 1)

/-- A double that is scaled by a power of ten, in steps of 308. -/
def scaled : Nat → Float → Int → Except JsonFault Float
  | 0, value, _ => .ok value
  | fuel + 1, value, exponent =>
      if exponent.natAbs ≤ 308 then
        let power := Float.ofScientific 1 false exponent.natAbs
        if 0 ≤ exponent then
          let product := value * power
          if product.isInf then .error .malformed else .ok product
        else .ok (value / power)
      else if value == 0.0 then .ok value
      else if 0 ≤ exponent then .error .malformed
      else scaled fuel (value / Float.ofScientific 1 false 308) (exponent + 308)

/-- The double of a significand and an exponent.  It is zero below the range
of doubles, and there is none above. -/
def doubleOf (negative : Bool) (significand : Nat) (exponent : Int) :
    JsonReader Number := do
  match scaled 8 (Float.ofNat significand) (max exponent (-2200)) with
  | .error fault => fail fault
  | .ok value => return .double (if negative then -value else value)

def exponent : JsonReader Int := do
  drop
  let sign ← peek
  if sign = some '+' || sign = some '-' then drop
  let digits ← digits
  if digits.isEmpty then wantDigit
  let value := Int.ofNat (digitsValue digits)
  return if sign = some '-' then -value else value

def number (negative : Bool) : JsonReader Number := do
  let whole ← digits
  if whole.isEmpty then wantDigit
  if whole.length > 1 && whole.head? = some '0' then fail .malformed
  let (significand, left) := leadingValue whole
  let mut decimals : List Char := []
  let isFraction := (← peek) = some '.'
  if isFraction then
    drop
    decimals ← digits
    if decimals.isEmpty then wantDigit
  let (significand, exponentSoFar) :=
    if left > 0 then (significand, Int.ofNat left)
    else
      let (value, dropped) := leadingValue (whole ++ decimals)
      (value, -Int.ofNat (decimals.length - dropped))
  let letter ← peek
  if letter = some 'e' || letter = some 'E' then
    doubleOf negative significand (exponentSoFar + (← exponent))
  else if isFraction || left > 0 then
    doubleOf negative significand exponentSoFar
  else if negative then
    if 0 < significand && significand ≤ UInt64.size / 2 then
      return .negative significand
    else doubleOf true significand 0
  else return .natural significand

/-- Refuses the next value, which is not what is wanted. -/
def refuse {α : Type} (wanted : String) : JsonReader α := do
  let complain {α : Type} (found : String) : JsonReader α :=
    fail (.unsuitable ("invalid type: " ++ found ++ ", expected " ++ wanted))
  match ← peek with
  | some 'n' => do
      keyword ['n', 'u', 'l', 'l']
      complain "null"
  | some 't' => do
      keyword ['t', 'r', 'u', 'e']
      complain "boolean `true`"
  | some 'f' => do
      keyword ['f', 'a', 'l', 's', 'e']
      complain "boolean `false`"
  | some '-' => do
      drop
      complain (← number true).describe
  | some '"' => do
      drop
      complain ("string " ++ Code.shown (← text))
  | some '[' => complain "sequence"
  | some '\x7b' => complain "map"
  | some c =>
      if c.isDigit then do complain (← number false).describe
      else fail .malformed
  | none => fail .malformed

/-- Reads a string, which is wanted by the given name. -/
def textAs (wanted : String) : JsonReader String := do
  match ← next with
  | none => fail .ended
  | some '"' => do
      drop
      text
  | some _ => refuse wanted

def colon : JsonReader Unit := do
  match ← next with
  | none => fail .ended
  | some ':' => drop
  | some _ => fail .malformed

/-- Whether another element stands before the end of an array; a comma before
it is taken. -/
def hasElement (first : Bool) (closing : Char) : JsonReader Bool := do
  match ← next with
  | none => fail .ended
  | some c =>
      if c = closing then return false
      else if first then return true
      else if c = ',' then
        drop
        match ← next with
        | none => fail .ended
        | some c => if c = closing then fail .malformed else return true
      else fail .malformed

def close (closing : Char) : JsonReader Unit := do
  match ← next with
  | none => fail .ended
  | some c => if c = closing then drop else fail .malformed

def skipNumber : JsonReader Unit := do
  let whole ← digits
  if whole.isEmpty || (whole.length > 1 && whole.head? = some '0') then
    fail .malformed
  if (← peek) = some '.' then
    drop
    if (← digits).isEmpty then fail .malformed
  let letter ← peek
  if letter = some 'e' || letter = some 'E' then
    drop
    let sign ← peek
    if sign = some '+' || sign = some '-' then drop
    if (← digits).isEmpty then fail .malformed

mutual

/-- Passes over a value; `fuel` bounds the values inside it. -/
def skipValue : Nat → JsonReader Unit
  | 0 => fail .malformed
  | fuel + 1 => do
      match ← next with
      | none => fail .ended
      | some 'n' => keyword ['n', 'u', 'l', 'l']
      | some 't' => keyword ['t', 'r', 'u', 'e']
      | some 'f' => keyword ['f', 'a', 'l', 's', 'e']
      | some '-' => do
          drop
          skipNumber
      | some '"' => do
          drop
          skipString
      | some '[' => do
          drop
          skipElements fuel true
      | some '\x7b' => do
          drop
          skipMembers fuel true
      | some c => if c.isDigit then skipNumber else fail .malformed

def skipElements : Nat → Bool → JsonReader Unit
  | 0, _ => fail .malformed
  | fuel + 1, first => do
      if ← hasElement first ']' then
        skipValue fuel
        skipElements fuel false
      else drop

def skipMembers : Nat → Bool → JsonReader Unit
  | 0, _ => fail .malformed
  | fuel + 1, first => do
      if ← hasElement first '\x7d' then
        if (← next) = some '"' then
          drop
          skipString
          colon
          skipValue fuel
          skipMembers fuel false
        else fail .malformed
      else drop

end

def skip : JsonReader Unit := do
  skipValue (2 * (← get).length + 2)

/-- Reads the elements of an array to its end, each by the given reader. -/
def elements {α : Type} (element : JsonReader α) :
    Nat → Bool → JsonReader (List α)
  | 0, _ => fail .malformed
  | fuel + 1, first => do
      if ← hasElement first ']' then
        let value ← element
        return value :: (← elements element fuel false)
      else
        drop
        return []

def array {α : Type} (element : JsonReader α) : JsonReader (List α) := do
  match ← next with
  | none => fail .ended
  | some '[' => do
      drop
      elements element ((← get).length + 1) true
  | some _ => refuse "a sequence"

/-- The members of a record: their names in order, a reader for the value of
each, what to do with an object member of another name, and whether a member
can be left out. -/
structure RecordShape (α : Type) where
  title : String
  names : List String
  value : String → JsonReader α
  unknown : String → JsonReader Unit
  optional : Bool

abbrev Members (α : Type) := List (String × α)

def memberCount (count : Nat) : String :=
  toString count ++ if count = 1 then " element" else " elements"

/-- The values of an array that stand for the members of a record. -/
def positional {α : Type} (shape : RecordShape α) (read : Nat) :
    List String → JsonReader (Members α)
  | [] => return []
  | name :: rest => do
      if ← hasElement (read == 0) ']' then
        let value ← shape.value name
        return (name, value) :: (← positional shape (read + 1) rest)
      else if shape.optional then return []
      else
        fail (.unsuitable ("invalid length " ++ toString read ++
          ", expected " ++ shape.title ++ " with " ++
          memberCount shape.names.length))

/-- The members of an object, of which `found` are read. -/
def named {α : Type} (shape : RecordShape α) :
    Nat → Bool → Members α → JsonReader (Members α)
  | 0, _, _ => fail .malformed
  | fuel + 1, first, found => do
      if ← hasElement first '\x7d' then
        if (← next) = some '"' then
          drop
          let name ← text
          if !shape.names.contains name then
            shape.unknown name
            named shape fuel false found
          else if (found.lookup name).isSome then
            fail (.unsuitable ("duplicate field `" ++ name ++ "`"))
          else
            colon
            let value ← shape.value name
            named shape fuel false (found ++ [(name, value)])
        else fail .malformed
      else return found

def record {α : Type} (shape : RecordShape α) : JsonReader (Members α) := do
  match ← next with
  | none => fail .ended
  | some '[' => do
      drop
      let found ← positional shape 0 shape.names
      close ']'
      return found
  | some '\x7b' => do
      drop
      let found ← named shape ((← get).length + 1) true []
      close '\x7d'
      match shape.names.find? fun name => (found.lookup name).isNone with
      | some name =>
          if shape.optional then return found
          else fail (.unsuitable ("missing field `" ++ name ++ "`"))
      | none => return found
  | some _ => refuse shape.title

def run {α : Type} (reader : JsonReader α) (text : String) :
    Except JsonFault α := do
  let (value, rest) ← reader text.toList
  if (rest.dropWhile isBlank).isEmpty then return value
  else .error .malformed

end JsonReader

end RecordMasking.Json
