import RecordMasking.Host.Table

/-!
# Reading characters of a manifest

A reader takes characters from the front of a text, or gives up.  This file
holds the readers of blanks, comments and line breaks, and the ways to join
readers.
-/

namespace RecordMasking.Host

abbrev Reader := StateT (List Char) Option

namespace Reader

def fail {α : Type} : Reader α := fun _ => none

/-- The first reader, or the second where the first gives up. -/
def either {α : Type} (first second : Reader α) : Reader α := fun input =>
  (first input).orElse fun _ => second input

/-- Takes what a reader takes, or nothing where it gives up. -/
def optional (reader : Reader Unit) : Reader Unit :=
  either reader (pure ())

def peek : Reader (Option Char) := fun input => some (input.head?, input)

def drop (count : Nat) : Reader Unit := modify (List.drop count)

def sees (chars : List Char) : Reader Bool := do
  return chars.isPrefixOf (← get)

def expect (chars : List Char) : Reader Unit := do
  if ← sees chars then drop chars.length else fail

/-- Takes one character that satisfies a test. -/
def one (test : Char → Bool) : Reader Char := do
  match ← peek with
  | some c =>
      if test c then
        drop 1
        return c
      else fail
  | none => fail

/-- Takes the characters at the front that satisfy a test. -/
def takeWhile (test : Char → Bool) : Reader (List Char) := fun input =>
  some (input.takeWhile test, input.dropWhile test)

def many {α : Type} (step : Reader (Option α)) : Reader (List α) :=
  fun input => go (input.length + 1) input
where
  go : Nat → Reader (List α)
    | 0 => fail
    | fuel + 1 => do
        match ← step with
        | none => return []
        | some value => return value :: (← go fuel)

def isBlank (c : Char) : Bool := c = ' ' || c = '\t'

/-- Control characters but for the tabulator; none may stand in a comment or a
string. -/
def isControl (c : Char) : Bool :=
  (c.toNat < 32 && c != '\t') || c.toNat = 127

def blanks : Reader Unit := do
  let _ ← takeWhile isBlank

def margin : Reader Unit := do
  blanks
  if (← peek) = some '#' then
    let _ ← takeWhile fun c => !isControl c

def atLineBreak : Reader Bool := do
  return (← sees ['\n']) || (← sees ['\r', '\n'])

/-- Takes a line break, with or without a carriage return. -/
def lineBreak : Reader Unit := do
  if ← sees ['\r', '\n'] then drop 2 else expect ['\n']

def lineEnd : Reader Unit := do
  margin
  if (← peek).isSome then lineBreak

/-- Takes blanks, comments and line breaks. -/
def space : Reader Unit := do
  let _ ← many do
    margin
    if ← atLineBreak then
      lineBreak
      return some ()
    else return none

end Reader

end RecordMasking.Host
