import RecordMasking.Host.Reader

/-!
# Strings and keys of a manifest

A string stands between single quotes, which take every character as it is,
or double quotes, which take escapes; three quotes let it span lines.  A key
is a string on one line or a bare word, and keys are joined by dots.
-/

namespace RecordMasking.Host.Reader

def hexValue (digits : List Char) : Option Nat :=
  digits.foldlM
    (fun value c =>
      if c.isDigit then some (16 * value + (c.toNat - '0'.toNat))
      else if 'a' ≤ c && c ≤ 'f' then
        some (16 * value + (c.toNat - 'a'.toNat + 10))
      else if 'A' ≤ c && c ≤ 'F' then
        some (16 * value + (c.toNat - 'A'.toNat + 10))
      else none)
    0

/-- Takes a character given by its number in the given count of digits. -/
def numbered (count : Nat) : Reader Char := do
  let digits := (← get).take count
  if digits.length < count then fail
  match hexValue digits with
  | some value =>
      if value.isValidChar then
        drop count
        return Char.ofNat value
      else fail
  | none => fail

def escape : Reader Char := do
  let c ← one fun _ => true
  if c = 'u' then numbered 4
  else if c = 'U' then numbered 8
  else
    let meanings :=
      [('b', '\x08'), ('t', '\t'), ('n', '\n'), ('f', '\x0c'),
        ('r', '\r'), ('"', '"'), ('\\', '\\')]
    match meanings.lookup c with
    | some meaning => return meaning
    | none => fail

/-- Takes a string on one line with its quotes. -/
def lineString (quote : Char) : Reader String := do
  expect [quote]
  let content ← many do
    if (← peek) = some quote then return none
    else if quote = '"' && (← peek) = some '\\' then
      drop 1
      return some (← escape)
    else return some (← one fun c => !isControl c)
  expect [quote]
  return String.ofList content

/-- Takes the characters for which one place in a string of several lines
stands: none for a line break behind a backslash, with the blanks around
it. -/
def longPiece (quote : Char) : Reader (List Char) := do
  if ← atLineBreak then
    lineBreak
    return ['\n']
  else if quote = '"' && (← peek) = some '\\' then
    drop 1
    either
      (do
        blanks
        lineBreak
        let _ ← many do
          if ← atLineBreak then
            lineBreak
            return some ()
          else if (← peek).any isBlank then
            blanks
            return some ()
          else return none
        return [])
      (do return [← escape])
  else return [← one fun c => !isControl c]

/-- Takes a string of several lines with its quotes.  Up to two quotes at the
end belong to the string. -/
def longString (quote : Char) : Reader String := do
  expect [quote, quote, quote]
  if ← atLineBreak then lineBreak
  let content ← many do
    if ← sees [quote, quote, quote] then return none
    else return some (← longPiece quote)
  expect [quote, quote, quote]
  let extra := (← get).takeWhile fun c => c = quote
  if extra.length > 2 then fail
  drop extra.length
  return String.ofList (content.flatten ++ extra)

def quoted (quote : Char) : Reader String := do
  if ← sees [quote, quote, quote] then longString quote else lineString quote

def isBare (c : Char) : Bool :=
  c.isAlphanum || c = '_' || c = '-'

/-- Takes one key. -/
def simpleKey : Reader String := do
  match ← peek with
  | some '"' => lineString '"'
  | some '\'' => lineString '\''
  | _ =>
      let first ← one isBare
      return String.ofList (first :: (← takeWhile isBare))

/-- No more keys than this are joined, and no deeper than this values are
nested. -/
def depthLimit : Nat := 127

def key : Reader (List String) := do
  blanks
  let first ← simpleKey
  blanks
  let rest ← many do
    if (← peek) = some '.' then
      drop 1
      blanks
      let next ← simpleKey
      blanks
      return some next
    else return none
  if rest.length < depthLimit then return first :: rest else fail

end RecordMasking.Host.Reader
