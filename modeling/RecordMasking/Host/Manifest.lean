import RecordMasking.Host.Quoted
import RecordMasking.Host.Scalar

/-!
# Reading the manifest of a crate

A manifest is a list of lines: headers, which open tables, and entries, whose
keys may lead through tables.  Values can span lines inside brackets and long
strings.  A reader gives up on the first thing that has no place in a
manifest.
-/

namespace RecordMasking.Host

namespace Reader

/-- Takes the elements of an array and its closing bracket. -/
def elements (element : Reader Value) : Reader Unit := do
  let _ ← many do
    space
    if (← peek) = some ']' then return none
    else
      let _ ← element
      space
      if (← peek) = some ',' then drop 1
      else if (← peek) != some ']' then fail
      return some ()
  expect [']']

/-- Takes the entries of an inline table and its closing bracket. -/
def members (member : Reader Value) : Reader Entries := do
  blanks
  if (← peek) = some '\x7d' then
    drop 1
    return []
  else
    let first ← entry
    let rest ← many do
      if (← peek) = some ',' then
        drop 1
        return some (← entry)
      else return none
    expect ['\x7d']
    match (first :: rest).foldlM
        (fun found (keys, value) => Entries.add value true keys found) [] with
    | some entries => return entries
    | none => fail
where
  entry : Reader (List String × Value) := do
    let keys ← key
    expect ['=']
    blanks
    let content ← member
    blanks
    return (keys, content)

/-- Takes a value, given the reader for the values inside it, unless there can
be none. -/
def valueOver (inner : Option (Reader Value)) : Reader Value := do
  match ← peek, inner with
  | some '"', _ => return .text (← quoted '"')
  | some '\'', _ => return .text (← quoted '\'')
  | some 't', _ =>
      expect ['t', 'r', 'u', 'e']
      return .truth true
  | some 'f', _ =>
      expect ['f', 'a', 'l', 's', 'e']
      return .truth false
  | some '[', some element =>
      drop 1
      elements element
      return .other
  | some '\x7b', some member =>
      drop 1
      return .table .inline (← members member)
  | _, _ =>
      scalar
      return .other

/-- Takes a value, nested no deeper than the given number. -/
def value : Nat → Reader Value
  | 0 => valueOver none
  | depth + 1 => valueOver (some (value depth))

def header (draft : Draft) : Reader Draft := do
  let isRepeated ← sees ['[', '[']
  drop (if isRepeated then 2 else 1)
  let keys ← key
  expect (if isRepeated then [']', ']'] else [']'])
  lineEnd
  match draft.openTable isRepeated keys with
  | some draft => return draft
  | none => fail

def entry (draft : Draft) : Reader Draft := do
  let keys ← key
  expect ['=']
  blanks
  let content ← value depthLimit
  lineEnd
  match draft.add keys content with
  | some draft => return draft
  | none => fail

/-- Takes the lines of a manifest; `fuel` bounds the headers and entries. -/
def linesFrom (draft : Draft) : Nat → Reader Draft
  | 0 => fail
  | fuel + 1 => do
      space
      match ← peek with
      | none => return draft
      | some c =>
          if c = '[' then linesFrom (← header draft) fuel
          else linesFrom (← entry draft) fuel

end Reader

/-- The entries of a manifest, unless it cannot be read. -/
def readManifest (text : String) : Option Entries := do
  let body :=
    match text.toList with
    | '\ufeff' :: rest => rest
    | chars => chars
  let (draft, _) ← Reader.linesFrom {} (body.length + 1) body
  draft.close

end RecordMasking.Host
