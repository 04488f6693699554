import RecordMasking.Decimal.Digits

/-!
# Field paths

A field path leads from a record through its fields to one field somewhere
inside it.  Its dotted text reads back to it, where a segment that is a
numeral of at most 64 bits stands for a position of a tuple record.  Sets of
paths remember the order of insertion; `PathSet.below` restricts one to a
field and re-roots it at the field's own type.
-/

namespace RecordMasking

/-- The name of a field, or its position in a tuple record. -/
inductive FieldName where
  | named (text : String)
  | position (index : Nat)
deriving DecidableEq, Repr, Inhabited

def FieldName.display : FieldName → String
  | .named text => text
  | .position index => toString index

/-- Positions are numbers of 64 bits. -/
def positionBound : Nat := UInt64.size

/-- The position written by a numeral.  One leading plus sign and leading
zeros are allowed. -/
def position? (text : List Char) : Option Nat :=
  let digits :=
    match text with
    | '+' :: rest => rest
    | _ => text
  if digits.isEmpty || !digits.all Char.isDigit then none
  else if digitsValue digits < positionBound then some (digitsValue digits)
  else none

def FieldName.ofText (text : List Char) : FieldName :=
  match position? text with
  | some index => .position index
  | none => .named (String.ofList text)

/-- The stretches of a text between its occurrences of a character. -/
def splitAt (mark : Char) : List Char → List (List Char)
  | [] => [[]]
  | c :: rest =>
      if c = mark then [] :: splitAt mark rest
      else
        match splitAt mark rest with
        | [] => [[c]]
        | piece :: others => (c :: piece) :: others

/-- Field names that lead from a record to one of the fields inside it. -/
abbrev FieldPath := List FieldName

namespace FieldPath

/-- Reads a dotted path; empty segments are dropped. -/
def parse (text : String) : FieldPath :=
  ((splitAt '.' text.toList).filter fun piece => !piece.isEmpty).map
    FieldName.ofText

def display (path : FieldPath) : String :=
  ".".intercalate (path.map FieldName.display)

/-- What is left of a path below a field, when it runs through the field and
does not end there. -/
def below? (field : FieldName) : FieldPath → Option FieldPath
  | head :: next :: rest => if head = field then some (next :: rest) else none
  | _ => none

end FieldPath

/-- Paths in the order of their first insertion. -/
structure PathSet where
  toList : List FieldPath
deriving DecidableEq, Repr, Inhabited

namespace PathSet

def empty : PathSet := ⟨[]⟩

def isEmpty (paths : PathSet) : Bool := paths.toList.isEmpty

def contains (paths : PathSet) (path : FieldPath) : Bool :=
  paths.toList.contains path

/-- A path that is already there keeps its place. -/
def insert (paths : PathSet) (path : FieldPath) : PathSet :=
  if paths.contains path then paths else ⟨paths.toList ++ [path]⟩

def ofList (paths : List FieldPath) : PathSet :=
  paths.foldl insert empty

/-- The paths strictly below a field, re-rooted at the field's type. -/
def below (paths : PathSet) (field : FieldName) : PathSet :=
  ⟨paths.toList.filterMap (FieldPath.below? field)⟩

def display (paths : PathSet) : List String :=
  paths.toList.map FieldPath.display

end PathSet

end RecordMasking
