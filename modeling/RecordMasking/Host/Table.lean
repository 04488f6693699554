/-!
# Tables of a crate's manifest

The manifest of a crate is a tree of tables.  A header opens a table once; a
table that was only passed through on the way to another one can still be
opened, and then stands behind its neighbours.  A table that came about by a
dotted key takes further dotted keys and no header of its own.
-/

namespace RecordMasking.Host

inductive TableForm where
  | passing
  | dotted
  | opened
  /-- By a header that opens one table of several; the last one counts. -/
  | repeated
  | inline
deriving DecidableEq, Repr

inductive Value where
  | text (text : String)
  | truth (value : Bool)
  /-- A number, a date or an array. -/
  | other
  | table (form : TableForm) (entries : List (String × Value))
deriving Inhabited

abbrev Entries := List (String × Value)

namespace Value

/-- The entry of a table that is not one of several. -/
def get? (value : Value) (key : String) : Option Value :=
  match value with
  | .table .repeated _ => none
  | .table _ entries => entries.lookup key
  | _ => none

def text? : Value → Option String
  | .text content => some content
  | _ => none

def isTrue : Value → Bool
  | .truth value => value
  | _ => false

/-- The entries of a table that is no value and not one of several. -/
def entries? : Value → Option Entries
  | .table .passing entries => some entries
  | .table .dotted entries => some entries
  | .table .opened entries => some entries
  | _ => none

end Value

namespace Entries

/-- The entries with one of them set; a new one comes last. -/
def put (key : String) (value : Value) : Entries → Entries
  | [] => [(key, value)]
  | (name, old) :: rest =>
      if name = key then (key, value) :: rest
      else (name, old) :: put key value rest

def remove (key : String) (entries : Entries) : Entries :=
  entries.filter fun entry => entry.1 != key

/-- Adds a value under a path of keys, the last of which is new.  No table on
the way is opened by a header, and the last one is dotted unless it is the
table the path starts at; `isOpen` tells whether that table may take the
value itself. -/
def add (value : Value) (isOpen : Bool) :
    List String → Entries → Option Entries
  | [], _ => none
  | [key], entries =>
      if isOpen && (entries.lookup key).isNone then
        some (put key value entries)
      else none
  | key :: next :: rest, entries =>
      match entries.lookup key with
      | none => do
          let inner ← add value true (next :: rest) []
          return put key (.table .dotted inner) entries
      | some (.table .dotted inner) => do
          let inner ← add value true (next :: rest) inner
          return put key (.table .dotted inner) entries
      | some (.table .passing inner) => do
          let inner ← add value false (next :: rest) inner
          return put key (.table .passing inner) entries
      | some (.table .repeated inner) => do
          let inner ← add value false (next :: rest) inner
          return put key (.table .repeated inner) entries
      | some _ => none

/-- Takes a step in the table that a path of keys leads to.  Tables that are
missing come about on the way; no value is passed through. -/
def within {α : Type} (step : Entries → Option (Entries × α)) :
    List String → Entries → Option (Entries × α)
  | [], entries => step entries
  | key :: rest, entries =>
      match entries.lookup key with
      | none => do
          let (inner, answer) ← within step rest []
          return (put key (.table .passing inner) entries, answer)
      | some (.table .inline _) => none
      | some (.table form inner) => do
          let (inner, answer) ← within step rest inner
          return (put key (.table form inner) entries, answer)
      | some _ => none

/-- Takes the table out that a header opens, with what it holds already. -/
def takeOut (key : String) (entries : Entries) :
    Option (Entries × Entries) :=
  match entries.lookup key with
  | none => some (entries, [])
  | some (.table .passing inner) => some (remove key entries, inner)
  | some _ => none

/-- Makes room for one table of several. -/
def makeRoom (key : String) (entries : Entries) :
    Option (Entries × Entries) :=
  match entries.lookup key with
  | none => some (put key (.table .repeated []) entries, [])
  | some (.table .repeated _) => some (entries, [])
  | some _ => none

end Entries

/-- A manifest that is read in part: the tables that are complete, and the one
that was opened last, with the path to it. -/
structure Draft where
  complete : Entries := []
  path : List String := []
  isRepeated : Bool := false
  current : Entries := []

namespace Draft

/-- The tables with the one that was opened last among them. -/
def close (draft : Draft) : Option Entries :=
  match draft.path.getLast? with
  | none => some draft.current
  | some key =>
      let form := if draft.isRepeated then .repeated else .opened
      let step := fun entries : Entries =>
        some (entries.put key (.table form draft.current), ())
      (draft.complete.within step draft.path.dropLast).map Prod.fst

def openTable (draft : Draft) (isRepeated : Bool) (path : List String) :
    Option Draft := do
  let complete ← draft.close
  let key ← path.getLast?
  let step := if isRepeated then Entries.makeRoom key else Entries.takeOut key
  let (complete, current) ← Entries.within step path.dropLast complete
  return ⟨complete, path, isRepeated, current⟩

def add (draft : Draft) (keys : List String) (value : Value) :
    Option Draft := do
  let current ← Entries.add value true keys draft.current
  return { draft with current := current }

end Draft

end RecordMasking.Host
