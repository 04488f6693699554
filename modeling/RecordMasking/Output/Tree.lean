import RecordMasking.Output.Path

/-!
# Output trees

An output tree holds directories, files with their texts, and links, each at
its place: the names that lead to it from the directory the tree hangs in.
A walk along a path looks up one name after the other and follows links;
files are put in place by moving a temporary file, so a file is there with
its whole text or not at all.
-/

namespace RecordMasking

/-- The names that lead to an entry, free of links. -/
abbrev Place := List String

namespace Place

def root : Place := ["/"]

/-- The directory that holds a place.  The two starting places hold
themselves. -/
def above (place : Place) : Place :=
  if place = root then root else place.dropLast

def toPath : Place → OutputPath
  | ["/"] => ["", ""]
  | "/" :: rest => "" :: rest
  | place => place

/-- Whether a place stands no later than another: the first name in which they
differ decides, and a place stands before what is below it. -/
def notAfter : Place → Place → Bool
  | [], _ => true
  | _ :: _, [] => false
  | name :: rest, other :: others =>
      if name = other then notAfter rest others else decide (name < other)

end Place

inductive Entry where
  | directory
  | file (text : String)
  | link (target : OutputPath)
deriving DecidableEq, Repr

def Entry.isDirectory : Entry → Bool
  | .directory => true
  | _ => false

inductive Obstacle where
  | missing
  | taken
  | notDirectory
  | isDirectory
  | nameTooLong
  | tooManyLinks
  | nulCharacter
deriving DecidableEq, Repr

def Obstacle.message : Obstacle → String
  | .missing => "No such file or directory (os error 2)"
  | .taken => "File exists (os error 17)"
  | .notDirectory => "Not a directory (os error 20)"
  | .isDirectory => "Is a directory (os error 21)"
  | .nameTooLong => "File name too long (os error 36)"
  | .tooManyLinks => "Too many levels of symbolic links (os error 40)"
  | .nulCharacter => "file name contained an unexpected NUL byte"

structure OutputTree where
  entries : List (Place × Entry)
deriving DecidableEq, Repr

inductive Arrival where
  | present (place : Place)
  /-- To a directory without an entry of the last name. -/
  | vacant (place : Place)
  | blocked (obstacle : Obstacle)
deriving DecidableEq, Repr

namespace OutputTree

def empty : OutputTree := ⟨[]⟩

/-- The entry at a place.  The starting places are directories. -/
def entry? (tree : OutputTree) (place : Place) : Option Entry :=
  if place = [] ∨ place = Place.root then some .directory
  else (tree.entries.find? fun entry => entry.1 == place).map Prod.snd

def remove (tree : OutputTree) (place : Place) : OutputTree :=
  ⟨tree.entries.filter fun entry => entry.1 != place⟩

def set (tree : OutputTree) (place : Place) (entry : Entry) : OutputTree :=
  ⟨(tree.remove place).entries ++ [(place, entry)]⟩

/-- The length of the longest name of an entry, in bytes. -/
def nameLimit : Nat := 255

/-- The length of the longest path, in bytes. -/
def pathLimit : Nat := 4095

def isTooLong (path : OutputPath) : Bool :=
  path.text.utf8ByteSize > pathLimit

/-- How many links are followed along one path. -/
def linkLimit : Nat := 40

/-- Follows names from a place.  A link in the last position is followed only
when `through` is set. -/
def walk (tree : OutputTree) (through : Bool) (links : Nat) (place : Place) :
    List String → Arrival
  | [] => .present place
  | name :: rest =>
      if name = ".." then tree.walk through links place.above rest
      else if name.utf8ByteSize > nameLimit then .blocked .nameTooLong
      else
        match tree.entry? (place ++ [name]) with
        | none =>
            if rest.isEmpty then .vacant (place ++ [name])
            else .blocked .missing
        | some .directory => tree.walk through links (place ++ [name]) rest
        | some (.file _) =>
            if rest.isEmpty then .present (place ++ [name])
            else .blocked .notDirectory
        | some (.link target) =>
            if rest.isEmpty && !through then .present (place ++ [name])
            else
              match links with
              | 0 => .blocked .tooManyLinks
              | left + 1 =>
                  tree.walk through left
                    (if target.isRooted then Place.root else place)
                    (target.names ++ rest)
termination_by names => (links, names.length)

def startOf (path : OutputPath) : Place :=
  if path.isRooted then Place.root else []

def arrival (tree : OutputTree) (path : OutputPath) : Arrival :=
  if isTooLong path then .blocked .nameTooLong
  else tree.walk true linkLimit (startOf path) path.names

def leadsSomewhere (tree : OutputTree) (path : OutputPath) : Bool :=
  match tree.arrival path with
  | .present _ => true
  | _ => false

/-- The path of the place that a path leads to, which passes no link and no
`..` on its way. -/
def canonical (tree : OutputTree) (path : OutputPath) :
    Except Obstacle OutputPath :=
  if path.isEmpty then .error .missing
  else
    match tree.arrival path with
    | .present place => .ok place.toPath
    | .vacant _ => .error .missing
    | .blocked obstacle => .error obstacle

def hasNul (path : OutputPath) : Bool :=
  path.any fun stretch => stretch.toList.contains '\x00'

/-- Why no directory can be made under a name that is not vacant and leads to
no directory; `last` tells whether it ends its path. -/
def obstacleAt (last : Bool) : Arrival → Obstacle
  | .blocked .missing => .taken
  | .blocked obstacle => if last then .taken else obstacle
  | .vacant _ => .taken
  | .present _ => if last then .taken else .notDirectory

/-- Makes the directories that are missing along the names from a place, and
answers the place they lead to.  What was made before an obstacle stays. -/
def makeFrom (tree : OutputTree) (place : Place) :
    List String → OutputTree × Except Obstacle Place
  | [] => (tree, .ok place)
  | name :: rest =>
      match tree.walk false linkLimit place [name] with
      | .blocked obstacle => (tree, .error obstacle)
      | .vacant next => (tree.set next .directory).makeFrom next rest
      | .present _ =>
          match tree.walk true linkLimit place [name] with
          | .present next =>
              if (tree.entry? next).any Entry.isDirectory then
                tree.makeFrom next rest
              else (tree, .error (obstacleAt rest.isEmpty (.present next)))
          | arrival => (tree, .error (obstacleAt rest.isEmpty arrival))

def makeDirectories (tree : OutputTree) (path : OutputPath) :
    OutputTree × Except Obstacle Place :=
  if hasNul path then (tree, .error .nulCharacter)
  else if isTooLong path then (tree, .error .nameTooLong)
  else tree.makeFrom (startOf path) path.names

/-- The first name `.tmp0`, `.tmp1`, … that a directory does not hold. -/
def freshName (tree : OutputTree) (directory : Place) : String :=
  let names := (List.range (tree.entries.length + 1)).map fun n =>
    ".tmp" ++ toString n
  (names.find? fun name => (tree.entry? (directory ++ [name])).isNone).getD ""

def stage (tree : OutputTree) (directory : Place) (text : String) :
    OutputTree × Place :=
  let place := directory ++ [tree.freshName directory]
  (tree.set place (.file text), place)

/-- What keeps a file from being reached by a path whose directory is
there. -/
def nameObstacle? (path : OutputPath) : Option Obstacle :=
  if hasNul [path.lastName] then some .nulCharacter
  else if path.lastName.utf8ByteSize > nameLimit || isTooLong path then
    some .nameTooLong
  else none

/-- Moves the file of one place to another. -/
def move (tree : OutputTree) (origin goal : Place) : OutputTree :=
  match tree.entry? origin with
  | some entry => (tree.remove origin).set goal entry
  | none => tree

/-- Gives a staged file the last name of a path, whose directory is given too,
unless the name is taken. -/
def persistNew (tree : OutputTree) (staged directory : Place)
    (path : OutputPath) : OutputTree × Except Obstacle Unit :=
  match nameObstacle? path with
  | some obstacle => (tree, .error obstacle)
  | none =>
      match tree.entry? (directory ++ [path.lastName]) with
      | some _ => (tree, .error .taken)
      | none => (tree.move staged (directory ++ [path.lastName]), .ok ())

/-- Gives a staged file the last name of a path, whose directory is given too,
in place of any file or link of that name. -/
def persistOver (tree : OutputTree) (staged directory : Place)
    (path : OutputPath) : OutputTree × Except Obstacle Unit :=
  match nameObstacle? path with
  | some obstacle => (tree, .error obstacle)
  | none =>
      match tree.entry? (directory ++ [path.lastName]) with
      | some .directory => (tree, .error .isDirectory)
      | _ => (tree.move staged (directory ++ [path.lastName]), .ok ())

/-- What lies below a place, in the order of the names that lead to it from
there. -/
def listing (tree : OutputTree) (top : Place) : List (Place × Entry) :=
  let below := tree.entries.filterMap fun entry =>
    if top.isPrefixOf entry.1 && entry.1 != top then
      some (entry.1.drop top.length, entry.2)
    else none
  below.mergeSort fun left right => left.1.notAfter right.1

end OutputTree

end RecordMasking
