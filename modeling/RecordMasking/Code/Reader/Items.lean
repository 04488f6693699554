import RecordMasking.Code.Reader.Members

/-!
# Reading items

Items of a source file, and the input of a derive.  An item is answered with
how it is printed, for it may stand in a block within a type.
-/

namespace RecordMasking.Code.Reader

/-! ## Imports -/

def importName : Reader String := do
  if ← atOneOf ["self", "super", "crate", "try"] then anyWord else name

/-- A new name behind `as`, which may be an underscore. -/
def newName : Reader String := do
  if ← atWord "_" then anyWord else name

/-- The parts of a group of imports, of which some may start at the root. -/
def importGroup (nested : Nested) (roots : Bool) :
    Reader (Option ImportTree × Tokens) := do
  let (parts, trailing) ← bracketed .curly <| commas do
    let atRoot := roots && (← atMark "::")
    let root ← if atRoot then mark "::" else pure []
    let (tree, tokens) ← nested.importTree (roots && !atRoot)
    return (if atRoot then none else tree, root ++ tokens)
  let trees := parts.map Prod.fst
  let shown := Tokens.inBrackets .curly
    (commaTokens (parts.map Prod.snd) trailing)
  if trees.all Option.isSome then
    return (some (.group (trees.filterMap id)), shown)
  else return (none, shown)

/-- The tree of an import behind its leading double colon. -/
def importTree (nested : Nested) (roots : Bool) :
    Reader (Option ImportTree × Tokens) := do
  if ← atMark "*" then return (some .glob, ← mark "*")
  else if ← atOpening .curly then importGroup nested roots
  else
    let text ← importName
    let head := Tokens.word text
    if ← atMark "::" then
      let separator ← mark "::"
      let (tree, tokens) ← nested.importTree false
      return (tree.map (.under text), head ++ separator ++ tokens)
    else if ← atWord "as" then
      let link ← word "as"
      let fresh ← newName
      return (some (.renamed text fresh), head ++ link ++ Tokens.word fresh)
    else return (some (.leaf text), head)

/-- An import.  One with a part that starts at the root is kept as it is
written. -/
def imported (nested : Nested) : Reader (Item × Option Tokens) := do
  let head ← word "use"
  let root ← mark? "::"
  let (tree, tokens) ← importTree nested root.isEmpty
  let semicolon ← mark ";"
  match tree with
  | some tree => return (.imports tree, some (head ++ root ++ tokens ++ semicolon))
  | none => return (.other, none)

def externCrate : Reader Tokens := do
  let head ← inOrder [word "extern", word "crate"]
  let text ← if ← atWord "self" then anyWord else name
  let rename ←
    if ← atWord "as" then do
      let link ← word "as"
      pure (link ++ Tokens.word (← newName))
    else pure []
  return head ++ Tokens.word text ++ rename ++ (← mark ";")

/-! ## Values and macros -/

/-- A static as an item.  One without its type or its value is kept as it is
written. -/
def static (nested : Nested) : Reader (Option Tokens) := do
  let isUntyped ← ahead do
    let _ ← inOrder [word "static", word? "mut"]
    let _ ← name
    mark "="
  if isUntyped then
    let _ ← inOrder [word "static", word? "mut"]
    let _ ← name
    let _ ← initial? nested
    let _ ← mark ";"
    return none
  else
    let (tokens, hasValue) ← typedStatic nested
    return if hasValue then some tokens else none

/-- A macro call as an item, which may give a name. -/
def macroItem : Reader Tokens := do
  let (rooted, path) ← plainPath
  let sign ← mark "!"
  let given ←
    if (← atName) || (← atWord "try") then do
      pure (Tokens.word (← anyWord))
    else pure []
  let (bracket, inner) ← anyGroup
  return plainPathTokens rooted path ++ sign ++ given ++
    Tokens.inBrackets bracket (lexemeTokens inner) ++ (← callEnd bracket)

def macroDefinition : Reader Unit := do
  let _ ← word "macro"
  let _ ← name
  if ← atOpening .round then
    let _ ← anyGroup
  if ← atOpening .curly then
    let _ ← anyGroup
  else unexpected

/-! ## Blocks of members -/

/-- Members in curly brackets, with attributes at the start. -/
def members (nested : Nested) (member : Reader Tokens) : Reader Tokens := do
  let inner ← bracketed .curly do
    let attributes ← innerAttributes nested
    return attributes ++ (← untilEnd member).flatten
  return Tokens.inBrackets .curly inner

/-- A trait, or a synonym of bounds where no word stands before the keyword. -/
def traitItem (nested : Nested) : Reader Tokens := do
  let modifiers ← inOrder [word? "unsafe", word? "auto"]
  let keyword ← word "trait"
  let text ← name
  let params ← generics nested
  let head := modifiers ++ keyword ++ Tokens.word text ++ genericsTokens params
  if modifiers.isEmpty && (← atMark "=") then
    let equal ← mark "="
    let bounds ← plusUntil
      (do return (← atWord "where") || (← atMark ";"))
      (do return (← bound nested {}).1)
    let clause ← whereClause nested
    return head ++ equal ++ bounds ++ clause ++ (← mark ";")
  else
    let bounds := (← bounds? nested).getD []
    let parents := if bounds.isEmpty then [] else Tokens.mark ':' ++ bounds
    let clause ← whereClause nested
    return head ++ parents ++ clause ++
      (← members nested (traitMember nested))

def constMark : Reader Bool := do
  if (← atWord "const") || ((← atMark "?") && (← past 1 (atWord "const"))) then
    let _ ← inOrder [mark? "?", word "const"]
    return true
  else return false

/-- An implementation.  Only that of a trait, which is neither negative nor
const nor given a visibility, is recorded. -/
def implementation (nested : Nested) (inherited : Bool) :
    Reader (Item × Option Tokens) := do
  let head ← inOrder [word? "default", word? "unsafe", word "impl"]
  let params ← if ← paramsAhead then generics nested else pure {}
  let isConst ← constMark
  let negative := (← atMark "!") && !(← past 1 (atOpening .curly))
  let polarity ← if negative then mark "!" else pure []
  let first ← nested.type true
  let self ←
    if ← atWord "for" then do
      let _ ← word "for"
      pure (some (← nested.type true))
    else if negative then refuse "inherent impls cannot be negative"
    else pure none
  let clause ← whereClause nested
  let rest ← members nested (implementationMember nested)
  let start := head ++ genericsTokens params ++ polarity ++ first.tokens
  if isConst || !inherited then return (.other, none)
  else
    match first, self with
    | _, none => return (.other, some (start ++ clause ++ rest))
    | .path _ trait, some self =>
        let tokens := start ++ Tokens.word "for" ++ self.tokens ++ clause ++ rest
        if negative then return (.other, some tokens)
        else return (.implementation trait self, some tokens)
    | _, some _ => return (.other, none)

def foreignBlock (nested : Nested) : Reader Tokens := do
  let caution ← word? "unsafe"
  let interface ← interface?
  if interface.isEmpty then unexpected
  else
    return caution ++ interface ++
      (← members nested (foreignMember nested))

/-- A module, with its items when they are written out. -/
def mounted (nested : Nested) : Reader (Item × Tokens) := do
  let head ← inOrder [word? "unsafe", word "mod"]
  let text ← if ← atWord "try" then anyWord else name
  if ← atMark ";" then
    return (.other, head ++ Tokens.word text ++ (← mark ";"))
  else
    let (attributes, items) ← bracketed .curly do
      let attributes ← innerAttributes nested
      return (attributes, ← untilEnd nested.item)
    return (.mounted text (items.map Prod.fst),
      head ++ Tokens.word text ++ Tokens.inBrackets .curly
        (attributes ++ items.flatMap Prod.snd))

/-! ## Items -/

/-- A synonym of a type.  One without a target or with bounds is kept as it is
written. -/
def typeSynonym (nested : Nested) : Reader (Item × Option Tokens) := do
  let member ← typeMember nested .beforeTarget
  match member.target? with
  | some target =>
      return (.synonym member.name member.generics target,
        some (member.headTokens ++ member.generics.whereTokens ++
          member.targetTokens ++ Tokens.mark ';'))
  | none => return (.other, none)

/-- An item behind its attributes and its visibility, and how it is printed;
nothing where it is kept as it is written. -/
def itemRest (nested : Nested) (attributes : List Attribute)
    (inherited : Bool) : Reader (Item × Option Tokens) := do
  if ← functionAhead then
    return (.other, ← implementedFunction nested)
  else if ← atWord "extern" then
    if ← past 1 (atWord "crate") then return (.other, some (← externCrate))
    else if inherited then return (.other, some (← foreignBlock nested))
    else unexpected
  else if ← atWord "use" then imported nested
  else if ← atWord "static" then return (.other, ← static nested)
  else if ← atWord "const" then return (.other, ← constant nested true)
  else if ← atWord "unsafe" then
    if (← past 1 (atWord "trait")) ||
        ((← past 1 (atWord "auto")) && (← past 2 (atWord "trait"))) then
      return (.other, some (← traitItem nested))
    else if ← past 1 (atWord "impl") then implementation nested inherited
    else if inherited && (← past 1 (atWord "extern")) then
      return (.other, some (← foreignBlock nested))
    else if ← past 1 (atWord "mod") then
      let (found, tokens) ← mounted nested
      return (found, some tokens)
    else unexpected
  else if ← atWord "mod" then
    let (found, tokens) ← mounted nested
    return (found, some tokens)
  else if ← atWord "type" then typeSynonym nested
  else if ← atWord "struct" then
    let (found, tokens) ← record nested attributes
    return (.record found, some tokens)
  else if ← atWord "enum" then
    let (head, tokens) ← enumeration nested
    return (.closed head.name, some tokens)
  else if (← atWord "union") && (← past 1 atName) then
    let (head, tokens) ← union nested
    return (.closed head.name, some tokens)
  else if (← atWord "trait") ||
      ((← atWord "auto") && (← past 1 (atWord "trait"))) then
    return (.other, some (← traitItem nested))
  else if (← atWord "impl") ||
      ((← atWord "default") && !(← past 1 (atMark "!"))) then
    implementation nested inherited
  else if ← atWord "macro" then
    macroDefinition
    return (.other, none)
  else if inherited && (← callAhead) then
    return (.other, some (← macroItem))
  else unexpected

/-- An item, and how it is printed. -/
def item (nested : Nested) : Reader (Item × Tokens) := do
  let start ← get
  let attributes ← outerAttributes nested
  let (visibility, shown) ← visibility
  let (found, tokens) ← itemRest nested attributes (visibility == .inherited)
  return (found,
    ← orAsWritten start (attributesTokens attributes ++ shown) tokens)

def deriveInput (nested : Nested) : Reader DeriveInput := do
  let attributes ← outerAttributes nested
  let _ ← visibility
  let keyword ← position
  if ← atWord "struct" then
    let (found, _) ← record nested attributes
    return ⟨attributes, found.name, found.start, found.generics,
      .record found.fields⟩
  else if ← atWord "enum" then
    let (head, _) ← enumeration nested
    return ⟨attributes, head.name, head.start, head.generics,
      .enumeration keyword⟩
  else
    let (head, _) ← union nested
    return ⟨attributes, head.name, head.start, head.generics, .union keyword⟩

end RecordMasking.Code.Reader
