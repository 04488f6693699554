import Mathlib.Data.List.Nodup
import Mathlib.Data.List.Perm.Basic
import RecordMasking.MaskCode
import RecordMasking.Masking

/-!
# What the code of a mask does

The code of a mask is evaluated with defaults and with masks of other types
that are given from outside.  Scoping is lexical: a pattern puts its variables
in front of those that are in scope, and a variable stands for the first one
of its name.  What the compiler would refuse has no value: a pattern or a
constructor that does not name every field once, a pattern with the same
variable twice, or a variable that is not bound.

`MaskTerm.WellScoped` says how variables are used, without evaluation: each
one that a pattern binds is read once by the values behind it, and these read
no other.
-/

namespace RecordMasking

/-- The name of a variable without the mark of a raw name, which does not
count when variables are told apart. -/
def bareName (name : String) : String :=
  match name.toList with
  | 'r' :: '#' :: rest => String.ofList rest
  | _ => name

/-- What the code of a mask calls: the defaults of the fields of records, and
the masks of types. -/
structure Givens (α : Type) where
  default : QualifiedName → FieldName → Value α
  mask : QualifiedName → Value α → Value α

/-- Variables with what they hold, innermost first. -/
abbrev Scope (α : Type) := List (String × Value α)

namespace Givens

variable {α : Type}

mutual

def rebuild (givens : Givens α) (entries : List (FieldName × Decision)) :
    Value α → Value α
  | .leaf content => .leaf content
  | .record type values =>
      .record type (givens.rebuildFields type entries values)

def rebuildFields (givens : Givens α) (owner : QualifiedName)
    (entries : List (FieldName × Decision)) :
    List (FieldName × Value α) → List (FieldName × Value α)
  | [] => []
  | (name, value) :: rest =>
      (name,
        match entries.lookup name with
        | some .clear => givens.default owner name
        | some (.delegate model) => givens.mask model value
        | some (.rebuild _ inner) => givens.rebuild inner value
        | some .keep => value
        | none => value) ::
        givens.rebuildFields owner entries rest

end

def apply (givens : Givens α) (default? : Option (Value α)) (value : Value α) :
    Decision → Option (Value α)
  | .clear => default?
  | .delegate model => some (givens.mask model value)
  | .rebuild _ entries => some (givens.rebuild entries value)
  | .keep => some value

theorem exists_apply (givens : Givens α) (default value : Value α)
    (decision : Decision) :
    ∃ result, givens.apply (some default) value decision = some result := by
  cases decision <;> exact ⟨_, rfl⟩

theorem map_fst_rebuildFields (givens : Givens α) (owner : QualifiedName)
    (entries : List (FieldName × Decision))
    (values : List (FieldName × Value α)) :
    (givens.rebuildFields owner entries values).map Prod.fst =
      values.map Prod.fst := by
  induction values with
  | nil => rw [rebuildFields]
  | cons entry rest ih => simp [rebuildFields, ih]

theorem rebuildFields_cons {givens : Givens α} {owner : QualifiedName}
    {entries : List (FieldName × Decision)} {name : FieldName}
    {decision : Decision} {value result : Value α}
    (hlookup : entries.lookup name = some decision)
    (hresult : givens.apply (some (givens.default owner name)) value decision =
      some result) (rest : List (FieldName × Value α)) :
    givens.rebuildFields owner entries ((name, value) :: rest) =
      (name, result) :: givens.rebuildFields owner entries rest := by
  rw [rebuildFields, hlookup]
  cases decision <;> simpa [apply] using hresult

end Givens

namespace MaskSystem

variable {α : Type}

def givens (masks : MaskSystem α) : Givens α where
  default := masks.default
  mask type value := masks.rebuild (masks.entries type) value

mutual

theorem rebuild_givens (masks : MaskSystem α)
    (entries : List (FieldName × Decision)) :
    ∀ value : Value α,
      masks.givens.rebuild entries value = masks.rebuild entries value
  | .leaf _ => by rw [Givens.rebuild, MaskSystem.rebuild]
  | .record type values => by
      rw [Givens.rebuild, MaskSystem.rebuild,
        rebuildFields_givens masks type entries values]

theorem rebuildFields_givens (masks : MaskSystem α) (owner : QualifiedName)
    (entries : List (FieldName × Decision)) :
    ∀ values : List (FieldName × Value α),
      masks.givens.rebuildFields owner entries values =
        masks.rebuildFields owner entries values
  | [] => by rw [Givens.rebuildFields, MaskSystem.rebuildFields]
  | (name, value) :: rest => by
      rw [Givens.rebuildFields, MaskSystem.rebuildFields,
        rebuildFields_givens masks owner entries rest]
      congr 2
      cases entries.lookup name with
      | none => rfl
      | some decision =>
          cases decision with
          | clear => rfl
          | delegate model => rfl
          | rebuild type inner => exact rebuild_givens masks inner value
          | keep => rfl

end

end MaskSystem

namespace Scope

variable {α : Type}

def value? (scope : Scope α) (name : String) : Option (Value α) :=
  (scope.find? fun entry => bareName entry.1 == bareName name).map Prod.snd

@[simp] theorem value?_singleton (name : String) (value : Value α) :
    value? [(name, value)] name = some value := by
  simp [value?]

end Scope

def boundNames (patterns : List (FieldName × Option String)) : List String :=
  patterns.filterMap Prod.snd

/-- A pattern takes apart the records with exactly its members. -/
structure TakesApart {α : Type} (patterns : List (FieldName × Option String))
    (values : List (FieldName × Value α)) : Prop where
  members : (patterns.map Prod.fst).Perm (values.map Prod.fst)
  distinct : ((boundNames patterns).map bareName).Nodup

instance {α : Type} (patterns : List (FieldName × Option String))
    (values : List (FieldName × Value α)) :
    Decidable (TakesApart patterns values) :=
  decidable_of_iff
    ((patterns.map Prod.fst).Perm (values.map Prod.fst) ∧
      ((boundNames patterns).map bareName).Nodup)
    ⟨fun h => ⟨h.1, h.2⟩, fun h => ⟨h.members, h.distinct⟩⟩

def binding? {α : Type} (values : List (FieldName × Value α))
    (pattern : FieldName × Option String) : Option (String × Value α) :=
  match pattern.2, values.lookup pattern.1 with
  | some name, some value => some (name, value)
  | _, _ => none

def bindings {α : Type} (patterns : List (FieldName × Option String))
    (values : List (FieldName × Value α)) : Scope α :=
  patterns.filterMap (binding? values)

/-- The fields of a record with the given members, in the given order. -/
def arranged {α : Type} (members : List FieldName)
    (built : List (FieldName × Value α)) :
    Option (List (FieldName × Value α)) :=
  members.mapM fun member => (built.lookup member).map fun value =>
    (member, value)

namespace MaskTerm

variable {α : Type}

mutual

/-- The value of a term.  A default depends on the place of the term, and is
given with it. -/
def eval (givens : Givens α) (scope : Scope α) (default? : Option (Value α)) :
    MaskTerm → Option (Value α)
  | .default => default?
  | .bound name => scope.value? name
  | .masked name =>
      match scope.value? name with
      | some (.record type values) =>
          some (givens.mask type (.record type values))
      | _ => none
  | .rebuild source constructor patterns terms =>
      match scope.value? source with
      | some (.record type values) =>
          if constructor.type = type ∧ TakesApart patterns values ∧
              (terms.map Prod.fst).Perm (values.map Prod.fst) then
            (evalMembers givens (bindings patterns values ++ scope) type
              terms).bind fun built =>
                (arranged (values.map Prod.fst) built).map (.record type)
          else none
      | _ => none

def evalMembers (givens : Givens α) (scope : Scope α)
    (owner : QualifiedName) :
    List (FieldName × MaskTerm) → Option (List (FieldName × Value α))
  | [] => some []
  | (member, term) :: rest =>
      match eval givens scope (some (givens.default owner member)) term,
        evalMembers givens scope owner rest with
      | some value, some values => some ((member, value) :: values)
      | _, _ => none

end

/-- The variables that a term reads where it stands.  The values inside a
block are read behind its pattern. -/
def reads : MaskTerm → List String
  | .default => []
  | .bound name => [name]
  | .masked name => [name]
  | .rebuild source _ _ _ => [source]

/-- Every block names all fields of its record once and in order, in the
pattern and in the values, and its values read every variable of its own
pattern once and nothing else. -/
inductive WellScoped (schema : Schema) : MaskTerm → Prop
  | default : WellScoped schema .default
  | bound (name : String) : WellScoped schema (.bound name)
  | masked (name : String) : WellScoped schema (.masked name)
  | rebuild {source : String} {constructor : Constructor}
      {patterns : List (FieldName × Option String)}
      {terms : List (FieldName × MaskTerm)}
      (hfields : ((schema.fields constructor.type).map Field.name).Nodup)
      (hpatterns : patterns.map Prod.fst =
        (schema.fields constructor.type).map Field.name)
      (hmembers : terms.map Prod.fst =
        (schema.fields constructor.type).map Field.name)
      (hdistinct : ((boundNames patterns).map bareName).Nodup)
      (hreads : (terms.flatMap fun term => term.2.reads) =
        boundNames patterns)
      (hterms : ∀ term ∈ terms, WellScoped schema term.2) :
      WellScoped schema (.rebuild source constructor patterns terms)

end MaskTerm

end RecordMasking
