import RecordMasking.Proofs.Markers

/-!
# What derives assert

The assertions of a derive stand outside the parameters of the structure, so
a type should be asserted just when it uses none of them.  A derive looks for
type parameters at some places of a type only: not in what is kept as tokens,
as pointers, functions and trait objects are, not in the arguments of any but
the last segment of a path, and not in a phantom; and it never looks for the
parameters that are values.  Here are both, the names that a type uses and
those that a derive looks at, and the syntax on which they are the same.
-/

namespace RecordMasking

namespace Code

/-! ## Names that are used -/

/-- The words that look a name up: those that do not continue a path, and are
neither lifetimes nor labels. -/
def Tokens.freeNames : Tokens → List String
  | [] => []
  | .mark ':' true :: .mark ':' false :: .word _ :: rest => freeNames rest
  | .mark '\'' true :: .word _ :: rest => freeNames rest
  | .word _ :: .mark ':' false :: rest => freeNames rest
  | .word _ :: .mark '=' false :: rest => freeNames rest
  | .word name :: rest => name :: freeNames rest
  | _ :: rest => freeNames rest

/-- The name that a path starts with. -/
def headNames : List Segment → List String
  | [] => []
  | segment :: _ => [segment.name]

mutual

/-- The names that a type looks up where it stands. -/
def TypeExpr.freeNames : TypeExpr → List String
  | .path rooted segments =>
      (if rooted then [] else headNames segments) ++ freeInSegments segments
  | .qualified inner traitRooted trait rest =>
      inner.freeNames ++ (if traitRooted then [] else headNames trait) ++
        freeInSegments trait ++ freeInSegments rest
  | .paren inner => inner.freeNames
  | .reference _ _ inner => inner.freeNames
  | .array element length => element.freeNames ++ length.freeNames
  | .slice element => element.freeNames
  | .tuple elements _ => freeInTypes elements
  | .bound _ tokens => tokens.freeNames
  | .other tokens => tokens.freeNames

def freeInTypes : List TypeExpr → List String
  | [] => []
  | type :: rest => type.freeNames ++ freeInTypes rest

def freeInSegments : List Segment → List String
  | [] => []
  | segment :: rest => segment.freeNames ++ freeInSegments rest

def Segment.freeNames : Segment → List String
  | .mk _ arguments => arguments.freeNames

def Arguments.freeNames : Arguments → List String
  | .none => []
  | .angled _ arguments _ => freeInArguments arguments

def freeInArguments : List Argument → List String
  | [] => []
  | argument :: rest => argument.freeNames ++ freeInArguments rest

def Argument.freeNames : Argument → List String
  | .type type => type.freeNames
  | .lifetime _ => []
  | .other tokens => tokens.freeNames

end

/-! ## Names that are looked at -/

mutual

/-- The names of a type among which a derive looks for parameters. -/
def TypeExpr.soughtNames : TypeExpr → List String
  | .path _ segments => headNames segments ++ soughtInLast segments
  | .qualified inner _ trait rest =>
      inner.soughtNames ++ headNames (trait ++ rest) ++
        if rest.isEmpty then soughtInLast trait else soughtInLast rest
  | .paren inner => inner.soughtNames
  | .reference _ _ inner => inner.soughtNames
  | .array element _ => element.soughtNames
  | .slice element => element.soughtNames
  | .tuple elements _ => soughtInTypes elements
  | .bound _ _ => []
  | .other _ => []

def soughtInTypes : List TypeExpr → List String
  | [] => []
  | type :: rest => type.soughtNames ++ soughtInTypes rest

def soughtInLast : List Segment → List String
  | [] => []
  | [segment] => segment.soughtNames
  | _ :: next :: rest => soughtInLast (next :: rest)

def Segment.soughtNames : Segment → List String
  | .mk name arguments =>
      if name = "PhantomData" then [] else arguments.soughtNames

def Arguments.soughtNames : Arguments → List String
  | .none => []
  | .angled _ arguments _ => soughtInArguments arguments

def soughtInArguments : List Argument → List String
  | [] => []
  | argument :: rest => argument.soughtNames ++ soughtInArguments rest

def Argument.soughtNames : Argument → List String
  | .type type => type.soughtNames
  | .lifetime _ => []
  | .other _ => []

end

/-! ## Plain types -/

mutual

/-- A type that uses names only where a derive looks for them: it is built
from paths with arguments at their last segment, and no length, phantom or
part that is kept as tokens uses a name. -/
def TypeExpr.isPlain : TypeExpr → Bool
  | .path rooted segments => !rooted && arePlainSegments segments
  | .qualified _ _ _ _ => false
  | .paren inner => inner.isPlain
  | .reference _ _ inner => inner.isPlain
  | .array element length => element.isPlain && length.freeNames.isEmpty
  | .slice element => element.isPlain
  | .tuple elements _ => arePlainTypes elements
  | .bound _ tokens => tokens.freeNames.isEmpty
  | .other tokens => tokens.freeNames.isEmpty

def arePlainTypes : List TypeExpr → Bool
  | [] => true
  | type :: rest => type.isPlain && arePlainTypes rest

def arePlainSegments : List Segment → Bool
  | [] => true
  | [segment] => segment.isPlain
  | segment :: next :: rest =>
      segment.arguments.isNone && arePlainSegments (next :: rest)

def Segment.isPlain : Segment → Bool
  | .mk name arguments =>
      if name = "PhantomData" then arguments.freeNames.isEmpty
      else arguments.isPlain

def Arguments.isPlain : Arguments → Bool
  | .none => true
  | .angled _ arguments _ => arePlainArguments arguments

def arePlainArguments : List Argument → Bool
  | [] => true
  | argument :: rest => argument.isPlain && arePlainArguments rest

def Argument.isPlain : Argument → Bool
  | .type type => type.isPlain
  | .lifetime _ => true
  | .other tokens => tokens.freeNames.isEmpty

end

theorem freeNames_of_isNone {segment : Segment}
    (hnone : segment.arguments.isNone = true) : segment.freeNames = [] := by
  obtain ⟨name, arguments⟩ := segment
  cases arguments with
  | none => rfl
  | angled _ _ _ => cases hnone

mutual

theorem TypeExpr.soughtNames_of_isPlain : ∀ type : TypeExpr, type.isPlain = true →
    type.soughtNames = type.freeNames
  | .path rooted segments, hplain => by
      rw [TypeExpr.isPlain, Bool.and_eq_true, Bool.not_eq_true'] at hplain
      rw [TypeExpr.soughtNames, TypeExpr.freeNames, hplain.1,
        if_neg Bool.false_ne_true,
        soughtInLast_of_arePlain segments hplain.2]
  | .qualified _ _ _ _, hplain => by cases hplain
  | .paren inner, hplain => inner.soughtNames_of_isPlain hplain
  | .reference _ _ inner, hplain => inner.soughtNames_of_isPlain hplain
  | .array element length, hplain => by
      rw [TypeExpr.isPlain, Bool.and_eq_true, List.isEmpty_iff] at hplain
      rw [TypeExpr.soughtNames, TypeExpr.freeNames, hplain.2, List.append_nil,
        element.soughtNames_of_isPlain hplain.1]
  | .slice element, hplain => element.soughtNames_of_isPlain hplain
  | .tuple elements _, hplain => soughtInTypes_of_arePlain elements hplain
  | .bound _ _, hplain => (List.isEmpty_iff.mp hplain).symm
  | .other _, hplain => (List.isEmpty_iff.mp hplain).symm

theorem soughtInTypes_of_arePlain : ∀ types : List TypeExpr,
    arePlainTypes types = true → soughtInTypes types = freeInTypes types
  | [], _ => rfl
  | type :: rest, hplain => by
      rw [arePlainTypes, Bool.and_eq_true] at hplain
      rw [soughtInTypes, freeInTypes, type.soughtNames_of_isPlain hplain.1,
        soughtInTypes_of_arePlain rest hplain.2]

theorem soughtInLast_of_arePlain : ∀ segments : List Segment,
    arePlainSegments segments = true →
    soughtInLast segments = freeInSegments segments
  | [], _ => rfl
  | [segment], hplain => by
      rw [soughtInLast, freeInSegments, freeInSegments, List.append_nil,
        segment.soughtNames_of_isPlain hplain]
  | segment :: next :: rest, hplain => by
      rw [arePlainSegments, Bool.and_eq_true] at hplain
      rw [soughtInLast, freeInSegments, freeNames_of_isNone hplain.1,
        List.nil_append, soughtInLast_of_arePlain (next :: rest) hplain.2]

theorem Segment.soughtNames_of_isPlain : ∀ segment : Segment,
    segment.isPlain = true → segment.soughtNames = segment.freeNames
  | .mk name arguments, hplain => by
      rw [Segment.isPlain] at hplain
      rw [Segment.soughtNames, Segment.freeNames]
      split at hplain
      next hphantom => rw [if_pos hphantom, List.isEmpty_iff.mp hplain]
      next hname =>
        rw [if_neg hname, arguments.soughtNames_of_isPlain hplain]

theorem Arguments.soughtNames_of_isPlain : ∀ arguments : Arguments,
    arguments.isPlain = true → arguments.soughtNames = arguments.freeNames
  | .none, _ => rfl
  | .angled _ arguments _, hplain =>
      soughtInArguments_of_arePlain arguments hplain

theorem soughtInArguments_of_arePlain : ∀ arguments : List Argument,
    arePlainArguments arguments = true →
    soughtInArguments arguments = freeInArguments arguments
  | [], _ => rfl
  | argument :: rest, hplain => by
      rw [arePlainArguments, Bool.and_eq_true] at hplain
      rw [soughtInArguments, freeInArguments,
        argument.soughtNames_of_isPlain hplain.1,
        soughtInArguments_of_arePlain rest hplain.2]

theorem Argument.soughtNames_of_isPlain : ∀ argument : Argument,
    argument.isPlain = true → argument.soughtNames = argument.freeNames
  | .type type, hplain => type.soughtNames_of_isPlain hplain
  | .lifetime _, _ => rfl
  | .other _, hplain => (List.isEmpty_iff.mp hplain).symm

end

end Code

open Code

/-! ## What the search finds -/

section

variable {params : List String}

theorem startsWith_eq_any (segments : List Segment) :
    startsWith params segments =
      (headNames segments).any params.contains := by
  cases segments with
  | nil => rfl
  | cons segment rest => exact (Bool.or_false _).symm

mutual

theorem mentions_eq_any : ∀ type : TypeExpr,
    mentions params type = type.soughtNames.any params.contains
  | .path _ segments => by
      rw [mentions, TypeExpr.soughtNames, List.any_append,
        startsWith_eq_any segments, mentionsLast_eq_any segments]
  | .qualified inner _ trait rest => by
      rw [mentions, TypeExpr.soughtNames, List.any_append, List.any_append,
        mentions_eq_any inner, startsWith_eq_any (trait ++ rest)]
      split
      next => rw [mentionsLast_eq_any trait]
      next => rw [mentionsLast_eq_any rest]
  | .paren inner => mentions_eq_any inner
  | .reference _ _ inner => mentions_eq_any inner
  | .array element _ => mentions_eq_any element
  | .slice element => mentions_eq_any element
  | .tuple elements _ => mentionsAny_eq_any elements
  | .bound _ _ => rfl
  | .other _ => rfl

theorem mentionsAny_eq_any : ∀ types : List TypeExpr,
    mentionsAny params types = (soughtInTypes types).any params.contains
  | [] => rfl
  | type :: rest => by
      rw [mentionsAny, soughtInTypes, List.any_append, mentions_eq_any type,
        mentionsAny_eq_any rest]

theorem mentionsLast_eq_any : ∀ segments : List Segment,
    mentionsLast params segments = (soughtInLast segments).any params.contains
  | [] => rfl
  | [segment] => mentionsSegment_eq_any segment
  | _ :: next :: rest => mentionsLast_eq_any (next :: rest)

theorem mentionsSegment_eq_any : ∀ segment : Segment,
    mentionsSegment params segment = segment.soughtNames.any params.contains
  | .mk name arguments => by
      rw [mentionsSegment, Segment.soughtNames]
      split
      next => rfl
      next => exact mentionsIn_eq_any arguments

theorem mentionsIn_eq_any : ∀ arguments : Arguments,
    mentionsIn params arguments = arguments.soughtNames.any params.contains
  | .none => rfl
  | .angled _ arguments _ => mentionsArguments_eq_any arguments

theorem mentionsArguments_eq_any : ∀ arguments : List Argument,
    mentionsArguments params arguments =
      (soughtInArguments arguments).any params.contains
  | [] => rfl
  | argument :: rest => by
      rw [mentionsArguments, soughtInArguments, List.any_append,
        mentionsArgument_eq_any argument, mentionsArguments_eq_any rest]

theorem mentionsArgument_eq_any : ∀ argument : Argument,
    mentionsArgument params argument =
      argument.soughtNames.any params.contains
  | .type type => mentions_eq_any type
  | .lifetime _ => rfl
  | .other _ => rfl

end

end

/-! ## Assertions of a derive -/

/-- No parameter is found where a derive looks for the type parameters. -/
def looksConcrete (generics : Generics) (type : TypeExpr) : Bool :=
  !type.soughtNames.any generics.typeNames.contains

/-- No parameter is used, be it a type or a value. -/
def isConcrete (generics : Generics) (type : TypeExpr) : Bool :=
  !type.freeNames.any generics.valueNames.contains

theorem assertedFields_eq (generics : Generics) (marked : List FieldItem) :
    assertedFields generics marked =
      marked.filter fun field => looksConcrete generics field.type := by
  simp only [assertedFields, looksConcrete, mentions_eq_any]

theorem mem_valueNames_of_mem_typeNames {generics : Generics} {name : String}
    (hname : name ∈ generics.typeNames) : name ∈ generics.valueNames := by
  obtain ⟨param, hparam, hread⟩ := List.mem_filterMap.mp hname
  refine List.mem_filterMap.mpr ⟨param, hparam, ?_⟩
  cases param with
  | lifetime _ _ _ => cases hread
  | type _ _ _ _ => exact hread
  | const _ _ _ _ => cases hread

/-- On plain types that use no value parameter the search is exact. -/
theorem looksConcrete_eq_isConcrete {generics : Generics} {type : TypeExpr}
    (hplain : type.isPlain = true)
    (hvalues : ∀ name ∈ type.freeNames, name ∈ generics.valueNames →
      name ∈ generics.typeNames) :
    looksConcrete generics type = isConcrete generics type := by
  rw [looksConcrete, isConcrete, type.soughtNames_of_isPlain hplain]
  congr 1
  rw [Bool.eq_iff_iff, List.any_eq_true, List.any_eq_true]
  simp only [List.contains_iff_mem]
  constructor
  · rintro ⟨name, hname, hparam⟩
    exact ⟨name, hname, mem_valueNames_of_mem_typeNames hparam⟩
  · rintro ⟨name, hname, hparam⟩
    exact ⟨name, hname, hvalues name hname hparam⟩

theorem filter_eq_filter_iff {α : Type} {keep other : α → Bool}
    {items : List α} :
    items.filter keep = items.filter other ↔
      ∀ item ∈ items, keep item = other item := by
  constructor
  · intro hfilters item hitem
    have hmem : item ∈ items.filter keep ↔ item ∈ items.filter other := by
      rw [hfilters]
    rw [List.mem_filter, List.mem_filter] at hmem
    rw [Bool.eq_iff_iff]
    exact ⟨fun hkeep => (hmem.mp ⟨hitem, hkeep⟩).2,
      fun hother => (hmem.mpr ⟨hitem, hother⟩).2⟩
  · exact fun hitems => List.filter_congr hitems

/-- The code of a derive besides its assertions. -/
def DeriveKind.leadingTokens (kind : DeriveKind) (root : String)
    (input : DeriveInput) : Tokens :=
  match kind with
  | .model => markerTokens root input
  | .sensitive => []

theorem expand_eq_ok {kind : DeriveKind} {root : String} {input : DeriveInput}
    {tokens : Tokens} (hexpand : expand kind root input = .ok tokens) :
    ∃ fields, input.HasWellMarked fields ∧
      tokens = kind.leadingTokens root input ++
        assertionsTokens input.generics
          (assertedFields input.generics
            (fields.toList.filter (Source.isSensitive "sensitive"))) := by
  unfold expand at hexpand
  obtain ⟨fields, hwell, hrest⟩ := bind_markedFields_eq_ok_iff.mp hexpand
  refine ⟨fields, hwell, ?_⟩
  cases kind with
  | model =>
      dsimp only at hrest
      split at hrest
      next => exact (Except.ok.inj hrest).symm
      next => cases hrest
  | sensitive =>
      dsimp only at hrest
      split at hrest
      next => cases hrest
      next => exact (Except.ok.inj hrest).symm

/-- A derive asserts, in the order of the fields, the types of the sensitive
fields that look concrete.  These are the concrete ones just when no sensitive
field looks otherwise than it is, which none does whose type is plain and uses
no value parameter. -/
theorem assertions_of_derive {kind : DeriveKind} {root : String}
    {input : DeriveInput} {tokens : Tokens}
    (hexpand : expand kind root input = .ok tokens) :
    ∃ fields, input.HasWellMarked fields ∧
      let sensitive :=
        fields.toList.filter (Source.isSensitive "sensitive")
      let asserted :=
        sensitive.filter fun field => looksConcrete input.generics field.type
      tokens = kind.leadingTokens root input ++
          assertionsTokens input.generics asserted ∧
        (asserted = sensitive.filter (fun field =>
            isConcrete input.generics field.type) ↔
          ∀ field ∈ sensitive, looksConcrete input.generics field.type =
            isConcrete input.generics field.type) ∧
        ∀ field ∈ sensitive, field.type.isPlain = true →
          (∀ name ∈ field.type.freeNames, name ∈ input.generics.valueNames →
            name ∈ input.generics.typeNames) →
          looksConcrete input.generics field.type =
            isConcrete input.generics field.type := by
  obtain ⟨fields, hwell, rfl⟩ := expand_eq_ok hexpand
  refine ⟨fields, hwell, ?_, filter_eq_filter_iff,
    fun field _ hplain hvalues => looksConcrete_eq_isConcrete hplain hvalues⟩
  rw [assertedFields_eq]

/-- A structure with a type parameter and a sensitive function that takes
it. -/
def hook : RecordItem where
  attributes := []
  name := "Hook"
  start := ⟨1, 7⟩
  generics := { params := [.type [] "T" [] []] }
  fields := .named
    [{ attributes := [Source.SampleSources.sensitiveAt 1]
       visibility := .inherited
       name := some "on_change"
       start := ⟨1, 30⟩
       type := .path false
        [.mk "Option" (.angled false
          [.type (.other (Tokens.word "fn" ++
            Tokens.inBrackets .round (Tokens.word "T")))] false)] }]

/-- The function is asserted to have a default, though its type uses the
parameter and the assertion stands outside of it. -/
theorem hook_asserted_out_of_scope :
    ∃ tokens, expand .model "masking" hook.deriveInput = .ok tokens ∧
      tokens = markerTokens "masking" hook.deriveInput ++
        assertionsTokens hook.generics hook.fields.toList ∧
      ∀ field ∈ hook.fields.toList,
        isConcrete hook.generics field.type = false := by
  have hsucceeds :
      (expand .model "masking" hook.deriveInput).toBool = true := by
    decide +kernel
  cases hexpand : expand .model "masking" hook.deriveInput with
  | error error =>
      rw [hexpand] at hsucceeds
      cases hsucceeds
  | ok tokens =>
      obtain ⟨fields, hwell, htokens, _⟩ := assertions_of_derive hexpand
      obtain rfl := DeriveBody.record.inj hwell.isRecord
      exact ⟨tokens, rfl, htokens.trans rfl, by decide⟩

end RecordMasking
