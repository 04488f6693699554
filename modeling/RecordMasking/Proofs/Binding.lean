import RecordMasking.Proofs.Evaluation
import RecordMasking.Synthesis

/-!
# The variables of a record

Every field of a record that is taken apart is bound to one variable, its own
name or one made from its position.  Where the names of the fields are proper,
these variables differ, and behind the pattern of a record each of them holds
its field.  This is so whatever the variables held before: names may come
back in nested records.
-/

namespace RecordMasking

open Code

def variableOf : FieldName → String
  | .named text => text
  | .position index => "field_" ++ toString index

namespace FieldName

def isIdentifier : FieldName → Bool
  | .named text => (readName text).toOption == some text
  | .position _ => false

def isPosition : FieldName → Bool
  | .named _ => false
  | .position _ => true

theorem exists_of_isIdentifier {name : FieldName}
    (hname : name.isIdentifier = true) :
    ∃ text, name = .named text ∧ readName text = .ok text := by
  cases name with
  | named text =>
      unfold isIdentifier at hname
      cases hread : readName text with
      | ok read =>
          obtain rfl : read = text := by
            simpa [hread, Except.toOption] using hname
          exact ⟨read, rfl, hread⟩
      | error detail => simp [hread, Except.toOption] at hname
  | position index => simp [isIdentifier] at hname

theorem exists_of_isPosition {name : FieldName}
    (hname : name.isPosition = true) : ∃ index, name = .position index := by
  cases name with
  | named text => simp [isPosition] at hname
  | position index => exact ⟨index, rfl⟩

end FieldName

/-- The fields of a record are named by identifiers, which are told apart
without the mark of raw names, or stand at different positions. -/
inductive ProperNames (fields : List Field) : Prop
  | identifiers (hnames : ∀ field ∈ fields, field.name.isIdentifier = true)
      (hdistinct : (fields.map fun field =>
        bareName field.name.display).Nodup)
  | positions (hnames : ∀ field ∈ fields, field.name.isPosition = true)
      (hdistinct : (fields.map Field.name).Nodup)

instance (fields : List Field) : Decidable (ProperNames fields) :=
  decidable_of_iff
    (((∀ field ∈ fields, field.name.isIdentifier = true) ∧
        (fields.map fun field => bareName field.name.display).Nodup) ∨
      (∀ field ∈ fields, field.name.isPosition = true) ∧
        (fields.map Field.name).Nodup)
    ⟨fun h => h.elim (fun h => .identifiers h.1 h.2)
        fun h => .positions h.1 h.2,
      fun h => h.casesOn (fun hnames hdistinct => .inl ⟨hnames, hdistinct⟩)
        fun hnames hdistinct => .inr ⟨hnames, hdistinct⟩⟩

theorem ne_underscore_of_readName {text : String}
    (htext : readName text = .ok text) : text ≠ "_" := by
  rintro rfl
  have hnone : (readName "_").toOption = none := by decide +kernel
  simp [htext, Except.toOption] at hnone

theorem bareName_variableOf_position (index : Nat) :
    bareName (variableOf (.position index)) =
      variableOf (.position index) := by
  simp [bareName, variableOf]

theorem variableOf_position_inj {left right : Nat}
    (heq : variableOf (.position left) = variableOf (.position right)) :
    left = right := by
  unfold variableOf at heq
  exact toString_nat_inj ((String.append_right_inj _).mp heq)

namespace ProperNames

variable {fields : List Field}

theorem bindingOf_eq (hproper : ProperNames fields) {field : Field}
    (hfield : field ∈ fields) (owner : QualifiedName) :
    bindingOf owner field.name =
      .ok (field.name, variableOf field.name) := by
  cases hproper with
  | identifiers hnames _ =>
      obtain ⟨text, hname, htext⟩ :=
        FieldName.exists_of_isIdentifier (hnames field hfield)
      simp [hname, bindingOf, htext, variableOf]
  | positions hnames _ =>
      obtain ⟨index, hname⟩ :=
        FieldName.exists_of_isPosition (hnames field hfield)
      simp [hname, bindingOf, variableOf]

theorem nodup_variables (hproper : ProperNames fields) :
    (((fields.map Field.name).map variableOf).map bareName).Nodup := by
  cases hproper with
  | identifiers hnames hdistinct =>
      have heq : ((fields.map Field.name).map variableOf).map bareName =
          fields.map fun field => bareName field.name.display := by
        rw [List.map_map, List.map_map]
        refine List.map_congr_left fun field hfield => ?_
        obtain ⟨text, hname, _⟩ :=
          FieldName.exists_of_isIdentifier (hnames field hfield)
        simp [hname, variableOf, FieldName.display]
      rwa [heq]
  | positions hnames hdistinct =>
      rw [List.map_map]
      refine List.Nodup.map_on ?_ hdistinct
      intro left hleft right hright heq
      obtain ⟨first, hfirst, rfl⟩ := List.mem_map.mp hleft
      obtain ⟨second, hsecond, rfl⟩ := List.mem_map.mp hright
      obtain ⟨i, hi⟩ := FieldName.exists_of_isPosition (hnames first hfirst)
      obtain ⟨j, hj⟩ := FieldName.exists_of_isPosition (hnames second hsecond)
      rw [Function.comp_apply, Function.comp_apply, hi, hj,
        bareName_variableOf_position, bareName_variableOf_position] at heq
      rw [hi, hj, variableOf_position_inj heq]

theorem nodup_names (hproper : ProperNames fields) :
    (fields.map Field.name).Nodup :=
  (hproper.nodup_variables.of_map bareName).of_map variableOf

theorem ne_underscore (hproper : ProperNames fields) {field : Field} (hfield : field ∈ fields) :
    field.name ≠ .named "_" ∧ variableOf field.name ≠ "_" := by
  cases hproper with
  | identifiers hnames _ =>
      obtain ⟨text, hname, htext⟩ :=
        FieldName.exists_of_isIdentifier (hnames field hfield)
      have hne := ne_underscore_of_readName htext
      simp [hname, variableOf, hne]
  | positions hnames _ =>
      obtain ⟨index, hname⟩ :=
        FieldName.exists_of_isPosition (hnames field hfield)
      have hne : variableOf (.position index) ≠ "_" := by
        intro heq
        have hchars := congrArg String.toList heq
        simp [variableOf] at hchars
      exact ⟨by simp [hname], by rwa [hname]⟩

end ProperNames

def patternOf (entry : FieldName × Decision) : FieldName × Option String :=
  (entry.1, if entry.2.isClear then none else some (variableOf entry.1))

@[simp] theorem map_fst_patternOf (entries : List (FieldName × Decision)) :
    (entries.map patternOf).map Prod.fst = entries.map Prod.fst := by
  simp [patternOf, Function.comp_def]

theorem boundNames_sublist (entries : List (FieldName × Decision)) :
    (boundNames (entries.map patternOf)).Sublist
      ((entries.map Prod.fst).map variableOf) := by
  induction entries with
  | nil => simp [boundNames]
  | cons entry rest ih =>
      unfold boundNames at ih ⊢
      cases hclear : entry.2.isClear with
      | true => simpa [patternOf, hclear] using ih.cons _
      | false => simpa [patternOf, hclear] using ih

theorem fst_of_binding? {α : Type} {values : List (FieldName × Value α)}
    {entry : FieldName × Decision} {binding : String × Value α}
    (hbinding : binding? values (patternOf entry) = some binding) :
    binding.1 = variableOf entry.1 := by
  unfold binding? patternOf at hbinding
  split at hbinding
  next hname _ =>
    obtain rfl := Option.some.inj hbinding
    split at hname
    · simp at hname
    · exact (Option.some.inj hname).symm
  next => simp at hbinding

/-- Behind a pattern, the variable of a field that is not cleared holds the
field, whatever it held before. -/
theorem value?_bindings {α : Type} {entries : List (FieldName × Decision)}
    {values : List (FieldName × Value α)} {name : FieldName}
    {decision : Decision} {value : Value α}
    (hdistinct :
      (((entries.map Prod.fst).map variableOf).map bareName).Nodup)
    (hentry : (name, decision) ∈ entries)
    (hkept : decision.isClear = false)
    (hvalue : values.lookup name = some value) (scope : Scope α) :
    Scope.value? (bindings (entries.map patternOf) values ++ scope)
      (variableOf name) = some value := by
  induction entries with
  | nil => simp at hentry
  | cons entry rest ih =>
      rw [List.map_cons, List.map_cons, List.map_cons,
        List.nodup_cons] at hdistinct
      rcases List.mem_cons.mp hentry with rfl | hlater
      · simp [bindings, binding?, patternOf, hkept, hvalue, Scope.value?]
      · have hne : bareName (variableOf entry.1) ≠
            bareName (variableOf name) := by
          intro heq
          apply hdistinct.1
          rw [heq]
          exact List.mem_map_of_mem
            (List.mem_map_of_mem (List.mem_map_of_mem hlater))
        have hrest := ih hdistinct.2 hlater
        -- The first binding, if there is one, is of another variable.
        unfold bindings at hrest ⊢
        rw [List.map_cons, List.filterMap_cons]
        split
        next => exact hrest
        next binding hbinding =>
          rw [List.cons_append, Scope.value?, List.find?_cons_of_neg]
          · exact hrest
          · simpa [fst_of_binding? hbinding] using hne

end RecordMasking
