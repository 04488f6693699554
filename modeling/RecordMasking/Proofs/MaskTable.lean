import Mathlib.Data.List.Forall2
import RecordMasking.MaskTable
import RecordMasking.Proofs.Walk
import RecordMasking.Resolution

/-!
# What a mask table decides

A table has one entry for each field of its type, and each entry is the one
decision that the field calls for.  `Schema.Decides` lists the four decisions
with everything that is known where they are made; a table that is found for
a type is read through it, field by field.  A table also names models, those
whose own masks it relies on.
-/

namespace RecordMasking

/-! ## Steps that may fail -/

theorem bind_eq_ok_iff {ε α β : Type} {step : Except ε α}
    {next : α → Except ε β} {result : β} :
    step >>= next = .ok result ↔
      ∃ middle, step = .ok middle ∧ next middle = .ok result := by
  cases step <;> simp [bind, Except.bind]

theorem exists_eq_ok {ε α : Type} {step : Except ε α}
    (hsome : step.toOption.isSome = true) : ∃ value, step = .ok value := by
  cases step with
  | error failure => simp [Except.toOption] at hsome
  | ok value => exact ⟨value, rfl⟩

theorem mapM_eq_ok_iff {ε α β : Type} {step : α → Except ε β}
    {items : List α} {results : List β} :
    items.mapM step = .ok results ↔
      List.Forall₂ (fun item result => step item = .ok result)
        items results := by
  induction items generalizing results with
  | nil => cases results <;> simp [pure, Except.pure]
  | cons item rest ih =>
      rw [List.mapM_cons, bind_eq_ok_iff]
      constructor
      · rintro ⟨result, hresult, hrest⟩
        obtain ⟨others, hothers, heq⟩ := bind_eq_ok_iff.mp hrest
        obtain rfl : result :: others = results := Except.ok.inj heq
        exact .cons hresult (ih.mp hothers)
      · intro hall
        cases hall with
        | @cons _ result _ others hresult hothers =>
            exact ⟨result, hresult,
              bind_eq_ok_iff.mpr ⟨others, ih.mpr hothers, rfl⟩⟩

theorem lookup_eq_some_of_mem {α : Type} {entries : List (FieldName × α)}
    (hnames : (entries.map Prod.fst).Nodup) {name : FieldName} {value : α}
    (hentry : (name, value) ∈ entries) :
    entries.lookup name = some value := by
  induction entries with
  | nil => simp at hentry
  | cons first rest ih =>
      rw [List.map_cons, List.nodup_cons] at hnames
      rcases List.mem_cons.mp hentry with rfl | hlater
      · simp
      · have hne : name ≠ first.1 := by
          rintro rfl
          exact hnames.1 (List.mem_map.mpr ⟨_, hlater, rfl⟩)
        rw [List.lookup_cons, beq_false_of_ne hne]
        exact ih hnames.2 hlater

/-! ## Models that values are handed over to -/

mutual

/-- The models that a decision hands values over to, at whatever depth. -/
def Decision.models : Decision → List QualifiedName
  | .clear => []
  | .delegate model => [model]
  | .rebuild _ entries => modelsOf entries
  | .keep => []

def modelsOf : List (FieldName × Decision) → List QualifiedName
  | [] => []
  | (_, decision) :: rest => decision.models ++ modelsOf rest

end

theorem mem_modelsOf_iff {entries : List (FieldName × Decision)}
    {model : QualifiedName} :
    model ∈ modelsOf entries ↔ ∃ entry ∈ entries, model ∈ entry.2.models := by
  induction entries with
  | nil => simp [modelsOf]
  | cons entry rest ih => simp [modelsOf, ih]

namespace Schema

variable {schema : Schema}

theorem declarationOf_eq_ok_iff {id : QualifiedName}
    {declaration : Declaration} :
    schema.declarationOf id = .ok declaration ↔
      schema.lookup id = some declaration := by
  unfold declarationOf
  cases schema.lookup id <;> simp

theorem fields_of_lookup {id : QualifiedName} {declaration : Declaration}
    (hlookup : schema.lookup id = some declaration) :
    schema.fields id = declaration.fields := by
  simp [fields, hlookup]

/-! ## One field -/

/-- The decision for a field of a record that is reached from `root`, with
what makes it. -/
inductive Decides (schema : Schema) (root : QualifiedName) (paths : PathSet)
    (field : Field) : Decision → Prop
  | clear (hsensitive : field.sensitive = true) :
      Decides schema root paths field .clear
  | delegate {model : QualifiedName} (hplain : field.sensitive = false)
      (htype : field.type = .declared model)
      (hbelow : (paths.below field.name).isEmpty = false)
      (hdelegates : schema.delegates model = true) :
      Decides schema root paths field (.delegate model)
  | rebuild {nested : QualifiedName}
      {entries : List (FieldName × Decision)}
      (hplain : field.sensitive = false)
      (htype : field.type = .declared nested)
      (hbelow : (paths.below field.name).isEmpty = false)
      (hdelegates : schema.delegates nested = false)
      (hvisible : schema.checkVisible root nested = .ok ())
      (htable : schema.decideFrom root nested (paths.below field.name) =
        .ok ⟨nested, entries⟩) :
      Decides schema root paths field (.rebuild nested entries)
  | keep (hplain : field.sensitive = false)
      (hempty : ∀ nested, field.type = .declared nested →
        (paths.below field.name).isEmpty = true) :
      Decides schema root paths field .keep

def decideField (schema : Schema) (root : QualifiedName) (paths : PathSet)
    (field : Field) : Except Fault (FieldName × Decision) := do
  if field.sensitive then
    return (field.name, .clear)
  else
    match field.type with
    | .declared nested =>
        if _ : (paths.below field.name).isEmpty = false then
          if schema.delegates nested then
            return (field.name, .delegate nested)
          else
            schema.checkVisible root nested
            let table ←
              schema.decideFrom root nested (paths.below field.name)
            return (field.name, .rebuild table.type table.entries)
        else
          return (field.name, .keep)
    | _ => return (field.name, .keep)

theorem decideFrom_eq (root type : QualifiedName) (paths : PathSet) :
    schema.decideFrom root type paths = do
      let declaration ← schema.declarationOf type
      let entries ←
        declaration.fields.mapM (schema.decideField root paths)
      return ⟨type, entries⟩ := by
  rw [decideFrom]
  rfl

theorem type_of_decideFrom {root type : QualifiedName} {paths : PathSet}
    {table : MaskTable} (htable : schema.decideFrom root type paths = .ok table) :
    table.type = type := by
  rw [decideFrom_eq] at htable
  obtain ⟨_, _, hrest⟩ := bind_eq_ok_iff.mp htable
  obtain ⟨entries, _, heq⟩ := bind_eq_ok_iff.mp hrest
  obtain rfl : ⟨type, entries⟩ = table := Except.ok.inj heq
  rfl

theorem isSome_lookup_of_decideFrom {root type : QualifiedName}
    {paths : PathSet} {table : MaskTable}
    (htable : schema.decideFrom root type paths = .ok table) :
    (schema.lookup type).isSome := by
  rw [decideFrom_eq] at htable
  obtain ⟨declaration, hdeclaration, _⟩ := bind_eq_ok_iff.mp htable
  simp [declarationOf_eq_ok_iff.mp hdeclaration]

theorem isSome_lookup_of_delegates {id : QualifiedName}
    (hdelegates : schema.delegates id = true) :
    (schema.lookup id).isSome := by
  unfold delegates at hdelegates
  cases hlookup : schema.lookup id with
  | none => simp [hlookup] at hdelegates
  | some declaration => rfl

theorem decides_of_decideField {root : QualifiedName} {paths : PathSet}
    {field : Field} {entry : FieldName × Decision}
    (hentry : schema.decideField root paths field = .ok entry) :
    entry.1 = field.name ∧ schema.Decides root paths field entry.2 := by
  unfold decideField at hentry
  split at hentry
  next hsensitive =>
    obtain rfl := Except.ok.inj hentry
    exact ⟨rfl, .clear hsensitive⟩
  next hplain =>
    rw [Bool.not_eq_true] at hplain
    split at hentry
    next nested htype =>
      split at hentry
      next hbelow =>
        split at hentry
        next hdelegates =>
          obtain rfl := Except.ok.inj hentry
          exact ⟨rfl, .delegate hplain htype hbelow hdelegates⟩
        next hdelegates =>
          obtain ⟨_, hvisible, hrest⟩ := bind_eq_ok_iff.mp hentry
          obtain ⟨⟨type, entries⟩, htable, heq⟩ := bind_eq_ok_iff.mp hrest
          obtain rfl : type = nested := type_of_decideFrom htable
          obtain rfl := Except.ok.inj heq
          exact ⟨rfl, .rebuild hplain htype hbelow (by simpa using hdelegates)
            hvisible htable⟩
      next hempty =>
        obtain rfl := Except.ok.inj hentry
        exact ⟨rfl, .keep hplain fun _ _ => by simpa using hempty⟩
    next hother =>
      obtain rfl := Except.ok.inj hentry
      exact ⟨rfl, .keep hplain fun nested htype =>
        (hother nested htype).elim⟩

/-! ## A whole table -/

def EntriesFit (schema : Schema) (root : QualifiedName) (paths : PathSet) :
    List Field → List (FieldName × Decision) → Prop :=
  List.Forall₂ fun field entry =>
    entry.1 = field.name ∧ schema.Decides root paths field entry.2

theorem entriesFit_of_decideFrom {root type : QualifiedName}
    {paths : PathSet} {table : MaskTable}
    (htable : schema.decideFrom root type paths = .ok table) :
    schema.EntriesFit root paths (schema.fields type) table.entries := by
  rw [decideFrom_eq] at htable
  obtain ⟨declaration, hdeclaration, hrest⟩ := bind_eq_ok_iff.mp htable
  obtain ⟨entries, hentries, heq⟩ := bind_eq_ok_iff.mp hrest
  obtain rfl : ⟨type, entries⟩ = table := Except.ok.inj heq
  rw [fields_of_lookup (declarationOf_eq_ok_iff.mp hdeclaration)]
  exact (mapM_eq_ok_iff.mp hentries).imp fun _ _ => decides_of_decideField

theorem EntriesFit.map_fst {root : QualifiedName} {paths : PathSet}
    {fields : List Field} {entries : List (FieldName × Decision)}
    (hfit : schema.EntriesFit root paths fields entries) :
    entries.map Prod.fst = fields.map Field.name := by
  induction hfit with
  | nil => rfl
  | cons hentry _ ih => simp [hentry.1, ih]

theorem EntriesFit.exists_field {root : QualifiedName} {paths : PathSet}
    {fields : List Field} {entries : List (FieldName × Decision)}
    (hfit : schema.EntriesFit root paths fields entries)
    {name : FieldName} {decision : Decision}
    (hentry : (name, decision) ∈ entries) :
    ∃ field ∈ fields, name = field.name ∧
      schema.Decides root paths field decision := by
  induction hfit with
  | nil => simp at hentry
  | @cons field first fields others hfirst _ ih =>
      rcases List.mem_cons.mp hentry with rfl | hlater
      · exact ⟨field, List.mem_cons_self, hfirst⟩
      · obtain ⟨found, hfound, hdecides⟩ := ih hlater
        exact ⟨found, List.mem_cons_of_mem field hfound, hdecides⟩

theorem EntriesFit.exists_lookup {root : QualifiedName} {paths : PathSet}
    {fields : List Field} {entries : List (FieldName × Decision)}
    (hfit : schema.EntriesFit root paths fields entries)
    (hnames : (fields.map Field.name).Nodup) {field : Field}
    (hfield : field ∈ fields) :
    ∃ decision, entries.lookup field.name = some decision ∧
      (field.name, decision) ∈ entries ∧
      schema.Decides root paths field decision := by
  obtain ⟨decision, hentry, hdecides⟩ : ∃ decision,
      (field.name, decision) ∈ entries ∧
        schema.Decides root paths field decision := by
    clear hnames
    induction hfit with
    | nil => simp at hfield
    | @cons first entry rest others hentry _ ih =>
        rcases List.mem_cons.mp hfield with rfl | hlater
        · refine ⟨entry.2, ?_, hentry.2⟩
          rw [← hentry.1]
          exact List.mem_cons_self
        · obtain ⟨decision, hmem, hdecides⟩ := ih hlater
          exact ⟨decision, List.mem_cons_of_mem entry hmem, hdecides⟩
  rw [← hfit.map_fst] at hnames
  exact ⟨decision, lookup_eq_some_of_mem hnames hentry, hentry, hdecides⟩

def HandsTo (schema : Schema) (type model : QualifiedName) : Prop :=
  ∃ table, schema.decide type (schema.resolve type).paths = .ok table ∧
    model ∈ modelsOf table.entries

/-- A type has a table, and so has every model that values are handed over
to, directly or by way of other models. -/
def HasTables (schema : Schema) (type : QualifiedName) : Prop :=
  ∀ model, Relation.ReflTransGen schema.HandsTo type model →
    ∃ table, schema.decide model (schema.resolve model).paths = .ok table

theorem HasTables.exists_table {type : QualifiedName}
    (htables : schema.HasTables type) :
    ∃ table, schema.decide type (schema.resolve type).paths = .ok table :=
  htables type .refl

theorem HasTables.of_handsTo {type model : QualifiedName}
    (htables : schema.HasTables type) (hhands : schema.HandsTo type model) :
    schema.HasTables model :=
  fun last hlast => htables last (hlast.head hhands)

theorem exists_table_of_within {pathsOf : QualifiedName → PathSet}
    (names : List QualifiedName)
    (hwithin : names.all fun type =>
      match schema.decide type (pathsOf type) with
      | .ok table => (modelsOf table.entries).all names.contains
      | .error _ => false) :
    ∀ type ∈ names, ∃ table, schema.decide type (pathsOf type) = .ok table ∧
      ∀ model ∈ modelsOf table.entries, model ∈ names := by
  intro type htype
  have hchecked := List.all_eq_true.mp hwithin type htype
  split at hchecked
  next table htable => exact ⟨table, htable, by simpa using hchecked⟩
  next => simp at hchecked

theorem hasTables_of_within (names : List QualifiedName)
    (hwithin : names.all fun type =>
      match schema.decide type (schema.resolve type).paths with
      | .ok table => (modelsOf table.entries).all names.contains
      | .error _ => false)
    {type : QualifiedName} (htype : type ∈ names) :
    schema.HasTables type := by
  have hstep := exists_table_of_within names hwithin
  have hclosed : ∀ model, Relation.ReflTransGen schema.HandsTo type model →
      model ∈ names := by
    intro model hreached
    induction hreached with
    | refl => exact htype
    | tail _ hhands ih =>
        obtain ⟨table, htable, hall⟩ := hstep _ ih
        obtain ⟨other, hother, hmodel⟩ := hhands
        obtain rfl : table = other :=
          Except.ok.inj (htable.symm.trans hother)
        exact hall _ hmodel
  intro model hreached
  obtain ⟨table, htable, _⟩ := hstep model (hclosed model hreached)
  exact ⟨table, htable⟩

end Schema

end RecordMasking
