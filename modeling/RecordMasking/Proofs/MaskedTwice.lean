import Mathlib.Data.Set.Defs
import RecordMasking.Proofs.Evaluation
import RecordMasking.Proofs.MaskTable
import RecordMasking.Proofs.TypedValue
import RecordMasking.Samples

/-!
# Masking twice

Tables can be made from any sets of paths, one for each type, as long as the
models that values are handed over to have tables as well.  The masks of such
tables may leave sensitive fields as they are, but a second mask finds nothing
to do: whatever is cleared is cleared to the same default again, and nested
values are masked by what has masked them before.  And since only sensitive
fields are cleared, a mask changes nothing that is not at or below one of
them.
-/

namespace RecordMasking

namespace MaskSystem

variable {α : Type} (masks : MaskSystem α)

/-! ## Rebuilding a rebuilt value -/

mutual

theorem rebuild_rebuild (entries : List (FieldName × Decision)) :
    ∀ value : Value α,
      masks.rebuild entries (masks.rebuild entries value) =
        masks.rebuild entries value
  | .leaf _ => by simp [rebuild]
  | .record type values => by
      simp only [rebuild, rebuildFields_rebuildFields type entries values]

theorem rebuildFields_rebuildFields (owner : QualifiedName)
    (entries : List (FieldName × Decision)) :
    ∀ values : List (FieldName × Value α),
      masks.rebuildFields owner entries
          (masks.rebuildFields owner entries values) =
        masks.rebuildFields owner entries values
  | [] => by simp [rebuildFields]
  | (name, value) :: rest => by
      rw [rebuildFields, rebuildFields,
        rebuildFields_rebuildFields owner entries rest]
      congr 2
      cases entries.lookup name with
      | none => rfl
      | some decision =>
          cases decision with
          | clear => rfl
          | delegate model =>
              exact rebuild_rebuild (masks.entries model) value
          | rebuild _ inner => exact rebuild_rebuild inner value
          | keep => rfl

end

theorem mask_mask (value : Value α) :
    masks.mask (masks.mask value) = masks.mask value := by
  cases value with
  | leaf content => rfl
  | record type values =>
      simpa [mask, rebuild] using
        masks.rebuild_rebuild (masks.entries type) (.record type values)

end MaskSystem

namespace Schema

variable {schema : Schema} {α : Type}

/-! ## Tables by chosen paths -/

/-- The masks by the tables that are made from the given paths of each
type. -/
def masksBy (schema : Schema) (pathsOf : QualifiedName → PathSet)
    (defaults : FieldType → Value α) : MaskSystem α where
  entries type :=
    match schema.decide type (pathsOf type) with
    | .ok table => table.entries
    | .error _ => []
  default := (schema.maskSystem defaults).default

theorem maskSystem_eq_masksBy (schema : Schema)
    (defaults : FieldType → Value α) :
    schema.maskSystem defaults =
      schema.masksBy (fun type => (schema.resolve type).paths) defaults :=
  rfl

/-- Each of the types has a table by its paths, and the models that values
are handed over to are among the types. -/
def HasTablesAmong (schema : Schema) (pathsOf : QualifiedName → PathSet)
    (types : Set QualifiedName) : Prop :=
  ∀ type ∈ types, ∃ table,
    schema.decide type (pathsOf type) = .ok table ∧
      ∀ model ∈ modelsOf table.entries, model ∈ types

/-- Entries that were decided for the fields of a type, whatever the paths
were, and that hand values over to the given types only. -/
structure DecidedAmong (schema : Schema) (types : Set QualifiedName)
    (type : QualifiedName) (entries : List (FieldName × Decision)) : Prop where
  fit : ∃ root paths,
    schema.EntriesFit root paths (schema.fields type) entries
  models : ∀ model ∈ modelsOf entries, model ∈ types

theorem HasTablesAmong.decided {pathsOf : QualifiedName → PathSet}
    {types : Set QualifiedName}
    (htables : schema.HasTablesAmong pathsOf types)
    (defaults : FieldType → Value α) {type : QualifiedName}
    (htype : type ∈ types) :
    schema.DecidedAmong types type
      ((schema.masksBy pathsOf defaults).entries type) := by
  obtain ⟨table, htable, hmodels⟩ := htables type htype
  have hentries : (schema.masksBy pathsOf defaults).entries type =
      table.entries := by
    simp [masksBy, htable]
  rw [hentries]
  exact ⟨⟨type, pathsOf type, entriesFit_of_decideFrom htable⟩, hmodels⟩

/-! ## What a mask leaves -/

mutual

/-- Two values are the same apart from what is at or below sensitive
fields. -/
inductive SameApart (schema : Schema) : Value α → Value α → Prop
  | leaf (content : α) : SameApart schema (.leaf content) (.leaf content)
  | record {type : QualifiedName} {values others : List (FieldName × Value α)}
      (hfields : SameFieldsApart schema type values others) :
      SameApart schema (.record type values) (.record type others)

inductive SameFieldsApart (schema : Schema) : QualifiedName →
    List (FieldName × Value α) → List (FieldName × Value α) → Prop
  | nil {owner : QualifiedName} : SameFieldsApart schema owner [] []
  | sensitive {owner : QualifiedName} {field : Field} {value other : Value α}
      {values others : List (FieldName × Value α)}
      (hfield : field ∈ schema.fields owner)
      (hsensitive : field.sensitive = true)
      (hrest : SameFieldsApart schema owner values others) :
      SameFieldsApart schema owner ((field.name, value) :: values)
        ((field.name, other) :: others)
  | plain {owner : QualifiedName} {name : FieldName} {value other : Value α}
      {values others : List (FieldName × Value α)}
      (hvalue : SameApart schema value other)
      (hrest : SameFieldsApart schema owner values others) :
      SameFieldsApart schema owner ((name, value) :: values)
        ((name, other) :: others)

end

mutual

theorem SameApart.refl (schema : Schema) :
    ∀ value : Value α, schema.SameApart value value
  | .leaf content => .leaf content
  | .record type values => .record (SameFieldsApart.refl schema type values)

theorem SameFieldsApart.refl (schema : Schema) (owner : QualifiedName) :
    ∀ values : List (FieldName × Value α),
      schema.SameFieldsApart owner values values
  | [] => .nil
  | (_, value) :: rest =>
      .plain (SameApart.refl schema value) (SameFieldsApart.refl schema owner rest)

end

variable {pathsOf : QualifiedName → PathSet} {types : Set QualifiedName}

mutual

theorem sameApart_rebuild (defaults : FieldType → Value α)
    (hdistinct : schema.DistinctNames)
    (htables : schema.HasTablesAmong pathsOf types) {type : QualifiedName}
    {entries : List (FieldName × Decision)} :
    ∀ {value : Value α}, schema.DecidedAmong types type entries →
      schema.HasType (.declared type) value →
      schema.SameApart value
        ((schema.masksBy pathsOf defaults).rebuild entries value)
  | .leaf content, _, _ => by
      rw [MaskSystem.rebuild]
      exact .leaf content
  | .record owner values, hdecided, hvalue => by
      cases hvalue with
      | record _ hvalues =>
          rw [MaskSystem.rebuild]
          exact .record (sameFieldsApart_rebuild defaults hdistinct htables
            hdecided hvalues (List.Subset.refl _))

theorem sameFieldsApart_rebuild (defaults : FieldType → Value α)
    (hdistinct : schema.DistinctNames)
    (htables : schema.HasTablesAmong pathsOf types) {type : QualifiedName}
    {entries : List (FieldName × Decision)} {fields : List Field} :
    ∀ {values : List (FieldName × Value α)},
      schema.DecidedAmong types type entries →
      schema.HasFields fields values → fields ⊆ schema.fields type →
      schema.SameFieldsApart type values
        ((schema.masksBy pathsOf defaults).rebuildFields type entries values)
  | [], _, _, _ => by
      rw [MaskSystem.rebuildFields]
      exact .nil
  | (_, value) :: rest, hdecided, hfields, hsubset => by
      cases hfields with
      | @cons field _ _ _ hvalue hrest =>
          obtain ⟨hfield, hothers⟩ := List.cons_subset.mp hsubset
          obtain ⟨root, paths, hfit⟩ := hdecided.fit
          obtain ⟨decision, hlookup, hentry, hdecides⟩ :=
            hfit.exists_lookup (hdistinct.nodup_names type) hfield
          have hbehind := sameFieldsApart_rebuild defaults hdistinct htables
            hdecided hrest hothers
          have hmodels : ∀ model ∈ decision.models, model ∈ types := by
            intro model hmodel
            exact hdecided.models model
              (mem_modelsOf_iff.mpr ⟨_, hentry, hmodel⟩)
          rw [MaskSystem.rebuildFields, hlookup]
          cases hdecides with
          | clear hsensitive => exact .sensitive hfield hsensitive hbehind
          | @delegate model _ htype _ _ =>
              have hmodel : model ∈ types :=
                hmodels model (by simp [Decision.models])
              rw [htype] at hvalue
              exact .plain (sameApart_rebuild defaults hdistinct htables
                (htables.decided defaults hmodel) hvalue) hbehind
          | @rebuild nested inner _ htype _ _ _ htable =>
              have hinner : schema.DecidedAmong types nested inner :=
                ⟨⟨root, _, entriesFit_of_decideFrom htable⟩, by
                  simpa [Decision.models] using hmodels⟩
              rw [htype] at hvalue
              exact .plain (sameApart_rebuild defaults hdistinct htables
                hinner hvalue) hbehind
          | keep => exact .plain (SameApart.refl schema value) hbehind

end

/-- Masking twice is masking once, by whatever paths the tables are made.  A
masked record has its fields in the same order, and nothing in it has changed
that is not at or below a sensitive field. -/
theorem masked_twice_as_once (schema : Schema)
    (hdistinct : schema.DistinctNames) (pathsOf : QualifiedName → PathSet)
    (defaults : FieldType → Value α) {types : Set QualifiedName}
    (htables : schema.HasTablesAmong pathsOf types) {type : QualifiedName}
    (htype : type ∈ types) {value : Value α}
    (hvalue : schema.HasType (.declared type) value) :
    let masks := schema.masksBy pathsOf defaults
    masks.mask (masks.mask value) = masks.mask value ∧
      schema.SameApart value (masks.mask value) ∧
      ∃ values others, value = .record type values ∧
        masks.mask value = .record type others ∧
        values.map Prod.fst = (schema.fields type).map Field.name ∧
        others.map Prod.fst = (schema.fields type).map Field.name := by
  intro masks
  obtain ⟨table, htable, _⟩ := htables type htype
  obtain ⟨values, rfl, hvalues⟩ :=
    hvalue.eq_record (isSome_lookup_of_decideFrom htable)
  have hmask : masks.mask (.record type values) =
      .record type (masks.rebuildFields type (masks.entries type) values) := by
    rw [MaskSystem.mask, MaskSystem.rebuild]
  refine ⟨masks.mask_mask _, ?_, values, _, rfl, hmask, hvalues.map_fst, ?_⟩
  · exact sameApart_rebuild defaults hdistinct htables
      (htables.decided defaults htype) hvalue
  · rw [← MaskSystem.rebuildFields_givens, Givens.map_fst_rebuildFields,
      hvalues.map_fst]

section

open Samples

/-- Paths that end nowhere: none for a customer, and for an invoice one that
leads to no field of its customer. -/
def strayPaths (type : QualifiedName) : PathSet :=
  if type = invoice.id then ⟨[[.named "customer", .position 0]]⟩ else .empty

def strayMasks : MaskSystem Leaf :=
  Samples.schema.masksBy strayPaths (defaultValue Samples.declarations.length)

theorem strayMasks_invoice :
    strayMasks.entries invoice.id =
      [(.named "number", .keep), (.named "card", .clear),
        (.named "customer", .delegate (named "Inner"))] := by
  simp only [strayMasks, masksBy, Schema.decide]
  rw [decideFrom]
  rfl

theorem strayMasks_customer :
    strayMasks.entries (named "Inner") = [(.named "value", .clear)] := by
  simp only [strayMasks, masksBy, Schema.decide]
  rw [decideFrom]
  rfl

theorem strayMasks_mask (card customer : String) :
    strayMasks.mask (invoiceValue card customer) = invoiceValue "" "" := by
  have hcustomer : strayMasks.rebuild (strayMasks.entries (named "Inner"))
      (.record (named "Inner") [(.named "value", .leaf (.text customer))]) =
        .record (named "Inner") [(.named "value", .leaf (.text ""))] := by
    rw [strayMasks_customer]
    rfl
  have hcard : strayMasks.mask (invoiceValue card customer) =
      .record invoice.id
        [(.named "number", .leaf (.text "17")),
          (.named "card", .leaf (.text "")),
          (.named "customer",
            strayMasks.rebuild (strayMasks.entries (named "Inner"))
              (.record (named "Inner")
                [(.named "value", .leaf (.text customer))]))] := by
    rw [invoiceValue, MaskSystem.mask, strayMasks_invoice]
    rfl
  rw [hcard, hcustomer]
  rfl

theorem invoice_masked_twice :
    Samples.schema.DistinctNames ∧
      Samples.schema.HasTablesAmong strayPaths
        {type | type ∈ [invoice.id, named "Inner"]} ∧
      Samples.schema.HasType (.declared invoice.id) (invoiceValue "4000" "Ada") ∧
      strayMasks.mask (invoiceValue "4000" "Ada") = invoiceValue "" "" ∧
      strayMasks.mask (strayMasks.mask (invoiceValue "4000" "Ada")) =
        invoiceValue "" "" := by
  have hdistinct : Samples.schema.DistinctNames := by decide
  have htables : Samples.schema.HasTablesAmong strayPaths
      {type | type ∈ [invoice.id, named "Inner"]} :=
    exists_table_of_within [invoice.id, named "Inner"] (by decide +kernel)
  have hvalue : Samples.schema.HasType (.declared invoice.id)
      (invoiceValue "4000" "Ada") := by
    decide +kernel
  have htwice := (masked_twice_as_once Samples.schema hdistinct strayPaths
    (defaultValue Samples.declarations.length) htables List.mem_cons_self
    hvalue).1
  have honce := strayMasks_mask "4000" "Ada"
  exact ⟨hdistinct, htables, hvalue, honce, htwice.trans honce⟩

end

end Schema

end RecordMasking
