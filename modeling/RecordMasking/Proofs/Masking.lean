import RecordMasking.Proofs.MaskTable
import RecordMasking.Proofs.Rerooting
import RecordMasking.Proofs.TypedValue
import RecordMasking.Samples

/-!
# What masks mean

A masked value is the value with a default in place of every sensitive field,
at whatever depth.  `Schema.redact` says this by the schema alone; the main
statement is that the masks of the tables do the same to every value.

The tables of nested records are made from the paths of the outer record, and
those of models from paths of their own.  Both rest on one invariant: nothing
below the type of a table is on the way to it.  It holds because types with
values do not lie below themselves, and a cut or kept field under it has
nothing sensitive below.
-/

namespace RecordMasking

namespace Schema

variable {schema : Schema} {α : Type} {defaults : FieldType → Value α}

mutual

/-- A value with every sensitive field replaced by the default of its
type. -/
def redact (schema : Schema) (defaults : FieldType → Value α) :
    Value α → Value α
  | .leaf content => .leaf content
  | .record type values =>
      .record type (schema.redactFields defaults type values)

def redactFields (schema : Schema) (defaults : FieldType → Value α)
    (owner : QualifiedName) :
    List (FieldName × Value α) → List (FieldName × Value α)
  | [] => []
  | (name, value) :: rest =>
      (name,
        match schema.field? owner name with
        | some field =>
            if field.sensitive then defaults field.type
            else schema.redact defaults value
        | none => value) ::
        schema.redactFields defaults owner rest

end

theorem redactFields_cons (hdistinct : schema.DistinctNames)
    {owner : QualifiedName} {field : Field}
    (hfield : field ∈ schema.fields owner) (value : Value α)
    (rest : List (FieldName × Value α)) :
    schema.redactFields defaults owner ((field.name, value) :: rest) =
      (field.name,
        if field.sensitive then defaults field.type
        else schema.redact defaults value) ::
        schema.redactFields defaults owner rest := by
  rw [redactFields, field?_of_mem hdistinct hfield]

/-! ## Values without anything sensitive -/

theorem ClosureHas.of_nests {owner next : QualifiedName}
    {property : Field → Prop} (hnests : schema.Nests owner next)
    (hbelow : schema.ClosureHas next property) :
    schema.ClosureHas owner property := by
  obtain ⟨type, field, hclosure, hfield, hproperty⟩ := hbelow
  exact ⟨type, field, hclosure.head hnests, hfield, hproperty⟩

mutual

/-- A value is left as it is when nothing in the closure of its type is
sensitive. -/
theorem redact_eq_self (hdistinct : schema.DistinctNames)
    {type : FieldType} :
    ∀ {value : Value α}, schema.HasType type value →
      (∀ id, type = .declared id → (schema.lookup id).isSome →
        ¬ schema.ClosureHas id fun field => field.sensitive = true) →
      schema.redact defaults value = value
  | .leaf _, _, _ => by rw [redact]
  | .record owner values, hvalue, hplain => by
      cases hvalue with
      | record hdeclared hvalues =>
          rw [redact, redactFields_eq_self hdistinct hvalues
            (List.Subset.refl _) (hplain owner rfl hdeclared)]

theorem redactFields_eq_self (hdistinct : schema.DistinctNames)
    {owner : QualifiedName} {fields : List Field} :
    ∀ {values : List (FieldName × Value α)},
      schema.HasFields fields values → fields ⊆ schema.fields owner →
      ¬ schema.ClosureHas owner (fun field => field.sensitive = true) →
      schema.redactFields defaults owner values = values
  | [], _, _, _ => by rw [redactFields]
  | (_, value) :: rest, hfields, hsubset, hplain => by
      cases hfields with
      | @cons field _ _ _ hvalue hrest =>
          obtain ⟨hfield, hothers⟩ := List.cons_subset.mp hsubset
          have hkept : field.sensitive = false := by
            by_contra hsensitive
            exact hplain ⟨owner, field, .refl, hfield,
              by simpa using hsensitive⟩
          have hsame : schema.redact defaults value = value := by
            refine redact_eq_self hdistinct hvalue ?_
            intro id htype hdeclared hbelow
            exact hplain (hbelow.of_nests ⟨field, hfield, htype, hdeclared⟩)
          rw [redactFields_cons hdistinct hfield, hkept, hsame,
            redactFields_eq_self hdistinct hrest hothers hplain]
          rfl

end

/-! ## The invariant of a table -/

/-- Entries fit a type by paths that are resolved with nothing below the type
on the way, and the models they hand values over to have tables. -/
structure Follows (schema : Schema) (root type : QualifiedName)
    (onPath : List QualifiedName) (entries : List (FieldName × Decision)) :
    Prop where
  clear : ∀ below, Relation.TransGen schema.Nests type below → below ∉ onPath
  fit : schema.EntriesFit root (schema.resolveOnPath type onPath).paths
    (schema.fields type) entries
  tables : ∀ model ∈ modelsOf entries, schema.HasTables model

namespace Follows

variable {root type : QualifiedName} {onPath : List QualifiedName}
  {entries : List (FieldName × Decision)}

/-- What is below a nested type is on the way neither to the outer type nor
to the nested one. -/
theorem clear_cons (hfollows : schema.Follows root type onPath entries)
    {next : QualifiedName} (hnests : schema.Nests type next)
    (hacyclic : ¬ Relation.TransGen schema.Nests next next) :
    ∀ below, Relation.TransGen schema.Nests next below →
      below ∉ next :: onPath := by
  intro below hbelow
  rw [List.mem_cons, not_or]
  constructor
  · rintro rfl
    exact hacyclic hbelow
  · exact hfollows.clear below (.head hnests hbelow)

/-- The paths below a field are those of its type. -/
theorem paths_below (hdistinct : schema.DistinctNames)
    (hfollows : schema.Follows root type onPath entries) {field : Field}
    (hfield : field ∈ schema.fields type) {nested : QualifiedName}
    (htype : field.type = .declared nested)
    (hnested : (schema.lookup nested).isSome) :
    (schema.resolveOnPath type onPath).paths.below field.name =
      (schema.resolveOnPath nested (nested :: onPath)).paths := by
  have hnests : schema.Nests type nested := ⟨field, hfield, htype, hnested⟩
  have hoff : nested ∉ onPath := hfollows.clear nested (.single hnests)
  exact below_paths hdistinct hfield htype hoff hnested

theorem rebuild (hdistinct : schema.DistinctNames)
    (hfollows : schema.Follows root type onPath entries) {field : Field}
    (hfield : field ∈ schema.fields type) {nested : QualifiedName}
    {inner : List (FieldName × Decision)}
    (hentry : (field.name, .rebuild nested inner) ∈ entries)
    (htype : field.type = .declared nested)
    (hnested : (schema.lookup nested).isSome)
    (hacyclic : ¬ Relation.TransGen schema.Nests nested nested)
    (htable : schema.decideFrom root nested
      ((schema.resolveOnPath type onPath).paths.below field.name) =
        .ok ⟨nested, inner⟩) :
    schema.Follows root nested (nested :: onPath) inner := by
  have hnests : schema.Nests type nested := ⟨field, hfield, htype, hnested⟩
  rw [hfollows.paths_below hdistinct hfield htype hnested] at htable
  refine ⟨hfollows.clear_cons hnests hacyclic,
    entriesFit_of_decideFrom htable, fun model hmodel => ?_⟩
  exact hfollows.tables model (mem_modelsOf_iff.mpr ⟨_, hentry, by
    simpa [Decision.models] using hmodel⟩)

theorem of_hasTables {model : QualifiedName}
    (htables : schema.HasTables model)
    (hacyclic : ¬ Relation.TransGen schema.Nests model model) :
    schema.Follows model model [model]
      ((schema.maskSystem defaults).entries model) := by
  obtain ⟨table, htable⟩ := htables.exists_table
  have hentries : (schema.maskSystem defaults).entries model =
      table.entries := by
    simp [maskSystem, htable]
  rw [hentries]
  refine ⟨fun below hbelow => ?_, entriesFit_of_decideFrom htable,
    fun next hnext => htables.of_handsTo ⟨table, htable, hnext⟩⟩
  rw [List.mem_singleton]
  rintro rfl
  exact hacyclic hbelow

theorem redact_of_keep (hdistinct : schema.DistinctNames)
    (hfollows : schema.Follows root type onPath entries) {field : Field}
    (hfield : field ∈ schema.fields type)
    (hempty : ∀ nested, field.type = .declared nested →
      ((schema.resolveOnPath type onPath).paths.below
        field.name).isEmpty = true)
    {value : Value α} (hvalue : schema.HasType field.type value) :
    schema.redact defaults value = value := by
  refine redact_eq_self hdistinct hvalue fun nested htype hnested => ?_
  have hnests : schema.Nests type nested := ⟨field, hfield, htype, hnested⟩
  have hnothing := hempty nested htype
  rw [hfollows.paths_below hdistinct hfield htype hnested] at hnothing
  refine not_sensitive_of_isEmpty (fun below hbelow => ?_) hnothing
  exact hfollows.clear below (.head hnests hbelow)

end Follows

/-! ## Masking -/

theorem maskSystem_default (hdistinct : schema.DistinctNames)
    {owner : QualifiedName} {field : Field}
    (hfield : field ∈ schema.fields owner) :
    (schema.maskSystem defaults).default owner field.name =
      defaults field.type := by
  simp [maskSystem, field?_of_mem hdistinct hfield]

mutual

theorem rebuild_eq_redact (hdistinct : schema.DistinctNames)
    {root type : QualifiedName} {onPath : List QualifiedName}
    {entries : List (FieldName × Decision)} :
    ∀ {value : Value α}, schema.Follows root type onPath entries →
      schema.HasType (.declared type) value →
      (schema.maskSystem defaults).rebuild entries value =
        schema.redact defaults value
  | .leaf _, _, _ => by rw [MaskSystem.rebuild, redact]
  | .record owner values, hfollows, hvalue => by
      cases hvalue with
      | record _ hvalues =>
          rw [MaskSystem.rebuild, redact, rebuildFields_eq_redactFields
            hdistinct hfollows hvalues (List.Subset.refl _)]

theorem rebuildFields_eq_redactFields (hdistinct : schema.DistinctNames)
    {root type : QualifiedName} {onPath : List QualifiedName}
    {entries : List (FieldName × Decision)} {fields : List Field} :
    ∀ {values : List (FieldName × Value α)},
      schema.Follows root type onPath entries →
      schema.HasFields fields values → fields ⊆ schema.fields type →
      (schema.maskSystem defaults).rebuildFields type entries values =
        schema.redactFields defaults type values
  | [], _, _, _ => by rw [MaskSystem.rebuildFields, redactFields]
  | (_, value) :: rest, hfollows, hfields, hsubset => by
      cases hfields with
      | @cons field _ _ _ hvalue hrest =>
          obtain ⟨hfield, hothers⟩ := List.cons_subset.mp hsubset
          obtain ⟨decision, hlookup, hentry, hdecides⟩ :=
            hfollows.fit.exists_lookup (hdistinct.nodup_names type) hfield
          rw [redactFields_cons hdistinct hfield, MaskSystem.rebuildFields,
            hlookup, rebuildFields_eq_redactFields hdistinct hfollows hrest
              hothers]
          congr 2
          cases hdecides with
          | clear hsensitive =>
              simp [maskSystem_default hdistinct hfield, hsensitive]
          | @delegate model hplain htype _ hdelegates =>
              have hdeclared := isSome_lookup_of_delegates hdelegates
              have htables : schema.HasTables model :=
                hfollows.tables model (mem_modelsOf_iff.mpr
                  ⟨_, hentry, by simp [Decision.models]⟩)
              rw [htype] at hvalue
              simpa [hplain] using rebuild_eq_redact hdistinct
                (Follows.of_hasTables htables hvalue.acyclic) hvalue
          | @rebuild nested inner hplain htype _ _ _ htable =>
              have hnested := isSome_lookup_of_decideFrom htable
              have hvalue' := htype ▸ hvalue
              simpa [hplain] using rebuild_eq_redact hdistinct
                (hfollows.rebuild hdistinct hfield hentry htype hnested
                  hvalue'.acyclic htable) hvalue'
          | keep hplain hempty =>
              have hsame : schema.redact defaults value = value :=
                hfollows.redact_of_keep hdistinct hfield hempty hvalue
              simp [hplain, hsame]

end

/-- The masks of a schema do to every value of a type what the schema says:
sensitive fields become defaults at every depth, and nothing else changes.
It takes tables for the type and for all models its values are handed over
to. -/
theorem mask_eq_redact (schema : Schema) (hdistinct : schema.DistinctNames)
    (defaults : FieldType → Value α) {type : QualifiedName}
    (hdeclared : (schema.lookup type).isSome)
    (htables : schema.HasTables type) {value : Value α}
    (hvalue : schema.HasType (.declared type) value) :
    (schema.maskSystem defaults).mask value =
      schema.redact defaults value := by
  obtain ⟨values, rfl, _⟩ := hvalue.eq_record hdeclared
  exact rebuild_eq_redact hdistinct
    (Follows.of_hasTables htables hvalue.acyclic) hvalue

open Samples in
theorem invoice_mask_eq_redact :
    Samples.schema.DistinctNames ∧
      (Samples.schema.lookup invoice.id).isSome ∧
      Samples.schema.HasTables invoice.id ∧
      Samples.schema.HasType (.declared invoice.id) (invoiceValue "4000" "Ada") ∧
      masks.mask (invoiceValue "4000" "Ada") = invoiceValue "" "" := by
  have hdistinct : Samples.schema.DistinctNames := by decide
  have hdeclared : (Samples.schema.lookup invoice.id).isSome := by decide
  have htables : Samples.schema.HasTables invoice.id :=
    hasTables_of_within [invoice.id, named "Inner"] (by decide +kernel)
      (by simp)
  have hvalue : Samples.schema.HasType (.declared invoice.id)
      (invoiceValue "4000" "Ada") := by
    decide +kernel
  have hmask := mask_eq_redact Samples.schema hdistinct
    (defaultValue Samples.declarations.length) hdeclared htables hvalue
  refine ⟨hdistinct, hdeclared, htables, hvalue, ?_⟩
  rw [masks, hmask]
  rfl

end Schema

end RecordMasking
