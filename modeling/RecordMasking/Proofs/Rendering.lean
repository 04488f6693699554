import RecordMasking.Proofs.Binding
import RecordMasking.Proofs.MaskReader
import RecordMasking.Proofs.MaskTable
import RecordMasking.Proofs.TypedValue

/-!
# The rendered code computes its table

`Schema.Rendered` relates a decision to the term that is rendered for it, and
a record to the terms of its members.  Rendering ends in this relation; what
the code does, how it uses its variables, and that it reads back from its
tokens, is read off the relation by induction on the decisions.
-/

namespace RecordMasking

open Code

/-- A block constructs its record by the path of the record's type. -/
def MaskTerm.IsWrittenBy (config : Config) : MaskTerm → Prop
  | .rebuild _ constructor _ _ =>
      typePath config constructor.type = .ok constructor.path
  | _ => True

namespace Schema

variable {schema : Schema} {config : Config}

mutual

/-- The term for a decision on a field of the given type that is bound to
the given variable. -/
inductive Rendered (schema : Schema) (config : Config) :
    FieldType → String → Decision → MaskTerm → Prop
  | clear {type : FieldType} {name : String} :
      Rendered schema config type name .clear .default
  | delegate {model : QualifiedName} {name : String}
      (hdeclared : (schema.lookup model).isSome) :
      Rendered schema config (.declared model) name (.delegate model) (.masked name)
  | rebuild {type : QualifiedName} {name : String} {path : Tokens}
      {entries : List (FieldName × Decision)}
      {terms : List (FieldName × MaskTerm)}
      (hdeclared : (schema.lookup type).isSome)
      (hproper : ProperNames (schema.fields type))
      (hfields : RenderedFields schema config (schema.fields type) entries terms) :
      Rendered schema config (.declared type) name (.rebuild type entries)
        (.rebuild name ⟨type, path⟩ (entries.map patternOf) terms)
  | keep {type : FieldType} {name : String} :
      Rendered schema config type name .keep (.bound name)

inductive RenderedFields (schema : Schema) (config : Config) :
    List Field → List (FieldName × Decision) →
      List (FieldName × MaskTerm) → Prop
  | nil : RenderedFields schema config [] [] []
  | cons {field : Field} {decision : Decision} {term : MaskTerm}
      {fields : List Field} {entries : List (FieldName × Decision)}
      {terms : List (FieldName × MaskTerm)}
      (hfirst : Rendered schema config field.type (variableOf field.name)
        decision term)
      (hrest : RenderedFields schema config fields entries terms)
      (hwritten : term.IsWrittenBy config) :
      RenderedFields schema config (field :: fields)
        ((field.name, decision) :: entries) ((field.name, term) :: terms)

end

namespace RenderedFields

variable {fields : List Field} {entries : List (FieldName × Decision)}
  {terms : List (FieldName × MaskTerm)}

theorem map_fst_entries
    (hfields : schema.RenderedFields config fields entries terms) :
    entries.map Prod.fst = fields.map Field.name := by
  induction entries generalizing fields terms with
  | nil =>
      cases hfields
      rfl
  | cons entry rest ih =>
      cases hfields with
      | cons _ hrest => simp [ih hrest]

theorem map_fst_terms
    (hfields : schema.RenderedFields config fields entries terms) :
    terms.map Prod.fst = fields.map Field.name := by
  induction entries generalizing fields terms with
  | nil =>
      cases hfields
      rfl
  | cons entry rest ih =>
      cases hfields with
      | cons _ hrest => simp [ih hrest]

end RenderedFields

/-! ## The use of variables -/

theorem Rendered.reads_eq {type : FieldType} {name : String}
    {decision : Decision} {term : MaskTerm}
    (hrendered : schema.Rendered config type name decision term) :
    term.reads = if decision.isClear then [] else [name] := by
  cases hrendered <;> rfl

theorem RenderedFields.reads_eq {fields : List Field}
    {entries : List (FieldName × Decision)}
    {terms : List (FieldName × MaskTerm)}
    (hfields : schema.RenderedFields config fields entries terms) :
    (terms.flatMap fun term => term.2.reads) =
      boundNames (entries.map patternOf) := by
  induction entries generalizing fields terms with
  | nil =>
      cases hfields
      rfl
  | cons entry rest ih =>
      cases hfields with
      | @cons field decision term _ _ _ hfirst hrest =>
          have hothers := ih hrest
          unfold boundNames at hothers ⊢
          rw [List.flatMap_cons, hothers, hfirst.reads_eq]
          cases hclear : decision.isClear with
          | true => simp [patternOf, hclear]
          | false => simp [patternOf, hclear]

mutual

theorem Rendered.wellScoped {type : FieldType} {name : String} :
    ∀ {decision : Decision} {term : MaskTerm},
      schema.Rendered config type name decision term → term.WellScoped schema
  | .clear, _, hrendered => by
      cases hrendered
      exact .default
  | .delegate _, _, hrendered => by
      cases hrendered
      exact .masked name
  | .rebuild _ entries, _, hrendered => by
      cases hrendered with
      | rebuild _ hproper hfields =>
          have hnames := hfields.map_fst_entries
          have hvariables := hproper.nodup_variables
          rw [← hnames] at hvariables
          refine .rebuild ?_ ?_ hfields.map_fst_terms ?_ hfields.reads_eq
            hfields.wellScoped
          · exact hproper.nodup_names
          · rw [map_fst_patternOf, hnames]
          · exact hvariables.sublist ((boundNames_sublist entries).map _)
  | .keep, _, hrendered => by
      cases hrendered
      exact .bound name

theorem RenderedFields.wellScoped {fields : List Field} :
    ∀ {entries : List (FieldName × Decision)}
      {terms : List (FieldName × MaskTerm)},
      schema.RenderedFields config fields entries terms →
      ∀ term ∈ terms, term.2.WellScoped schema
  | [], _, hfields, term, hterm => by
      cases hfields
      simp at hterm
  | (_, decision) :: entries, _, hfields, term, hterm => by
      cases hfields with
      | cons hfirst hrest =>
          rcases List.mem_cons.mp hterm with rfl | hlater
          · exact hfirst.wellScoped
          · exact hrest.wellScoped term hlater

end

/-! ## Reading the code back -/

/-- The paths by which the code of masks is written: the one of the runtime,
and for each member that holds a record the path of its type. -/
def codePaths (schema : Schema) (config : Config) (runtime : Tokens) :
    CodePaths where
  runtime := runtime
  constructor? owner member :=
    match ((schema.fields owner).map fun field =>
        (field.name, field.type)).lookup member with
    | some (FieldType.declared type) => (constructorOf config type).toOption
    | _ => none

theorem codePaths_constructor? {owner type : QualifiedName}
    (hproper : ProperNames (schema.fields owner)) {field : Field}
    (hfield : field ∈ schema.fields owner) (htype : field.type = .declared type)
    {path : Tokens} (hpath : typePath config type = .ok path)
    (runtime : Tokens) :
    (schema.codePaths config runtime).constructor? owner field.name =
      some ⟨type, path⟩ := by
  have hnames := hproper.nodup_names
  have hlookup : ((schema.fields owner).map fun field =>
      (field.name, field.type)).lookup field.name =
        some (.declared type) := by
    rw [← htype]
    refine lookup_eq_some_of_mem ?_ (List.mem_map_of_mem hfield)
    simpa [Function.comp_def] using hnames
  have hconstructor : constructorOf config type = .ok ⟨type, path⟩ := by
    rw [constructorOf, hpath]
    rfl
  simp [codePaths, hlookup, hconstructor, Except.toOption]

theorem Rendered.type_eq {type : FieldType} {name source : String}
    {decision : Decision} {constructor : Constructor}
    {patterns : List (FieldName × Option String)}
    {values : List (FieldName × MaskTerm)}
    (hrendered : schema.Rendered config type name decision
      (.rebuild source constructor patterns values)) :
    type = .declared constructor.type := by
  cases hrendered
  rfl

variable {runtime : Tokens}

mutual

theorem Rendered.isLegible {type : FieldType} {name : String}
    {constructor? : Option Constructor} (hname : name ≠ "_") :
    ∀ {decision : Decision} {term : MaskTerm},
      schema.Rendered config type name decision term →
      (∀ source constructor patterns values,
        term = .rebuild source constructor patterns values →
        constructor? = some constructor) →
      term.IsLegible (schema.codePaths config runtime) constructor?
  | .clear, _, hrendered, _ => by
      cases hrendered
      exact .default
  | .delegate _, _, hrendered, _ => by
      cases hrendered
      exact .masked hname
  | .rebuild owner entries, _, hrendered, hconstructor => by
      cases hrendered with
      | rebuild _ hproper hfields =>
          obtain rfl := hconstructor _ _ _ _ rfl
          have hnames : ∀ member ∈ (schema.fields owner).map Field.name,
              member ≠ .named "_" ∧ variableOf member ≠ "_" := by
            rw [List.forall_mem_map]
            exact fun field hfield => hproper.ne_underscore hfield
          refine .rebuild hname ?_ ?_
            (hfields.isLegible hproper (List.Subset.refl _))
          · rw [← hfields.map_fst_entries, List.forall_mem_map] at hnames
            rw [List.forall_mem_map]
            intro entry hentry
            refine ⟨(hnames entry hentry).1, ?_⟩
            cases hclear : entry.2.isClear with
            | true => simp [patternOf, hclear]
            | false => simp [patternOf, hclear, (hnames entry hentry).2]
          · rw [← hfields.map_fst_terms, List.forall_mem_map] at hnames
            exact fun entry hentry => (hnames entry hentry).1
  | .keep, _, hrendered, _ => by
      cases hrendered
      exact .bound hname

theorem RenderedFields.isLegible {fields : List Field} {owner : QualifiedName}
    (hproper : ProperNames (schema.fields owner)) :
    ∀ {entries : List (FieldName × Decision)}
      {terms : List (FieldName × MaskTerm)},
      schema.RenderedFields config fields entries terms →
      fields ⊆ schema.fields owner →
      ∀ term ∈ terms, term.2.IsLegible (schema.codePaths config runtime)
        ((schema.codePaths config runtime).constructor? owner term.1)
  | [], _, hfields, _, term, hterm => by
      cases hfields
      simp at hterm
  | (_, decision) :: entries, _, hfields, hsubset, term, hterm => by
      cases hfields with
      | @cons field _ first _ _ _ hfirst hrest hwritten =>
          obtain ⟨hfield, hothers⟩ := List.cons_subset.mp hsubset
          rcases List.mem_cons.mp hterm with rfl | hlater
          · refine hfirst.isLegible (hproper.ne_underscore hfield).2 ?_
            rintro source constructor patterns values rfl
            exact codePaths_constructor? hproper hfield hfirst.type_eq hwritten
              runtime
          · exact hrest.isLegible hproper hothers term hlater

end

/-! ## Evaluation -/

theorem arranged_self {α : Type} {built : List (FieldName × Value α)}
    (hnames : (built.map Prod.fst).Nodup) :
    arranged (built.map Prod.fst) built = some built := by
  have hpart : ∀ part, part ⊆ built →
      arranged (part.map Prod.fst) built = some part := by
    intro part hsubset
    induction part with
    | nil => rfl
    | cons entry rest ih =>
        obtain ⟨hentry, hrest⟩ := List.cons_subset.mp hsubset
        have hothers := ih hrest
        unfold arranged at hothers ⊢
        simp [lookup_eq_some_of_mem hnames hentry, hothers]
  exact hpart built (List.Subset.refl built)

variable {α : Type} {givens : Givens α}

theorem eval_rebuild {scope : Scope α} {default? : Option (Value α)}
    {source : String} {type : QualifiedName} {path : Tokens}
    {patterns : List (FieldName × Option String)}
    {terms : List (FieldName × MaskTerm)}
    {values built : List (FieldName × Value α)}
    (hsource : scope.value? source = some (.record type values))
    (htakes : TakesApart patterns values)
    (hterms : terms.map Prod.fst = values.map Prod.fst)
    (hdistinct : (values.map Prod.fst).Nodup)
    (hbuilt : MaskTerm.evalMembers givens (bindings patterns values ++ scope)
      type terms = some built)
    (hnames : built.map Prod.fst = values.map Prod.fst) :
    (MaskTerm.rebuild source ⟨type, path⟩ patterns terms).eval givens scope
      default? = some (.record type built) := by
  have harranged : arranged (values.map Prod.fst) built = some built := by
    rw [← hnames] at hdistinct ⊢
    exact arranged_self hdistinct
  have hperm : (terms.map Prod.fst).Perm (values.map Prod.fst) := by
    rw [hterms]
  rw [MaskTerm.eval, hsource]
  simp only [htakes, hperm, and_self, if_true, hbuilt, Option.bind_some,
    harranged, Option.map_some]

mutual

theorem Rendered.eval_eq {type : FieldType} {name : String}
    {scope : Scope α} {default? : Option (Value α)} {value : Value α} :
    ∀ {decision : Decision} {term : MaskTerm},
      schema.Rendered config type name decision term →
      schema.HasType type value →
      (decision.isClear = false → scope.value? name = some value) →
      term.eval givens scope default? = givens.apply default? value decision
  | .clear, _, hrendered, _, _ => by
      cases hrendered
      rfl
  | .delegate model, _, hrendered, hvalue, hscope => by
      cases hrendered with
      | delegate hdeclared =>
          obtain ⟨values, rfl, _⟩ := hvalue.eq_record hdeclared
          simp [MaskTerm.eval, hscope rfl, Givens.apply]
  | .rebuild owner entries, _, hrendered, hvalue, hscope => by
      cases hrendered with
      | @rebuild _ _ path _ terms hdeclared hproper hfields =>
          obtain ⟨values, rfl, hvalues⟩ := hvalue.eq_record hdeclared
          have hnames : entries.map Prod.fst = values.map Prod.fst :=
            hfields.map_fst_entries.trans hvalues.map_fst.symm
          have hterms : terms.map Prod.fst = values.map Prod.fst :=
            hfields.map_fst_terms.trans hvalues.map_fst.symm
          have hdistinct : (values.map Prod.fst).Nodup := by
            rw [hvalues.map_fst]
            exact hproper.nodup_names
          have hvariables :
              (((entries.map Prod.fst).map variableOf).map bareName).Nodup := by
            rw [hfields.map_fst_entries]
            exact hproper.nodup_variables
          have htakes : TakesApart (entries.map patternOf) values := by
            refine ⟨?_, hvariables.sublist ((boundNames_sublist entries).map _)⟩
            rw [map_fst_patternOf, hnames]
          -- The inner scope begins with the variables of the pattern.
          have hbuilt : MaskTerm.evalMembers givens
              (bindings (entries.map patternOf) values ++ scope) owner terms =
                some (givens.rebuildFields owner entries values) := by
            refine hfields.eval_eq hvalues (fun entry hentry => ?_) ?_
            · rw [← hnames] at hdistinct
              exact lookup_eq_some_of_mem hdistinct hentry
            · intro entry hentry hkept member hmember
              exact value?_bindings hvariables hentry hkept
                (lookup_eq_some_of_mem hdistinct hmember) scope
          rw [eval_rebuild (hscope rfl) htakes hterms hdistinct hbuilt
            (givens.map_fst_rebuildFields owner entries values),
            Givens.apply, Givens.rebuild]
  | .keep, _, hrendered, _, hscope => by
      cases hrendered
      simp [MaskTerm.eval, hscope rfl, Givens.apply]

theorem RenderedFields.eval_eq {fields : List Field} {owner : QualifiedName}
    {scope : Scope α} {all : List (FieldName × Decision)} :
    ∀ {entries : List (FieldName × Decision)}
      {terms : List (FieldName × MaskTerm)}
      {values : List (FieldName × Value α)},
      schema.RenderedFields config fields entries terms →
      schema.HasFields fields values →
      (∀ entry ∈ entries, all.lookup entry.1 = some entry.2) →
      (∀ entry ∈ entries, entry.2.isClear = false →
        ∀ value, (entry.1, value) ∈ values →
          scope.value? (variableOf entry.1) = some value) →
      MaskTerm.evalMembers givens scope owner terms =
        some (givens.rebuildFields owner all values)
  | [], _, _, hfields, hvalues, _, _ => by
      cases hfields
      cases hvalues
      rw [MaskTerm.evalMembers, Givens.rebuildFields]
  | (_, decision) :: entries, _, _, hfields, hvalues, hall, hscope => by
      cases hfields with
      | @cons field _ _ _ _ _ hfirst hrest =>
          cases hvalues with
          | @cons _ value _ values hvalue hothers =>
              have hlookup := hall _ List.mem_cons_self
              have hvariable := hscope _ List.mem_cons_self
              obtain ⟨result, hresult⟩ := givens.exists_apply
                (givens.default owner field.name) value decision
              have hfound : decision.isClear = false →
                  scope.value? (variableOf field.name) = some value :=
                fun hkept => hvariable hkept value List.mem_cons_self
              have hrestAll : ∀ entry ∈ entries,
                  all.lookup entry.1 = some entry.2 :=
                fun entry hentry => hall entry (List.mem_cons_of_mem _ hentry)
              have hrestScope : ∀ entry ∈ entries, entry.2.isClear = false →
                  ∀ member, (entry.1, member) ∈ values →
                    scope.value? (variableOf entry.1) = some member :=
                fun entry hentry hkept member hmember =>
                  hscope entry (List.mem_cons_of_mem _ hentry) hkept member
                    (List.mem_cons_of_mem _ hmember)
              rw [MaskTerm.evalMembers, hfirst.eval_eq hvalue hfound,
                hresult, hrest.eval_eq hothers hrestAll hrestScope,
                Givens.rebuildFields_cons hlookup hresult]

end

end Schema

end RecordMasking
