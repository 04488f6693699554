import RecordMasking.Proofs.Rendering
import RecordMasking.Samples

/-!
# Synthesized code

What is synthesized for a table computes the table: the body that is read
from the printed code, evaluated on a value of the model, makes of it what the
decisions say.  The variables of nested records never interfere, whatever
their fields are called.
-/

namespace RecordMasking

open Code

namespace Schema

variable {schema : Schema} {config : Config}

theorem liftFault_eq_ok_iff {α : Type} {step : Except Fault α} {value : α} :
    liftFault step = .ok value ↔ step = .ok value := by
  cases step <;> simp [liftFault]

/-! ## From rendering to its relation -/

theorem memberCodes_cons {owner : QualifiedName} {field : Field}
    {fields : List Field} {name : FieldName} {decision : Decision}
    {entries : List (FieldName × Decision)} {members : List MemberCode}
    (hbinding : bindingOf owner field.name =
      .ok (field.name, variableOf field.name))
    (hmembers : schema.memberCodes config owner (field :: fields)
      ((name, decision) :: entries) = .ok members) :
    ∃ term rest,
      schema.valueCode config (variableOf field.name) decision = .ok term ∧
        schema.memberCodes config owner fields entries = .ok rest ∧
        members = ⟨field.name,
          if decision.isClear then none else some (variableOf field.name),
          term⟩ :: rest := by
  rw [memberCodes] at hmembers
  obtain ⟨bound, hbound, hvalue⟩ := bind_eq_ok_iff.mp hmembers
  rw [liftFault_eq_ok_iff, hbinding] at hbound
  obtain rfl := Except.ok.inj hbound
  obtain ⟨term, hterm, hcheck⟩ := bind_eq_ok_iff.mp hvalue
  obtain ⟨_, _, hothers⟩ := bind_eq_ok_iff.mp hcheck
  obtain ⟨rest, hrest, heq⟩ := bind_eq_ok_iff.mp hothers
  exact ⟨term, rest, hterm, hrest, (Except.ok.inj heq).symm⟩

theorem valueCode_rebuild {name : String} {type : QualifiedName}
    {entries : List (FieldName × Decision)} {term : MaskTerm}
    (hterm : schema.valueCode config name (.rebuild type entries) =
      .ok term) :
    ∃ path members, (schema.lookup type).isSome ∧
      typePath config type = .ok path ∧
      schema.memberCodes config type (schema.fields type) entries =
        .ok members ∧
      term = MemberCode.block name ⟨type, path⟩ members := by
  rw [valueCode] at hterm
  obtain ⟨declaration, hdeclaration, hrest⟩ := bind_eq_ok_iff.mp hterm
  rw [liftFault_eq_ok_iff, declarationOf_eq_ok_iff] at hdeclaration
  obtain ⟨constructor, hconstructor, hmembers⟩ := bind_eq_ok_iff.mp hrest
  obtain ⟨path, hpath, heq⟩ :=
    bind_eq_ok_iff.mp (liftFault_eq_ok_iff.mp hconstructor)
  obtain rfl := Except.ok.inj heq
  obtain ⟨members, hcodes, heq⟩ := bind_eq_ok_iff.mp hmembers
  rw [(schema.lookup_sound hdeclaration).2] at hcodes
  refine ⟨path, members, by simp [hdeclaration], hpath, ?_,
    (Except.ok.inj heq).symm⟩
  rw [fields_of_lookup hdeclaration, hcodes]

theorem isWrittenBy_of_valueCode {name : String} {decision : Decision}
    {term : MaskTerm}
    (hterm : schema.valueCode config name decision = .ok term) :
    term.IsWrittenBy config := by
  cases decision with
  | rebuild type entries =>
      obtain ⟨path, members, _, hpath, _, rfl⟩ := valueCode_rebuild hterm
      exact hpath
  | _ =>
      rw [valueCode] at hterm
      obtain rfl := Except.ok.inj hterm
      trivial

mutual

theorem rendered_of_valueCode {root owner : QualifiedName} {paths : PathSet}
    {field : Field} (hfield : field ∈ schema.fields owner)
    (hproper : ∀ id, schema.InClosure owner id →
      ProperNames (schema.fields id)) :
    ∀ {decision : Decision} {term : MaskTerm},
      schema.Decides root paths field decision →
      schema.valueCode config (variableOf field.name) decision = .ok term →
      schema.Rendered config field.type (variableOf field.name) decision term
  | .clear, _, _, hterm => by
      rw [valueCode] at hterm
      obtain rfl := Except.ok.inj hterm
      exact .clear
  | .delegate model, _, hdecides, hterm => by
      cases hdecides with
      | delegate _ htype _ hdelegates =>
          rw [valueCode] at hterm
          obtain rfl := Except.ok.inj hterm
          rw [htype]
          exact .delegate (isSome_lookup_of_delegates hdelegates)
  | .rebuild nested entries, _, hdecides, hterm => by
      cases hdecides with
      | rebuild _ htype _ _ _ htable =>
          obtain ⟨path, members, hdeclared, _, hmembers, rfl⟩ :=
            valueCode_rebuild hterm
          have hnests : schema.Nests owner nested :=
            ⟨field, hfield, htype, hdeclared⟩
          have hbelow : ∀ id, schema.InClosure nested id →
              ProperNames (schema.fields id) :=
            fun id hid => hproper id (hid.head hnests)
          obtain ⟨hpatterns, hfields⟩ := renderedFields_of_memberCodes
            hbelow (entriesFit_of_decideFrom htable) (List.Subset.refl _)
            hmembers
          rw [htype, MemberCode.block, hpatterns]
          exact .rebuild hdeclared (hbelow nested .refl) hfields
  | .keep, _, _, hterm => by
      rw [valueCode] at hterm
      obtain rfl := Except.ok.inj hterm
      exact .keep

theorem renderedFields_of_memberCodes {root owner : QualifiedName}
    {paths : PathSet} {fields : List Field}
    (hproper : ∀ id, schema.InClosure owner id →
      ProperNames (schema.fields id)) :
    ∀ {entries : List (FieldName × Decision)} {members : List MemberCode},
      schema.EntriesFit root paths fields entries →
      fields ⊆ schema.fields owner →
      schema.memberCodes config owner fields entries = .ok members →
      members.map (fun code => (code.member, code.binding?)) =
          entries.map patternOf ∧
        schema.RenderedFields config fields entries
          (members.map fun code => (code.member, code.value))
  | [], _, hfit, _, hmembers => by
      cases hfit
      rw [memberCodes] at hmembers
      obtain rfl := Except.ok.inj hmembers
      exact ⟨rfl, .nil⟩
  | (_, decision) :: entries, _, hfit, hsubset, hmembers => by
      cases hfit with
      | @cons field _ fields _ hentry hothers =>
          obtain ⟨rfl, hdecides⟩ := hentry
          obtain ⟨hfield, hsubset⟩ := List.cons_subset.mp hsubset
          have hbinding := (hproper owner .refl).bindingOf_eq hfield owner
          obtain ⟨term, rest, hterm, hrest, rfl⟩ :=
            memberCodes_cons hbinding hmembers
          have hfirst :=
            rendered_of_valueCode hfield hproper hdecides hterm
          obtain ⟨hpatterns, hfields⟩ :=
            renderedFields_of_memberCodes hproper hothers hsubset hrest
          refine ⟨?_, .cons hfirst hfields (isWrittenBy_of_valueCode hterm)⟩
          rw [List.map_cons, List.map_cons, hpatterns]
          rfl

end

/-! ## Code for a model -/

theorem synthesize_eq_ok {declaration : Declaration} {paths : PathSet}
    {synthesis : Synthesis}
    (hsynthesis : schema.synthesize config declaration paths =
      .ok synthesis) :
    schema.decide declaration.id paths = .ok synthesis.table ∧
      schema.renderMask config declaration synthesis.table paths =
        .ok synthesis.artifact.text ∧
      synthesis.artifact.key = declaration.id.maskKey := by
  unfold synthesize at hsynthesis
  split at hsynthesis
  next => simp [bind, Except.bind] at hsynthesis
  next =>
    obtain ⟨table, htable, hrest⟩ := bind_eq_ok_iff.mp hsynthesis
    obtain ⟨text, htext, heq⟩ := bind_eq_ok_iff.mp hrest
    obtain rfl := Except.ok.inj heq
    exact ⟨liftFault_eq_ok_iff.mp htable, htext, rfl⟩

/-- A path as it is written, with dots between its names and positions. -/
def dottedPath (path : FieldPath) : String :=
  ".".intercalate (path.map fun
    | .named text => text
    | .position index => toString index)

/-- The two comment lines in front of the code of a mask. -/
def artifactHeader (type : QualifiedName) (paths : PathSet) : String :=
  "// @generated by masking-codegen from " ++ type.display ++
    ". Do not edit.\n// masked: " ++
    ", ".intercalate (paths.toList.map dottedPath) ++ "\n"

theorem display_eq_map_dottedPath (paths : PathSet) :
    paths.display = paths.toList.map dottedPath := rfl

theorem artifactText_eq (type : QualifiedName) (paths : PathSet)
    (code : Tokens) :
    artifactText type paths code =
      artifactHeader type paths ++ code.render ++ "\n" := by
  unfold artifactText artifactHeader
  rw [display_eq_map_dottedPath]

theorem isPath_of_readPath {text : String} {tokens : Tokens}
    (hread : readPath text = .ok tokens) : IsPath tokens := by
  unfold readPath readText at hread
  split at hread
  next => simp at hread
  next lexemes hlexemes =>
    unfold Reader.run at hread
    split at hread
    next path hpath =>
      obtain rfl := Except.ok.inj hread
      obtain ⟨⟨⟨rooted, segments⟩, rest⟩, _, heq⟩ := bind_eq_ok_iff.mp hpath
      obtain ⟨rfl, _⟩ := Prod.mk.inj (Except.ok.inj heq)
      exact ⟨rooted, segments, rfl⟩
    next => simp at hread
    next => simp at hread

theorem isPath_of_pathTokens {type : QualifiedName} {text : String}
    {tokens : Tokens} (htokens : pathTokens type text = .ok tokens) :
    IsPath tokens := by
  unfold pathTokens at htokens
  split at htokens
  next hread => exact isPath_of_readPath (Except.ok.inj htokens ▸ hread)
  next => simp at htokens

theorem renderMask_eq_ok {declaration : Declaration} {table : MaskTable}
    {paths : PathSet} {text : String}
    (htext : schema.renderMask config declaration table paths = .ok text) :
    ∃ runtime path lifetimes body,
      pathTokens declaration.id config.runtimePath = .ok runtime ∧
        typePath config declaration.id = .ok path ∧
        lifetimeNames declaration = .ok lifetimes ∧
        schema.maskBody config declaration table = .ok body ∧
        text = artifactHeader declaration.id paths ++
          (implementationTokens runtime path (lifetimeParams lifetimes)
            (body.tokens runtime)).render ++ "\n" := by
  unfold renderMask at htext
  obtain ⟨runtime, hruntime, hrest⟩ := bind_eq_ok_iff.mp htext
  obtain ⟨path, hpath, hrest⟩ := bind_eq_ok_iff.mp hrest
  obtain ⟨lifetimes, hlifetimes, hrest⟩ := bind_eq_ok_iff.mp hrest
  obtain ⟨body, hbody, heq⟩ := bind_eq_ok_iff.mp hrest
  exact ⟨runtime, path, lifetimes, body, liftFault_eq_ok_iff.mp hruntime,
    liftFault_eq_ok_iff.mp hpath, liftFault_eq_ok_iff.mp hlifetimes, hbody,
    (Except.ok.inj heq).symm.trans (artifactText_eq _ _ _)⟩

theorem rendered_of_maskBody {declaration : Declaration}
    (hlookup : schema.lookup declaration.id = some declaration)
    (hproper : ∀ id, schema.InClosure declaration.id id →
      ProperNames (schema.fields id)) {masked : PathSet} {table : MaskTable}
    (htable : schema.decide declaration.id masked = .ok table)
    {body : MaskTerm}
    (hbody : schema.maskBody config declaration table = .ok body) :
    schema.Rendered config (.declared declaration.id) "self"
      (.rebuild declaration.id table.entries) body := by
  unfold maskBody at hbody
  obtain ⟨members, hmembers, heq⟩ := bind_eq_ok_iff.mp hbody
  obtain rfl := Except.ok.inj heq
  rw [← fields_of_lookup hlookup] at hmembers
  obtain ⟨hpatterns, hfields⟩ := renderedFields_of_memberCodes hproper
    (entriesFit_of_decideFrom htable) (List.Subset.refl _) hmembers
  rw [MemberCode.block, hpatterns]
  exact .rebuild (by simp [hlookup]) (hproper declaration.id .refl) hfields

theorem maskBody_eq_rebuild {declaration : Declaration} {table : MaskTable}
    {body : MaskTerm}
    (hbody : schema.maskBody config declaration table = .ok body) :
    ∃ patterns terms, body = .rebuild "self"
      ⟨declaration.id, Tokens.word "Self"⟩ patterns terms := by
  unfold maskBody at hbody
  obtain ⟨members, _, heq⟩ := bind_eq_ok_iff.mp hbody
  exact ⟨_, _, (Except.ok.inj heq).symm⟩

theorem Rendered.body?_eq {declaration : Declaration} {body : MaskTerm}
    {decision : Decision}
    (hrendered : schema.Rendered config (.declared declaration.id) "self"
      decision body) {table : MaskTable}
    (hbody : schema.maskBody config declaration table = .ok body)
    {runtime : Tokens} (hruntime : IsPath runtime) (path params : Tokens) :
    MaskReader.body? (schema.codePaths config runtime) declaration.id path
        params
        (implementationTokens runtime path params (body.tokens runtime)) =
      some body := by
  have hpath : IsPath (schema.codePaths config runtime).runtime := hruntime
  obtain ⟨patterns, terms, hself⟩ := maskBody_eq_rebuild hbody
  have hlegible : body.IsLegible (schema.codePaths config runtime)
      (some ⟨declaration.id, Tokens.word "Self"⟩) := by
    refine hrendered.isLegible (by decide) ?_
    intro source constructor others values heq
    rw [hself, MaskTerm.rebuild.injEq] at heq
    rw [heq.2.1]
  exact MaskReader.body?_implementationTokens hpath hself hlegible path params

theorem properNames_fields
    (hall : ∀ declaration ∈ schema.declarations,
      ProperNames declaration.fields) (id : QualifiedName) :
    ProperNames (schema.fields id) := by
  unfold fields
  cases hlookup : schema.lookup id with
  | none => exact .positions (by simp) (by simp)
  | some declaration => exact hall declaration (schema.lookup_sound hlookup).1

end Schema

end RecordMasking
