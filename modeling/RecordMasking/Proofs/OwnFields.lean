import RecordMasking.Proofs.Synthesis
import RecordMasking.Source.SampleSources

/-!
# Whose fields a mask clears

A mask names the fields of the declaration that is processed, while its table
is made from the declaration that a look-up finds under the same name.  The
two are paired by position.  In the schema of a crate the last declaration of
a name is found, so each declaration that is the last of its name is masked by
its own fields; an earlier one is masked at the places where the last one is
sensitive.
-/

namespace RecordMasking

open Code

def MaskTerm.isDefault : MaskTerm → Bool
  | .default => true
  | _ => false

namespace MemberCode

/-- A member, whether its value is cleared and whether it is left unbound. -/
def mark (code : MemberCode) : FieldName × Bool × Bool :=
  (code.member, code.value.isDefault, code.binding?.isNone)

end MemberCode

namespace Schema

variable {schema : Schema} {config : Config}

theorem isDefault_of_valueCode {name : String} {decision : Decision}
    {term : MaskTerm}
    (hterm : schema.valueCode config name decision = .ok term) :
    term.isDefault = decision.isClear := by
  cases decision with
  | rebuild type entries =>
      obtain ⟨path, members, _, _, _, rfl⟩ := valueCode_rebuild hterm
      rfl
  | _ =>
      rw [valueCode] at hterm
      obtain rfl := Except.ok.inj hterm
      rfl

theorem Decides.isClear_eq {root : QualifiedName} {paths : PathSet}
    {field : Field} {decision : Decision}
    (hdecides : schema.Decides root paths field decision) :
    decision.isClear = field.sensitive := by
  cases hdecides with
  | clear hsensitive => exact hsensitive.symm
  | delegate hplain => exact hplain.symm
  | rebuild hplain => exact hplain.symm
  | keep hplain => exact hplain.symm

theorem EntriesFit.map_isClear {root : QualifiedName} {paths : PathSet}
    {fields : List Field} {entries : List (FieldName × Decision)}
    (hfit : schema.EntriesFit root paths fields entries) :
    (entries.map fun entry => (entry.1, entry.2.isClear)) =
      fields.map fun field => (field.name, field.sensitive) := by
  induction hfit with
  | nil => rfl
  | cons hentry _ ih => simp [hentry.1, hentry.2.isClear_eq, ih]

/-- Members are named after the rendered fields, and cleared after the fields
that were decided on, place by place. -/
theorem EntriesFit.marks_eq {root owner : QualifiedName} {paths : PathSet}
    {decided : List Field} {entries : List (FieldName × Decision)}
    (hfit : schema.EntriesFit root paths decided entries)
    {fields : List Field} {members : List MemberCode}
    (hbinding : ∀ field ∈ fields,
      bindingOf owner field.name = .ok (field.name, variableOf field.name))
    (hmembers : schema.memberCodes config owner fields entries =
      .ok members) :
    members.map MemberCode.mark =
      List.zipWith (fun field other =>
        (field.name, other.sensitive, other.sensitive)) fields decided := by
  induction hfit generalizing fields members with
  | nil =>
      rw [memberCodes] at hmembers
      obtain rfl := Except.ok.inj hmembers
      simp
  | @cons other entry decided entries hentry _ ih =>
      cases fields with
      | nil =>
          rw [memberCodes] at hmembers
          obtain rfl := Except.ok.inj hmembers
          rfl
      | cons field fields =>
          obtain ⟨hfirst, hrest⟩ := List.forall_mem_cons.mp hbinding
          obtain ⟨term, rest, hterm, hothers, rfl⟩ :=
            memberCodes_cons hfirst hmembers
          rw [List.map_cons, ih hrest hothers, List.zipWith_cons_cons]
          have hclear := hentry.2.isClear_eq
          have hdefault := isDefault_of_valueCode hterm
          cases hsensitive : other.sensitive with
          | true => simp [MemberCode.mark, hdefault, hclear, hsensitive]
          | false => simp [MemberCode.mark, hdefault, hclear, hsensitive]

/-- The last of several declarations of a name is found. -/
theorem lookup_ofListLast_eq_some_iff {declarations : List Declaration}
    {marker : String} {resolved : Bool} {id : QualifiedName}
    {found : Declaration} :
    (ofListLast declarations marker resolved).lookup id = some found ↔
      found.id = id ∧ ∃ before after,
        declarations = before ++ found :: after ∧
          ∀ other ∈ after, other.id ≠ id := by
  show declarations.reverse.find? _ = some found ↔ _
  rw [List.find?_eq_some_iff_append]
  constructor
  · rintro ⟨hid, after, before, hsplit, hother⟩
    refine ⟨by simpa using hid, before.reverse, after.reverse, ?_, ?_⟩
    · rw [← List.reverse_reverse declarations, hsplit]
      simp
    · intro other hmem
      simpa using hother other (List.mem_reverse.mp hmem)
  · rintro ⟨rfl, before, after, rfl, hother⟩
    refine ⟨by simp, after.reverse, before.reverse, by simp, ?_⟩
    intro other hmem
    simpa using hother other (List.mem_reverse.mp hmem)

end Schema

namespace Source

variable {config : Config}

/-- A mask names the fields of the declaration it is made for, in their order,
and clears them where the last declaration of the name has a sensitive field;
its table is that of the last declaration. -/
theorem masked_by_last (config : Config) (crate : Crate)
    {declaration : Declaration} (hproper : ProperNames declaration.fields)
    {paths : PathSet} {synthesis : Synthesis}
    (hsynthesis : (schemaOf config crate).synthesize config declaration paths =
      .ok synthesis) :
    ∃ last before after members,
      (schemaOf config crate).lookup declaration.id = some last ∧
        declarations config crate = before ++ last :: after ∧
        last.id = declaration.id ∧
        (∀ other ∈ after, other.id ≠ declaration.id) ∧
        (synthesis.table.entries.map fun entry => (entry.1, entry.2.isClear)) =
          (last.fields.map fun field => (field.name, field.sensitive)) ∧
        (schemaOf config crate).maskBody config declaration synthesis.table =
          .ok (MemberCode.block "self"
            ⟨declaration.id, Tokens.word "Self"⟩ members) ∧
        members.map MemberCode.mark =
          List.zipWith (fun field other =>
            (field.name, other.sensitive, other.sensitive))
            declaration.fields last.fields := by
  obtain ⟨htable, htext, _⟩ := Schema.synthesize_eq_ok hsynthesis
  obtain ⟨_, _, _, body, _, _, _, hbody, _⟩ := Schema.renderMask_eq_ok htext
  have hfound := Schema.isSome_lookup_of_decideFrom htable
  obtain ⟨last, hlast⟩ := Option.isSome_iff_exists.mp hfound
  obtain ⟨hid, before, after, hsplit, hafter⟩ :=
    Schema.lookup_ofListLast_eq_some_iff.mp hlast
  have hfit := Schema.entriesFit_of_decideFrom htable
  rw [Schema.fields_of_lookup hlast] at hfit
  rw [Schema.maskBody] at hbody
  obtain ⟨members, hmembers, heq⟩ := bind_eq_ok_iff.mp hbody
  refine ⟨last, before, after, members, hlast, hsplit, hid, hafter,
    hfit.map_isClear, ?_, hfit.marks_eq (fun field hfield =>
      hproper.bindingOf_eq hfield declaration.id) hmembers⟩
  rw [Schema.maskBody, hmembers]
  rfl

open SampleSources in
/-- The mask of the first variant clears the brand and lets the number
through. -/
theorem firstCard_masked_by_last :
    firstCard ∈ cards.declarations ∧ cards.isModel firstCard.id = true ∧
      (firstCard.fields.map fun field => (field.name, field.sensitive)) =
        [(.named "number", true), (.named "brand", false)] ∧
      ProperNames firstCard.fields ∧
      ∃ synthesis members,
        cards.synthesize {} firstCard (cards.resolve firstCard.id).paths =
            .ok synthesis ∧
          cards.maskBody {} firstCard synthesis.table =
            .ok (MemberCode.block "self"
              ⟨firstCard.id, Tokens.word "Self"⟩ members) ∧
          members.map MemberCode.mark =
            [(.named "number", false, false), (.named "brand", true, true)] := by
  have hlisted : firstCard ∈ cards.declarations := by decide +kernel
  have hmodel : cards.isModel firstCard.id = true := by decide +kernel
  have hfields :
      (firstCard.fields.map fun field => (field.name, field.sensitive)) =
        [(.named "number", true), (.named "brand", false)] := by
    decide +kernel
  have hproper : ProperNames firstCard.fields := by decide +kernel
  have hsome : (cards.synthesize {} firstCard
      (cards.resolve firstCard.id).paths).toOption.isSome := by
    decide +kernel
  have hmarks : ((cards.lookup firstCard.id).map fun last =>
      List.zipWith (fun field other =>
        (field.name, other.sensitive, other.sensitive))
        firstCard.fields last.fields) =
      some [(.named "number", false, false), (.named "brand", true, true)] := by
    decide +kernel
  refine ⟨hlisted, hmodel, hfields, hproper, ?_⟩
  cases hsynthesis : cards.synthesize {} firstCard
      (cards.resolve firstCard.id).paths with
  | error failure => simp [hsynthesis, Except.toOption] at hsome
  | ok synthesis =>
      obtain ⟨last, _, _, members, hlast, _, _, _, _, hbody, hmembers⟩ :=
        masked_by_last {} cardCrate hproper hsynthesis
      have hfound : cards.lookup firstCard.id = some last := hlast
      rw [hfound, Option.map_some, Option.some_inj] at hmarks
      exact ⟨synthesis, members, rfl, hbody, hmembers.trans hmarks⟩

end Source

end RecordMasking
