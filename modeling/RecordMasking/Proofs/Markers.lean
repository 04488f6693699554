import RecordMasking.Derive
import RecordMasking.Host.RuntimeName
import RecordMasking.Proofs.MaskTable
import RecordMasking.Source.SampleSources

/-!
# The marks that derives and schemas read

A derive takes the mark of a field in its bare form only, and once; a schema
takes it in any form and any number.  Where a derive succeeds, both have read
the same marks, so what the derive checks for a default is what the mask
clears.
-/

namespace RecordMasking

open Code Source

/-! ## What derives accept -/

/-- The mark is written bare and at most once. -/
structure IsWellMarked (attributes : List Attribute) : Prop where
  once : (attributes.filter isMark).length ≤ 1
  bare : ∀ attr ∈ attributes, isMark attr = true → attr.form = .bare

theorem readMarks_eq_ok_iff {attributes : List Attribute} {seen found : Bool} :
    readMarks seen attributes = .ok found ↔
      (attributes.filter isMark).length + seen.toNat ≤ 1 ∧
        (∀ attr ∈ attributes, isMark attr = true → attr.form = .bare) ∧
        found = (seen || attributes.any isMark) := by
  -- An earlier mark uses up the one that is allowed, so `seen` varies.
  induction attributes generalizing seen with
  | nil =>
      rw [readMarks, Except.ok.injEq]
      cases seen <;> cases found <;> simp
  | cons attr rest ih =>
      rw [readMarks]
      cases hmark : isMark attr with
      | false => simp [hmark, ih]
      | true =>
          cases hform : attr.form with
          | list _ _ => simp [hmark, hform]
          | valued _ => simp [hmark, hform]
          | bare =>
              cases seen with
              | true => simp [hmark]
              | false => simp [hmark, hform, ih]

/-- Where a derive accepts the attributes of a field, it finds the mark where
a schema does. -/
theorem readMarks_eq_ok_iff_isSensitive {field : FieldItem} {found : Bool} :
    readMarks false field.attributes = .ok found ↔
      IsWellMarked field.attributes ∧
        found = isSensitive "sensitive" field := by
  have hmarks : field.attributes.any isMark =
      isSensitive "sensitive" field := rfl
  rw [readMarks_eq_ok_iff, hmarks, Bool.toNat_false, Bool.false_or]
  constructor
  · rintro ⟨honce, hbare, hfound⟩
    exact ⟨⟨honce, hbare⟩, hfound⟩
  · rintro ⟨⟨honce, hbare⟩, hfound⟩
    exact ⟨honce, hbare, hfound⟩

theorem markedFields_eq_ok_iff {fields marked : List FieldItem} :
    markedFields fields = .ok marked ↔
      (∀ field ∈ fields, IsWellMarked field.attributes) ∧
        marked = fields.filter (isSensitive "sensitive") := by
  induction fields generalizing marked with
  | nil =>
      rw [markedFields, Except.ok.injEq]
      exact ⟨fun hnone => ⟨by simp, hnone.symm⟩, fun hnone => hnone.2.symm⟩
  | cons field rest ih =>
      rw [markedFields, List.forall_mem_cons, List.filter_cons]
      constructor
      · intro hmarked
        obtain ⟨found, hfound, hothers⟩ := bind_eq_ok_iff.mp hmarked
        obtain ⟨others, hrest, hsame⟩ := bind_eq_ok_iff.mp hothers
        obtain ⟨hwell, rfl⟩ := readMarks_eq_ok_iff_isSensitive.mp hfound
        obtain ⟨hwells, rfl⟩ := ih.mp hrest
        exact ⟨⟨hwell, hwells⟩, (Except.ok.inj hsame).symm⟩
      · rintro ⟨⟨hwell, hrest⟩, rfl⟩
        refine bind_eq_ok_iff.mpr
          ⟨_, readMarks_eq_ok_iff_isSensitive.mpr ⟨hwell, rfl⟩,
            bind_eq_ok_iff.mpr ⟨_, ih.mpr ⟨hrest, rfl⟩, rfl⟩⟩

/-! ## When a derive succeeds -/

/-- The input of a derive is a structure without a mark of its own and with
the given, well marked fields. -/
structure Code.DeriveInput.HasWellMarked (input : DeriveInput)
    (fields : FieldList) : Prop where
  unmarked : ∀ attr ∈ input.attributes, isMark attr = false
  isRecord : input.body = .record fields
  marked : ∀ field ∈ fields.toList, IsWellMarked field.attributes

variable {input : DeriveInput} {kind : DeriveKind} {root : String}

theorem structFields_eq_ok_iff {found : List FieldItem} :
    structFields kind input = .ok found ↔
      (∀ attr ∈ input.attributes, isMark attr = false) ∧
        ∃ fields : FieldList,
          input.body = .record fields ∧ found = fields.toList := by
  unfold structFields
  cases hmark : input.attributes.find? isMark with
  | some attr =>
      have hmarked := List.find?_some hmark
      have hattr := List.mem_of_find?_eq_some hmark
      simp only [reduceCtorEq, false_iff, not_and]
      intro hunmarked
      simp [hunmarked attr hattr] at hmarked
  | none =>
      have hunmarked : ∀ attr ∈ input.attributes, isMark attr = false := by
        simpa using hmark
      cases hbody : input.body with
      | record fields =>
          simp only [Except.ok.injEq]
          constructor
          · rintro rfl
            exact ⟨hunmarked, fields, rfl, rfl⟩
          · rintro ⟨_, other, hother, rfl⟩
            rw [DeriveBody.record.inj hother]
      | enumeration start => simp
      | union start => simp

/-- A derive goes on, with the marked fields, from a structure that is well
marked. -/
theorem bind_markedFields_eq_ok_iff
    {next : List FieldItem → Except DeriveError Tokens} {tokens : Tokens} :
    (structFields kind input >>= fun fields => markedFields fields >>= next) =
        .ok tokens ↔
      ∃ fields, input.HasWellMarked fields ∧
        next (fields.toList.filter (isSensitive "sensitive")) = .ok tokens := by
  simp only [bind_eq_ok_iff, structFields_eq_ok_iff, markedFields_eq_ok_iff]
  constructor
  · rintro ⟨_, ⟨hunmarked, fields, hbody, rfl⟩, _, ⟨hmarked, rfl⟩, hnext⟩
    exact ⟨fields, ⟨hunmarked, hbody, hmarked⟩, hnext⟩
  · rintro ⟨fields, ⟨hunmarked, hbody, hmarked⟩, hnext⟩
    exact ⟨_, ⟨hunmarked, fields, hbody, rfl⟩, _, ⟨hmarked, rfl⟩, hnext⟩

/-- What a derive asks for besides well marked fields. -/
def DeriveKind.Admits (kind : DeriveKind) (root : String)
    (fields : FieldList) : Prop :=
  match kind with
  | .model => isWritableName root = true
  | .sensitive => ∃ field ∈ fields.toList, isSensitive "sensitive" field = true

theorem exists_expand_iff :
    (∃ tokens, expand kind root input = .ok tokens) ↔
      ∃ fields, input.HasWellMarked fields ∧ kind.Admits root fields := by
  unfold expand
  simp only [bind_markedFields_eq_ok_iff]
  rw [exists_comm]
  refine exists_congr fun fields => ?_
  rw [exists_and_left]
  refine and_congr_right fun _ => ?_
  cases kind with
  | model =>
      cases hroot : isWritableName root with
      | true => exact ⟨fun _ => hroot, fun _ => ⟨_, rfl⟩⟩
      | false => simp [DeriveKind.Admits, hroot]
  | sensitive =>
      have hadmits : DeriveKind.Admits .sensitive root fields ↔
          (fields.toList.filter (isSensitive "sensitive")).isEmpty = false := by
        rw [List.isEmpty_eq_false_iff_exists_mem]
        simp only [DeriveKind.Admits, List.mem_filter]
      rw [hadmits]
      cases (fields.toList.filter (isSensitive "sensitive")).isEmpty with
      | true => simp
      | false => exact ⟨fun _ => rfl, fun _ => ⟨_, rfl⟩⟩

/-! ## Derives and schemas -/

/-- A structure of a source as a derive is given it. -/
def Code.RecordItem.deriveInput (item : RecordItem) : DeriveInput where
  attributes := item.attributes
  name := item.name
  start := item.start
  generics := item.generics
  body := .record item.fields

/-- A derive finds marked which fields are declared sensitive. -/
structure MarksAlike (fields : List FieldItem) (declared : List Field) :
    Prop where
  length : declared.length = fields.length
  each : ∀ pair ∈ fields.zip declared,
    readMarks false pair.1.attributes = .ok pair.2.sensitive
  marked : markedFields fields =
    .ok (((fields.zip declared).filter fun pair => pair.2.sensitive).map
      Prod.fst)

theorem mem_zip_mapIdx {α β : Type} {items : List α} {view : Nat → α → β}
    {pair : α × β} (hpair : pair ∈ items.zip (items.mapIdx view)) :
    pair.1 ∈ items ∧ ∃ index, pair.2 = view index pair.1 := by
  obtain ⟨index, hindex⟩ := List.mem_iff_getElem?.mp hpair
  obtain ⟨hitem, hview⟩ := List.getElem?_zip_eq_some.mp hindex
  rw [List.getElem?_mapIdx, hitem, Option.map_some] at hview
  exact ⟨List.mem_of_getElem? hitem, index, (Option.some.inj hview).symm⟩

theorem marksAlike_declarationOf {item : RecordItem}
    (hmarked : ∀ field ∈ item.fields.toList, IsWellMarked field.attributes)
    (crate : Crate) (placed : Placed) :
    MarksAlike item.fields.toList
      (declarationOf {} crate placed item).fields := by
  have hlength : (declarationOf {} crate placed item).fields.length =
      item.fields.toList.length := List.length_mapIdx
  have hdeclared : ∀ pair ∈
      item.fields.toList.zip (declarationOf {} crate placed item).fields,
      pair.1 ∈ item.fields.toList ∧
        pair.2.sensitive = isSensitive "sensitive" pair.1 := by
    intro pair hpair
    obtain ⟨hfield, index, hview⟩ := mem_zip_mapIdx hpair
    rw [hview]
    exact ⟨hfield, rfl⟩
  constructor
  · exact hlength
  · intro pair hpair
    obtain ⟨hfield, hsensitive⟩ := hdeclared pair hpair
    exact readMarks_eq_ok_iff_isSensitive.mpr
      ⟨hmarked pair.1 hfield, hsensitive⟩
  · refine markedFields_eq_ok_iff.mpr ⟨hmarked, ?_⟩
    rw [List.filter_congr fun pair hpair => (hdeclared pair hpair).2]
    have hkept := List.filter_map (p := isSensitive "sensitive") (f := Prod.fst)
      (l := item.fields.toList.zip (declarationOf {} crate placed item).fields)
    rw [List.map_fst_zip (Nat.le_of_eq hlength.symm)] at hkept
    exact hkept.symm

/-- Derives and schemas read the same marks.  The derive of the model marker
succeeds just for structures that are not marked themselves and whose fields
are marked bare and at most once, the other derive for those of them with a
marked field.  When one of them succeeds for a structure of a crate, it counts
as marked just the fields that the schema of the crate declares sensitive.
The look-up of the masking crate answers names that can be written in code. -/
theorem derives_read_schema_marks (root : String)
    (hroot : isWritableName root = true) :
    (∀ input : DeriveInput,
      ((∃ tokens, expand .model root input = .ok tokens) ↔
          ∃ fields, input.HasWellMarked fields) ∧
        ((∃ tokens, expand .sensitive root input = .ok tokens) ↔
          ∃ fields, input.HasWellMarked fields ∧
            ∃ field ∈ fields.toList, ∃ attr ∈ field.attributes,
              isMark attr = true)) ∧
      ∀ (crate : Crate) (placed : Placed) (item : RecordItem),
        placed ∈ crate.items → placed.record? = some item →
        ∀ (kind : DeriveKind) (tokens : Tokens),
          expand kind root item.deriveInput = .ok tokens →
          let declaration := declarationOf {} crate placed item
          declaration ∈ (schemaOf {} crate).declarations ∧
            MarksAlike item.fields.toList declaration.fields := by
  refine ⟨fun input => ⟨?_, ?_⟩, ?_⟩
  · rw [exists_expand_iff]
    simp [DeriveKind.Admits, hroot]
  · rw [exists_expand_iff]
    simp [DeriveKind.Admits, isSensitive, isMark]
  · intro crate placed item hplaced hrecord kind tokens hexpand declaration
    obtain ⟨fields, hwell, _⟩ := exists_expand_iff.mp ⟨tokens, hexpand⟩
    obtain rfl := DeriveBody.record.inj hwell.isRecord
    constructor
    · refine List.mem_filterMap.mpr ⟨placed, hplaced, ?_⟩
      rw [hrecord]
      rfl
    · exact marksAlike_declarationOf hwell.marked crate placed

open Source.SampleSources in
/-- A tuple with a marked field that has another attribute before its mark. -/
def markedToken : RecordItem where
  attributes := [⟨⟨1, 0⟩, false, ["derive"], .list .round []⟩]
  name := "Token"
  start := ⟨2, 11⟩
  generics := {}
  fields := .unnamed
    [{ fieldAt 2 "" ["String"]
          [⟨⟨2, 17⟩, false, ["doc"], .valued [.literal "\"secret\""]⟩,
            sensitiveAt 2] with name := none },
      { fieldAt 2 "" ["u64"] [] with name := none }]

theorem hasWellMarked_markedToken :
    markedToken.deriveInput.HasWellMarked markedToken.fields where
  unmarked := by
    simp [RecordItem.deriveInput, markedToken, isMark, Attribute.isNamed]
  isRecord := rfl
  marked := by
    intro field hfield
    simp only [markedToken, FieldList.toList, List.mem_cons,
      List.not_mem_nil, or_false] at hfield
    rcases hfield with rfl | rfl
    · constructor
      · simp [isMark, Attribute.isNamed, SampleSources.fieldAt,
          SampleSources.sensitiveAt]
      · simp [isMark, Attribute.isNamed, SampleSources.fieldAt,
          SampleSources.sensitiveAt]
    · constructor
      · simp [SampleSources.fieldAt]
      · simp [SampleSources.fieldAt]

theorem markedToken_reads_alike :
    isWritableName (Host.runtimeName none) = true ∧
      ∃ tokens,
        expand .sensitive (Host.runtimeName none) markedToken.deriveInput =
          .ok tokens ∧
        let crate := Crate.ofSources
          [⟨"models", "src/models.rs", [.record markedToken]⟩]
        let declaration := declarationOf {} crate
          ⟨"models", "src/models.rs", .record markedToken⟩ markedToken
        declaration.fields.map Field.sensitive = [true, false] ∧
          MarksAlike markedToken.fields.toList declaration.fields := by
  have hroot : isWritableName (Host.runtimeName none) = true := by
    decide +kernel
  obtain ⟨hderives, hschema⟩ := derives_read_schema_marks _ hroot
  obtain ⟨tokens, htokens⟩ :=
    (hderives markedToken.deriveInput).2.mpr ⟨_, hasWellMarked_markedToken, _,
      List.mem_cons_self, SampleSources.sensitiveAt 2,
      List.mem_cons_of_mem _ List.mem_cons_self, rfl⟩
  exact ⟨hroot, tokens, htokens, rfl,
    (hschema _ ⟨"models", "src/models.rs", .record markedToken⟩ _
      (List.mem_singleton_self _) rfl _ _ htokens).2⟩

end RecordMasking
