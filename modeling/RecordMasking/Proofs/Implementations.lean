import RecordMasking.Proofs.OwnNames
import RecordMasking.Proofs.SortedNames
import RecordMasking.Source.SampleSources

/-!
# Implementations and the records they mark

A record has as supertypes the traits that it derives and those that its
package implements.  An implementation is kept under the last name of its
type, and the type is not looked up: it marks the records of that name in its
own package, whatever the type leads to.  Where the type is the single name
of an own record and no builtin type has the name, that is the record it is
for.
-/

namespace RecordMasking.Source

open Code

/-! ## Written implementations -/

/-- The last name of a type that is written as a path. -/
def lastName? : TypeExpr → Option String
  | .path _ segments => segments.getLast?.map Segment.name
  | .qualified _ _ _ segments => segments.getLast?.map Segment.name
  | _ => none

structure WrittenImpl (crate : Crate) where
  placed : Placed
  trait : List Segment
  self : TypeExpr
  isPlaced : placed ∈ crate.items
  isImpl : placed.item = .implementation trait self

namespace Placed

variable {placed : Placed} {self marker : String}

theorem implementation?_of_impl {trait : List Segment} {type : TypeExpr}
    (himpl : placed.item = .implementation trait type) :
    placed.implementation? = some (self, marker) ↔
      lastName? type = some self ∧
        trait.getLast?.map Segment.name = some marker := by
  cases type <;> simp only [implementation?, himpl, lastName?]
  case path _ segments =>
    cases segments.getLast? <;> cases trait.getLast? <;> simp
  case qualified _ _ _ segments =>
    cases segments.getLast? <;> cases trait.getLast? <;> simp
  all_goals simp

theorem exists_impl (hsome : placed.implementation? = some (self, marker)) :
    ∃ trait type, placed.item = .implementation trait type := by
  cases hitem : placed.item with
  | implementation trait type => exact ⟨trait, type, rfl⟩
  | _ => simp [implementation?, hitem] at hsome

end Placed

namespace WrittenImpl

variable {crate : Crate} (written : WrittenImpl crate)

def package : Package :=
  written.placed.package

def Implements (package : Package) (marker : String) : Prop :=
  written.package = package ∧
    written.trait.getLast?.map Segment.name = some marker

/-- The type that the marker is implemented for, looked up like the type of a
field whose record has the given parameters. -/
def selfType (params : List String) : FieldType :=
  fieldType crate written.package params written.self

/-- The type is the single name of a record of the package, and the name is
neither a parameter of the implementation nor reserved. -/
def IsForOwnName (params : List String) : Prop :=
  ∃ name arguments, written.self = .path false [.mk name arguments] ∧
    name ∉ params ∧ isReservedName name arguments = false ∧
    crate.declares ⟨written.package, name⟩ = true

theorem IsForOwnName.selfType_eq_iff {written : WrittenImpl crate}
    {params : List String} (hown : written.IsForOwnName params)
    (name : String) :
    written.selfType params = .declared ⟨written.package, name⟩ ↔
      lastName? written.self = some name := by
  obtain ⟨own, arguments, hself, hparam, hreserved, hdeclares⟩ := hown
  have htype : written.selfType params = .declared ⟨written.package, own⟩ := by
    simp [selfType, hself, fieldType_own hparam hdeclares, hreserved]
  simp [htype, hself, lastName?, Segment.name]

end WrittenImpl

variable {crate : Crate}

theorem Crate.mem_traitsOf {package : Package} {self marker : String} :
    marker ∈ crate.traitsOf package self ↔
      ∃ written : WrittenImpl crate, written.Implements package marker ∧
        lastName? written.self = some self := by
  simp only [traitsOf, itemsOf, List.mem_filterMap, List.mem_filter, beq_iff_eq]
  constructor
  · rintro ⟨⟨name, trait⟩, ⟨placed, ⟨hplaced, hpackage⟩, hsome⟩, hentry⟩
    obtain ⟨path, type, himpl⟩ := Placed.exists_impl hsome
    obtain ⟨hself, hmarker⟩ := (Placed.implementation?_of_impl himpl).mp hsome
    simp only [Option.ite_none_right_eq_some, Option.some.injEq] at hentry
    obtain ⟨rfl, rfl⟩ := hentry
    exact ⟨⟨placed, path, type, hplaced, himpl⟩, ⟨hpackage, hmarker⟩, hself⟩
  · rintro ⟨written, ⟨hpackage, hmarker⟩, hself⟩
    refine ⟨(self, marker), ⟨written.placed, ⟨written.isPlaced, hpackage⟩, ?_⟩,
      by simp⟩
    exact (Placed.implementation?_of_impl written.isImpl).mpr ⟨hself, hmarker⟩

/-! ## What marks a record -/

theorem mem_supertypes_iff (config : Config) (placed : Placed)
    (item : RecordItem) (marker : String) :
    marker ∈ (declarationOf config crate placed item).supertypes ↔
      marker ∈ derivedNames item.attributes ∨
        ∃ written : WrittenImpl crate,
          written.Implements placed.package marker ∧
            lastName? written.self = some item.name := by
  simp [declarationOf, mem_sortedNames, Crate.mem_traitsOf]

/-- The record derives the marker, or its package implements it for a type
that is the record. -/
def IsMarked (crate : Crate) (params : WrittenImpl crate → List String)
    (placed : Placed) (item : RecordItem) (marker : String) : Prop :=
  marker ∈ derivedNames item.attributes ∨
    ∃ written : WrittenImpl crate, written.Implements placed.package marker ∧
      written.selfType (params written) =
        .declared ⟨placed.package, item.name⟩

/-- An implementation marks the records of its package that have the last name
of its type, and no others.  A record is marked just when one is for it, if
each implementation that has its name, or is for it, has the single name of an
own record as its type. -/
theorem implementations_mark_by_name (config : Config) {crate : Crate}
    {placed : Placed} {item : RecordItem} (hplaced : placed ∈ crate.items)
    (hrecord : placed.record? = some item) (marker : String) :
    let declaration := declarationOf config crate placed item
    declaration ∈ (schemaOf config crate).declarations ∧
      (marker ∈ declaration.supertypes ↔
        marker ∈ derivedNames item.attributes ∨
          ∃ written : WrittenImpl crate,
            written.Implements placed.package marker ∧
              lastName? written.self = some item.name) ∧
      ∀ params : WrittenImpl crate → List String,
        (∀ written : WrittenImpl crate,
          written.Implements placed.package marker →
          (lastName? written.self = some item.name ∨
            written.selfType (params written) =
              .declared ⟨placed.package, item.name⟩) →
          written.IsForOwnName (params written)) →
        (marker ∈ declaration.supertypes ↔
          IsMarked crate params placed item marker) := by
  refine ⟨declarationOf_mem config hplaced hrecord,
    mem_supertypes_iff config placed item marker, ?_⟩
  intro params hown
  rw [mem_supertypes_iff, IsMarked]
  apply or_congr_right
  -- The implementation is the same on both sides: what has the name is for
  -- the record, and what is for it has the name.
  constructor
  · rintro ⟨written, himplements, hname⟩
    have hself := hown written himplements (.inl hname)
    refine ⟨written, himplements, ?_⟩
    rw [← himplements.1]
    exact (hself.selfType_eq_iff item.name).mpr hname
  · rintro ⟨written, himplements, htype⟩
    have hself := hown written himplements (.inr htype)
    refine ⟨written, himplements, ?_⟩
    rw [← himplements.1] at htype
    exact (hself.selfType_eq_iff item.name).mp htype

namespace SampleSources

def cardImpl : WrittenImpl twoCards where
  placed := ⟨"models", "src/models.rs",
    .implementation [.mk "Model" .none] vaultCard⟩
  trait := [.mk "Model" .none]
  self := vaultCard
  isPlaced := List.mem_of_getElem? (i := 3) rfl
  isImpl := rfl

theorem self_of_twoCards (written : WrittenImpl twoCards) :
    written.package = "models" ∧
      (written.self = vaultCard ∨
        written.self = .path false [.mk "Note" .none]) := by
  obtain ⟨placed, trait, self, hplaced, himpl⟩ := written
  have hitems : twoCards.items =
      [⟨"models", "src/models.rs", .record plainCard⟩,
        ⟨"models", "src/models.rs", .record plainNote⟩,
        ⟨"models::vault", "src/models.rs",
          recordAt 10 "Card" [fieldAt 11 "brand" ["String"] []]⟩,
        cardImpl.placed, ⟨"models", "src/models.rs", modelOf "Note"⟩] := rfl
  simp only [hitems, List.mem_cons, List.not_mem_nil, or_false] at hplaced
  rcases hplaced with rfl | rfl | rfl | rfl | rfl <;> cases himpl
  · exact ⟨rfl, .inl rfl⟩
  · exact ⟨rfl, .inr rfl⟩

theorem vaultCard_type :
    fieldType twoCards "models" [] vaultCard =
      .declared ⟨"models::vault", "Card"⟩ := by
  decide +kernel

theorem noteName_type :
    fieldType twoCards "models" [] (.path false [.mk "Note" .none]) =
      .declared ⟨"models", "Note"⟩ := by
  decide +kernel

theorem plainCard_not_marked (file : String) :
    ¬IsMarked twoCards (fun _ => [])
      ⟨"models", file, .record plainCard⟩ plainCard "Model" := by
  rintro (hderived | ⟨written, -, htype⟩)
  · exact absurd hderived List.not_mem_nil
  · obtain ⟨hpackage, hself | hself⟩ := self_of_twoCards written
    · simp [WrittenImpl.selfType, hpackage, hself, vaultCard_type] at htype
    · simp [WrittenImpl.selfType, hpackage, hself, noteName_type,
        plainCard] at htype

theorem isForOwnName_of_note {written : WrittenImpl twoCards}
    (hnote : lastName? written.self = some "Note" ∨
      written.selfType [] = .declared ⟨"models", "Note"⟩) :
    written.IsForOwnName [] := by
  obtain ⟨hpackage, hself | hself⟩ := self_of_twoCards written
  · have hname : lastName? vaultCard = some "Card" := rfl
    simp [WrittenImpl.selfType, hpackage, hself, vaultCard_type,
      hname] at hnote
  · refine ⟨"Note", .none, hself, List.not_mem_nil, by decide, ?_⟩
    rw [hpackage]
    decide +kernel

end SampleSources

open SampleSources in
/-- The card is marked by an implementation for the card of the vault, and
that one is not.  The note is marked by the one that is for it. -/
theorem twoCards_mark_by_name :
    let card : Placed := ⟨"models", "src/models.rs", .record plainCard⟩
    let note : Placed := ⟨"models", "src/models.rs", .record plainNote⟩
    card ∈ twoCards.items ∧ card.record? = some plainCard ∧
      "Model" ∈ (declarationOf {} twoCards card plainCard).supertypes ∧
      ¬IsMarked twoCards (fun _ => []) card plainCard "Model" ∧
      (schemaOf {} twoCards).isModel ⟨"models", "Card"⟩ = true ∧
      (schemaOf {} twoCards).isModel ⟨"models::vault", "Card"⟩ = false ∧
      note ∈ twoCards.items ∧ note.record? = some plainNote ∧
      ("Model" ∈ (declarationOf {} twoCards note plainNote).supertypes ↔
        IsMarked twoCards (fun _ => []) note plainNote "Model") ∧
      (schemaOf {} twoCards).isModel ⟨"models", "Note"⟩ = true := by
  intro card note
  have hcard : card ∈ twoCards.items := List.mem_of_getElem? (i := 0) rfl
  have hnote : note ∈ twoCards.items := List.mem_of_getElem? (i := 1) rfl
  have hmarked := (implementations_mark_by_name {} hcard rfl "Model").2.1.mpr
    (.inr ⟨cardImpl, ⟨rfl, rfl⟩, rfl⟩)
  have hsame := (implementations_mark_by_name {} hnote rfl "Model").2.2
    (fun _ => []) fun _ _ => isForOwnName_of_note
  exact ⟨hcard, rfl, hmarked, plainCard_not_marked _, by decide +kernel,
    by decide +kernel, hnote, rfl, hsame, by decide +kernel⟩

end RecordMasking.Source
