import RecordMasking.Proofs.WrittenField
import RecordMasking.Source.SampleSources

/-!
# Records of the own package

A record is found in its own package under its name, and in a child module
under the name of the module, before imports are asked.  The names of builtin
types are tested earlier still: a record that is named like one of them stays
hidden behind it.
-/

namespace RecordMasking.Source

open Code

/-- Whether a single name is taken for a type of the standard library or,
without arguments, for a primitive type. -/
def isReservedName (name : String) (arguments : Arguments) : Bool :=
  standardNames.contains name ||
    (arguments.isEmpty && primitiveNames.contains name)

/-- The segments that anchor a path; no module has one of them as its name. -/
def anchors : List String := ["crate", "self", "super"]

theorem isBuiltinPath_single {params : List String} {name : String}
    (hparam : name ∉ params) (arguments : Arguments) :
    isBuiltinPath params false [.mk name arguments] =
      isReservedName name arguments := by
  have hfree : params.contains name = false := by simpa using hparam
  show (standardNames.contains name ||
    (true && (params.contains name || _))) = _
  rw [hfree]
  rfl

/-- Empty angle brackets are no arguments. -/
example : isBuiltinPath [] false [.mk "u8" (.angled false [] false)] = true :=
  rfl

theorem anchored?_of_not_mem {first : String} (hfirst : first ∉ anchors)
    (current : Package) (rest : List String) :
    anchored? current (first :: rest) = none := by
  simp only [anchors, List.mem_cons, List.not_mem_nil, or_false,
    not_or] at hfirst
  simp [anchored?, hfirst]

namespace Crate

variable {crate : Crate} {package : Package}

theorem knows_of_declares {id : QualifiedName}
    (hdeclares : crate.declares id = true) : crate.knows id = true := by
  simp [knows, hdeclares]

theorem reference_own {name : String}
    (hdeclares : crate.declares ⟨package, name⟩ = true) :
    crate.reference package false [name] = .item ⟨package, name⟩ := by
  rw [reference, if_neg Bool.false_ne_true]
  exact if_pos (knows_of_declares hdeclares)

theorem absolute?_child {module : String} (hmodule : module ∉ anchors)
    (hmounted : crate.hasPackage (package.child module) = true)
    (name : String) :
    crate.absolute? package [module, name] =
      some ⟨package.child module, name⟩ := by
  have hlead : Package.ofSegments [module] = module :=
    String.intercalate_singleton
  simp [absolute?, anchored?_of_not_mem hmodule, hlead, hmounted]

theorem reference_child {module : String} (hmodule : module ∉ anchors)
    (hmounted : crate.hasPackage (package.child module) = true)
    (hfree : crate.imported? package module = none) (name : String) :
    crate.reference package false [module, name] =
      .item ⟨package.child module, name⟩ := by
  rw [reference, if_neg Bool.false_ne_true]
  simp only [hfree, ofAbsolute, absolute?_child hmodule hmounted]

end Crate

/-! ## Own records -/

variable {config : Config} {crate : Crate}

/-- The name of an own record is its type, unless the name is reserved. -/
theorem fieldType_own {package : Package} {params : List String}
    {name : String} (hparam : name ∉ params)
    (hdeclares : crate.declares ⟨package, name⟩ = true)
    (arguments : Arguments) :
    fieldType crate package params (.path false [.mk name arguments]) =
      if isReservedName name arguments then
        .builtin (TypeExpr.render (.path false [.mk name arguments]))
      else .declared ⟨package, name⟩ := by
  have hreference : crate.reference package false
      ([Segment.mk name arguments].map Segment.name) =
        .item ⟨package, name⟩ := Crate.reference_own hdeclares
  rw [fieldType_path, isBuiltinPath_single hparam, Crate.target_eq_settle,
    hreference, Crate.settle_of_declares hdeclares]
  rfl

/-- Every record of its package, and of a child module whose name is not
imported, is what its name stands for. -/
def FindsOwnRecords (config : Config) (crate : Crate) : Prop :=
  ∀ written : WrittenField crate,
    (∀ name arguments,
      written.field.type = .path false [.mk name arguments] →
      crate.declares ⟨written.package, name⟩ = true →
      name ∉ written.params →
      written.type? config = some (.declared ⟨written.package, name⟩)) ∧
    ∀ module name outer inner,
      written.field.type = .path false [.mk module outer, .mk name inner] →
      module ∉ anchors →
      crate.hasPackage (written.package.child module) = true →
      crate.declares ⟨written.package.child module, name⟩ = true →
      crate.imported? written.package module = none →
      written.type? config =
        some (.declared ⟨written.package.child module, name⟩)

/-- A record of the own package, or of a child module whose name is not
imported, is what its name stands for, whatever else the name is imported as.
Only the reserved names and the modules named like the roots of the standard
library come first: they keep their text. -/
theorem own_records_found (config : Config) (written : WrittenField crate) :
    (∀ name arguments,
      written.field.type = .path false [.mk name arguments] →
      crate.declares ⟨written.package, name⟩ = true →
      name ∉ written.params →
      written.type? config =
        some (if isReservedName name arguments then
            .builtin written.field.type.render
          else .declared ⟨written.package, name⟩)) ∧
    ∀ module name outer inner,
      written.field.type = .path false [.mk module outer, .mk name inner] →
      module ∉ anchors →
      crate.hasPackage (written.package.child module) = true →
      crate.declares ⟨written.package.child module, name⟩ = true →
      crate.imported? written.package module = none →
      written.type? config =
        some (if module ∈ standardRoots then
            .builtin written.field.type.render
          else .declared ⟨written.package.child module, name⟩) := by
  constructor
  · intro name arguments htype hdeclares hparam
    rw [written.type?_eq, htype, fieldType_own hparam hdeclares]
  · intro module name outer inner htype hmodule hmounted hdeclares hfree
    rw [written.type?_eq, htype, fieldType_path, Crate.target_eq_settle]
    have hreference : crate.reference written.package false
        ([Segment.mk module outer, .mk name inner].map Segment.name) =
          .item ⟨written.package.child module, name⟩ :=
      Crate.reference_child hmodule hmounted hfree name
    rw [hreference, Crate.settle_of_declares hdeclares]
    simp only [isBuiltinPath, Segment.name, List.contains_eq_mem,
      decide_eq_true_eq]
    rfl

namespace SampleSources

/-- A field of the job. -/
def jobField (index : Nat) (hindex : index < job.fields.toList.length) :
    WrittenField jobCrate :=
  .ofRecord ⟨"models", "src/models.rs", .record job⟩
    List.mem_cons_self rfl index hindex

end SampleSources

open SampleSources in
theorem job_records_found :
    let note := jobField 3 (by decide)
    let receipt := jobField 4 (by decide)
    note.field.type = .path false [.mk "Note" .none] ∧
      jobCrate.declares ⟨note.package, "Note"⟩ = true ∧
      "Note" ∉ note.params ∧
      note.type? {} = some (.declared ⟨"models", "Note"⟩) ∧
      receipt.field.type = .path false [.mk "archive" .none, .mk "Receipt" .none] ∧
      "archive" ∉ anchors ∧
      jobCrate.hasPackage (receipt.package.child "archive") = true ∧
      jobCrate.declares ⟨receipt.package.child "archive", "Receipt"⟩ = true ∧
      jobCrate.imported? receipt.package "archive" = none ∧
      receipt.type? {} = some (.declared ⟨"models::archive", "Receipt"⟩) := by
  have hnote : jobCrate.declares ⟨"models", "Note"⟩ = true := by
    decide +kernel
  have hreceipt : jobCrate.declares ⟨"models::archive", "Receipt"⟩ = true := by
    decide +kernel
  have hmounted : jobCrate.hasPackage "models::archive" = true := by
    decide +kernel
  have hanchor : "archive" ∉ anchors := by decide
  have hparam : "Note" ∉ (jobField 3 (by decide)).params :=
    List.not_mem_nil
  exact ⟨rfl, hnote, hparam,
    (own_records_found {} (jobField 3 (by decide))).1 "Note" .none rfl hnote
      hparam,
    rfl, hanchor, hmounted, hreceipt, rfl,
    (own_records_found {} (jobField 4 (by decide))).2 "archive" "Receipt" .none
      .none rfl hanchor hmounted hreceipt rfl⟩

open SampleSources in
/-- A duration, a character and a card in a module named `core` are declared
in the package of the job, and yet its fields stay builtin. -/
theorem reserved_records_hidden :
    (jobField 0 (by decide)).field.type =
        .path false [.mk "Duration" .none] ∧
      jobCrate.declares ⟨"models", "Duration"⟩ = true ∧
      (jobField 0 (by decide)).type? {} = some (.builtin "Duration") ∧
      (jobField 1 (by decide)).field.type = .path false [.mk "char" .none] ∧
      jobCrate.declares ⟨"models", "char"⟩ = true ∧
      (jobField 1 (by decide)).type? {} = some (.builtin "char") ∧
      (jobField 2 (by decide)).field.type =
        .path false [.mk "core" .none, .mk "Card" .none] ∧
      jobCrate.declares ⟨"models::core", "Card"⟩ = true ∧
      (jobField 2 (by decide)).type? {} = some (.builtin "core :: Card") ∧
      ¬FindsOwnRecords {} jobCrate := by
  have hduration : jobCrate.declares ⟨"models", "Duration"⟩ = true := by
    decide +kernel
  have helapsed : (jobField 0 (by decide)).type? {} =
      some (.builtin "Duration") := by
    decide +kernel
  refine ⟨rfl, hduration, helapsed, rfl, by decide +kernel,
    by decide +kernel, rfl, by decide +kernel, by decide +kernel, ?_⟩
  intro hfinds
  have hfound := (hfinds (jobField 0 (by decide))).1 "Duration" .none rfl
    hduration List.not_mem_nil
  rw [helapsed] at hfound
  cases hfound

end RecordMasking.Source
