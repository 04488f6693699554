import RecordMasking.Proofs.WrittenField
import RecordMasking.Source.SampleSources

/-!
# Imported names

An import binds a name to the path it is imported from.  A single name takes
that path as it stands, while a path that is written at a field first has its
own first segment replaced by what that is imported as.  The two agree unless
the import starts at a name that is imported itself, or the path is written
from the root, which an import forgets.
-/

namespace RecordMasking

/-- Two types of one kind, and of one record where they are records. -/
def FieldType.SameKind : FieldType → FieldType → Prop
  | .builtin _, .builtin _ => True
  | .declared one, .declared next => one = next
  | .unresolved _, .unresolved _ => True
  | _, _ => False

namespace Source

open Code

theorem Target.sameKind_iff (one next : Target) (text other : String) :
    (one.fieldType text).SameKind (next.fieldType other) ↔ one = next := by
  cases one <;> cases next <;> simp [Target.fieldType, FieldType.SameKind]

namespace Crate

variable {crate : Crate} {package : Package}

/-- A path whose first segment is replaced by what it is imported as. -/
def expanded (crate : Crate) (package : Package) : List String → List String
  | [] => []
  | first :: rest =>
      match crate.imported? package first with
      | some full => full ++ rest
      | none => first :: rest

/-- Where a path leads when none of its segments is looked up among the
imports. -/
def leadsTo (crate : Crate) (package : Package) (path : List String) :
    Target :=
  crate.settle synonymLimit (crate.ofAbsolute package path)

theorem reference_imported {name : String} {full : List String}
    (hunknown : crate.knows ⟨package, name⟩ = false)
    (himported : crate.imported? package name = some full) :
    crate.reference package false [name] = crate.ofAbsolute package full := by
  simp [reference, hunknown, himported]

theorem reference_of_long {path : List String} (hlong : 2 ≤ path.length) :
    crate.reference package false path =
      crate.ofAbsolute package (crate.expanded package path) := by
  obtain ⟨first, second, rest, rfl⟩ :
      ∃ first second rest, path = first :: second :: rest := by
    match path, hlong with
    | first :: second :: rest, _ => exact ⟨first, second, rest, rfl⟩
  rw [reference, if_neg Bool.false_ne_true, expanded]
  cases crate.imported? package first with
  | none => rfl
  | some full => rfl

theorem target_of_long (rooted : Bool) {path : List String}
    (hlong : 2 ≤ path.length) :
    crate.target synonymLimit package rooted path =
      if rooted then .foreign
      else crate.leadsTo package (crate.expanded package path) := by
  rw [target_eq_settle]
  cases rooted with
  | true => rfl
  | false => rw [reference_of_long hlong, if_neg Bool.false_ne_true, leadsTo]

theorem expanded_of_not_imported {first : String} {path : List String}
    (hfirst : path.head? = some first)
    (hfree : crate.imported? package first = none) :
    crate.expanded package path = path := by
  obtain ⟨rest, rfl⟩ := List.head?_eq_some_iff.mp hfirst
  rw [expanded, hfree]

end Crate

/-- A field typed by an imported name and a field typed by the path that the
name is imported from have types of the same kind just when the path leads
where it leads with its first segment expanded, or leads out of the crate when
it is written from the root.  They always have when it is not written so and
its first segment is not imported itself. -/
theorem imported_like_its_path (config : Config) {crate : Crate}
    (named spelled : WrittenField crate) {name : String}
    {arguments : Arguments} {rooted : Bool} {segments : List Segment}
    {path : List String}
    (hpackage : spelled.package = named.package)
    (hnamed : named.field.type = .path false [.mk name arguments])
    (hspelled : spelled.field.type = .path rooted segments)
    (hsegments : segments.map Segment.name = path)
    (hlong : 2 ≤ path.length)
    (himported : crate.imported? named.package name = some path)
    (hunknown : crate.knows ⟨named.package, name⟩ = false)
    (hname : isBuiltinPath named.params false [.mk name arguments] = false)
    (hpath : isBuiltinPath spelled.params rooted segments = false) :
    ∃ one next, named.type? config = some one ∧
      spelled.type? config = some next ∧
      (one.SameKind next ↔
        crate.leadsTo named.package path =
          if rooted then .foreign
          else crate.leadsTo named.package
            (crate.expanded named.package path)) ∧
      ∀ first, path.head? = some first →
        crate.imported? named.package first = none → rooted = false →
        one.SameKind next := by
  have hone : named.type? config =
      some ((crate.leadsTo named.package path).fieldType
        named.field.type.render) := by
    rw [named.type?_eq, hnamed, fieldType_path, hname,
      Crate.target_eq_settle]
    have hreference : crate.reference named.package false
        ([Segment.mk name arguments].map Segment.name) =
          crate.ofAbsolute named.package path :=
      Crate.reference_imported hunknown himported
    rw [hreference]
    rfl
  have hnext : spelled.type? config =
      some ((if rooted then Target.foreign
        else crate.leadsTo named.package
          (crate.expanded named.package path)).fieldType
            spelled.field.type.render) := by
    rw [spelled.type?_eq, hspelled, fieldType_path, hpath, hsegments,
      hpackage, Crate.target_of_long rooted hlong]
    rfl
  refine ⟨_, _, hone, hnext, Target.sameKind_iff _ _ _ _, ?_⟩
  rintro first hfirst hfree rfl
  rw [Target.sameKind_iff, Crate.expanded_of_not_imported hfirst hfree]
  rfl

namespace SampleSources

/-- A field of the order. -/
def orderField (index : Nat) (hindex : index < order.fields.toList.length) :
    WrittenField orderCrate :=
  .ofRecord ⟨"shop", "src/shop.rs", .record order⟩
    (List.mem_of_getElem? (i := 4) rfl) rfl index hindex

end SampleSources

open SampleSources in
/-- The card that is imported by its full path is found under its new name;
the one that is imported through an imported module is lost, though the path
of its import leads to it. -/
theorem payment_like_its_path :
    orderCrate.imported? "shop" "PaymentCard" =
        some ["crate", "models", "vault", "Card"] ∧
      orderCrate.imported? "shop" "crate" = none ∧
      (∃ one next, (orderField 2 (by decide)).type? {} = some one ∧
        (orderField 3 (by decide)).type? {} = some next ∧
        one.SameKind next) ∧
      orderCrate.imported? "shop" "Card" = some ["vault", "Card"] ∧
      orderCrate.imported? "shop" "vault" =
        some ["crate", "models", "vault"] ∧
      (orderField 0 (by decide)).type? {} = some (.builtin "Card") ∧
      (orderField 1 (by decide)).type? {} =
        some (.declared ⟨"models::vault", "Card"⟩) := by
  have hpayment : orderCrate.imported? "shop" "PaymentCard" =
      some ["crate", "models", "vault", "Card"] := by
    decide +kernel
  have hfree : orderCrate.imported? "shop" "crate" = none := by
    decide +kernel
  obtain ⟨one, next, hone, hnext, _, hsame⟩ :=
    imported_like_its_path {} (orderField 2 (by decide))
      (orderField 3 (by decide)) rfl rfl rfl rfl (by decide) hpayment
      (by decide +kernel) (by decide +kernel) (by decide +kernel)
  exact ⟨hpayment, hfree,
    ⟨one, next, hone, hnext, hsame "crate" rfl hfree rfl⟩, by decide +kernel,
    by decide +kernel, by decide +kernel, by decide +kernel⟩

end Source

end RecordMasking
