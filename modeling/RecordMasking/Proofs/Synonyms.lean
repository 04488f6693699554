import Mathlib.Logic.Function.Iterate
import RecordMasking.Proofs.ImportedNames

/-!
# Chains of synonyms

A reference to a synonym is followed to what the target of the synonym refers
to in the package of the synonym, one hop at a time.  A chain of hops ends at
a record, at something that is taken for builtin, or at a name that nothing
has; or it goes on for longer than any chain is followed, as a loop does.
Only a record is remembered at the field: of every other end the field keeps
its own text.
-/

namespace RecordMasking.Source

open Code

theorem fieldType_of_shape {crate : Crate} {package : Package}
    {params : List String} {type : TypeExpr} {rooted : Bool}
    {path : List String}
    (hshape : Shape.ofType params type = .path rooted path) :
    fieldType crate package params type =
      (crate.settle synonymLimit
        (crate.reference package rooted path)).fieldType type.render := by
  unfold fieldType
  rw [hshape, ← Crate.target_eq_settle]
  dsimp only
  cases crate.target synonymLimit package rooted path <;> rfl

namespace Crate

/-! ## Hops -/

/-- What the target of a synonym refers to: its shape is tested among the
parameters of the synonym, and its path is looked up in the package of the
synonym. -/
def referenceOf (crate : Crate) (package : Package) (params : List String)
    (target : TypeExpr) : Reference :=
  match Shape.ofType params target with
  | .builtin _ => .foreign
  | .path rooted path => crate.reference package rooted path

/-- The next reference of a chain of synonyms. -/
def hop? (crate : Crate) : Reference → Option Reference
  | .item id =>
      if crate.declares id || crate.closes id then none
      else
        (crate.synonym? id).map fun synonym =>
          crate.referenceOf id.package synonym.1.valueNames synonym.2
  | _ => none

/-- One hop, where there is one. -/
def advance (crate : Crate) (ref : Reference) : Reference :=
  (crate.hop? ref).getD ref

/-- What a reference stands for when it is not followed. -/
def ending (crate : Crate) : Reference → Target
  | .foreign => .foreign
  | .unknown => .unknown
  | .item id =>
      if crate.declares id then .declared id
      else if crate.closes id then .foreign
      else .unknown

/-- A chain of hops that follows the given number of synonyms. -/
inductive Leads (crate : Crate) : Nat → Reference → Reference → Prop
  | here (ref : Reference) : Leads crate 0 ref ref
  | hop {count : Nat} {first next last : Reference}
      (hnext : crate.hop? first = some next)
      (hrest : Leads crate count next last) :
      Leads crate (count + 1) first last

/-- What is taken for builtin: a type that stays closed, or what is reached
by a builtin shape or by a path that leads out of the crate. -/
def IsOutside (crate : Crate) : Reference → Prop
  | .item id => crate.declares id = false ∧ crate.closes id = true
  | .foreign => True
  | .unknown => False

/-- A name that nothing in the crate has. -/
def IsNowhere (crate : Crate) : Reference → Prop
  | .item id => crate.knows id = false
  | .foreign => False
  | .unknown => True

variable {crate : Crate} {first last : Reference} {count : Nat}

theorem hop?_item (crate : Crate) (id : QualifiedName) :
    crate.hop? (.item id) =
      if crate.declares id || crate.closes id then none
      else
        (crate.synonym? id).map fun synonym =>
          crate.referenceOf id.package synonym.1.valueNames synonym.2 :=
  rfl

theorem ending_item (crate : Crate) (id : QualifiedName) :
    crate.ending (.item id) =
      if crate.declares id then .declared id
      else if crate.closes id then .foreign
      else .unknown :=
  rfl

theorem exists_synonym_of_hop {next : Reference}
    (hnext : crate.hop? first = some next) :
    ∃ id synonym, first = .item id ∧ crate.declares id = false ∧
      crate.closes id = false ∧ crate.synonym? id = some synonym ∧
      next =
        crate.referenceOf id.package synonym.1.valueNames synonym.2 := by
  cases first with
  | foreign => cases hnext
  | unknown => cases hnext
  | item id =>
      rw [hop?_item] at hnext
      split at hnext
      next => cases hnext
      next hfree =>
        rw [Bool.or_eq_true, not_or, Bool.not_eq_true, Bool.not_eq_true]
          at hfree
        obtain ⟨synonym, hsynonym, htarget⟩ := Option.map_eq_some_iff.mp hnext
        exact ⟨id, synonym, rfl, hfree.1, hfree.2, hsynonym, htarget.symm⟩

theorem settle_of_hop {next : Reference}
    (hnext : crate.hop? first = some next) (left : Nat) :
    crate.settle (left + 1) first = crate.settle left next := by
  obtain ⟨id, synonym, rfl, hdeclares, hcloses, hsynonym, rfl⟩ :=
    exists_synonym_of_hop hnext
  simp only [settle, hdeclares, hcloses, hsynonym, Bool.false_eq_true,
    if_false]
  unfold referenceOf
  cases Shape.ofType synonym.1.valueNames synonym.2 with
  | builtin text => rfl
  | path rooted path => exact target_eq_settle crate left _ rooted path

theorem settle_of_end (hend : crate.hop? first = none) (left : Nat) :
    crate.settle left first = crate.ending first := by
  cases first with
  | foreign => rfl
  | unknown => rfl
  | item id =>
      rw [hop?_item] at hend
      rw [ending_item, settle]
      cases hdeclares : crate.declares id with
      | true => rfl
      | false =>
          cases hcloses : crate.closes id with
          | true => rfl
          | false =>
              have hsynonym : crate.synonym? id = none := by
                simpa [hdeclares, hcloses] using hend
              simp [hsynonym]

theorem settle_zero (crate : Crate) (ref : Reference) :
    crate.settle 0 ref = crate.ending ref := by
  cases hhop : crate.hop? ref with
  | none => exact settle_of_end hhop 0
  | some next =>
      obtain ⟨id, synonym, rfl, hdeclares, hcloses, hsynonym, rfl⟩ :=
        exists_synonym_of_hop hhop
      simp [settle, ending, hdeclares, hcloses, hsynonym]

/-- To settle a reference is to make single hops, as many as are allowed. -/
theorem settle_eq_ending_iterate (crate : Crate) (synonyms : Nat)
    (ref : Reference) :
    crate.settle synonyms ref =
      crate.ending (crate.advance^[synonyms] ref) := by
  induction synonyms generalizing ref with
  | zero => exact settle_zero crate ref
  | succ left ih =>
      rw [Function.iterate_succ_apply, ← ih, advance]
      cases hhop : crate.hop? ref with
      | none =>
          rw [settle_of_end hhop, Option.getD_none, settle_of_end hhop]
      | some next => rw [settle_of_hop hhop, Option.getD_some]

/-! ## Chains -/

theorem Leads.settle_eq (hleads : crate.Leads count first last)
    (left : Nat) :
    crate.settle (count + left) first = crate.settle left last := by
  induction hleads with
  | here ref => rw [Nat.zero_add]
  | hop hnext _ ih => rw [Nat.succ_add, settle_of_hop hnext, ih]

theorem Leads.settle_of_end (hleads : crate.Leads count first last)
    (hend : crate.hop? last = none) {limit : Nat} (hcount : count ≤ limit) :
    crate.settle limit first = crate.ending last := by
  obtain ⟨left, rfl⟩ := Nat.exists_eq_add_of_le hcount
  rw [hleads.settle_eq, Crate.settle_of_end hend]

/-- A chain that is longer than the limit is given up at a synonym. -/
theorem Leads.settle_of_long (hleads : crate.Leads (count + 1) first last) :
    crate.settle count first = .unknown := by
  induction count generalizing first with
  | zero =>
      cases hleads with
      | hop hnext _ =>
          obtain ⟨id, synonym, rfl, hdeclares, hcloses, -, -⟩ :=
            exists_synonym_of_hop hnext
          simp [settle_zero, ending, hdeclares, hcloses]
  | succ count ih =>
      cases hleads with
      | hop hnext hrest => rw [settle_of_hop hnext, ih hrest]

/-- A chain either ends within a limit or has one synonym more than the
limit. -/
theorem exists_end_or_long (crate : Crate) (limit : Nat)
    (first : Reference) :
    (∃ count last, count ≤ limit ∧ crate.Leads count first last ∧
      crate.hop? last = none) ∨
      ∃ last, crate.Leads (limit + 1) first last := by
  cases hhop : crate.hop? first with
  | none => exact .inl ⟨0, first, Nat.zero_le limit, .here first, hhop⟩
  | some next =>
      cases limit with
      | zero => exact .inr ⟨next, .hop hhop (.here next)⟩
      | succ limit =>
          rcases exists_end_or_long crate limit next with hends | hlong
          · obtain ⟨count, last, hcount, hleads, hend⟩ := hends
            exact .inl ⟨count + 1, last, Nat.succ_le_succ hcount,
              .hop hhop hleads, hend⟩
          · obtain ⟨last, hleads⟩ := hlong
            exact .inr ⟨last, .hop hhop hleads⟩

theorem Leads.append {more : Nat} {final : Reference}
    (hleads : crate.Leads count first last)
    (hmore : crate.Leads more last final) :
    crate.Leads (count + more) first final := by
  induction hleads with
  | here ref => rwa [Nat.zero_add]
  | hop hnext _ ih =>
      rw [Nat.succ_add]
      exact .hop hnext (ih hmore)

theorem Leads.shorten {more : Nat}
    (hleads : crate.Leads (count + more) first last) :
    ∃ between, crate.Leads count first between := by
  induction count generalizing first with
  | zero => exact ⟨first, .here first⟩
  | succ count ih =>
      rw [Nat.succ_add] at hleads
      cases hleads with
      | hop hnext hrest =>
          obtain ⟨between, hbetween⟩ := ih hrest
          exact ⟨between, .hop hnext hbetween⟩

/-- A loop can be followed any number of times. -/
theorem Leads.rounds {round : Nat} (hloop : crate.Leads round first first)
    (times : Nat) : crate.Leads (times * round) first first := by
  induction times with
  | zero =>
      rw [Nat.zero_mul]
      exact .here first
  | succ times ih =>
      rw [Nat.succ_mul]
      exact ih.append hloop

theorem Leads.settle_of_loop {round : Nat}
    (hleads : crate.Leads count first last)
    (hloop : crate.Leads (round + 1) last last) (limit : Nat) :
    crate.settle limit first = .unknown := by
  have hlong := hleads.append (hloop.rounds (limit + 1))
  have hlength : count + (limit + 1) * (round + 1) =
      limit + 1 + (count + (limit + 1) * round) := by
    rw [Nat.mul_succ]
    omega
  rw [hlength] at hlong
  obtain ⟨between, hbetween⟩ := hlong.shorten
  exact hbetween.settle_of_long

/-! ## Ends -/

theorem ending_eq_declared_iff {ref : Reference} {id : QualifiedName} :
    crate.ending ref = .declared id ↔
      ref = .item id ∧ crate.declares id = true := by
  cases ref with
  | foreign => simp [ending]
  | unknown => simp [ending]
  | item other =>
      rw [ending_item]
      constructor
      · intro hending
        split at hending
        next hdeclares =>
          cases hending
          exact ⟨rfl, hdeclares⟩
        next =>
          split at hending <;> cases hending
      · rintro ⟨hitem, hdeclares⟩
        cases hitem
        exact if_pos hdeclares

theorem ending_eq_foreign_iff {ref : Reference} :
    crate.ending ref = .foreign ↔ crate.IsOutside ref := by
  cases ref with
  | foreign => simp [ending, IsOutside]
  | unknown => simp [ending, IsOutside]
  | item id =>
      rw [ending_item, IsOutside]
      cases crate.declares id <;> cases crate.closes id <;> simp

theorem ending_eq_unknown_iff {ref : Reference}
    (hend : crate.hop? ref = none) :
    crate.ending ref = .unknown ↔ crate.IsNowhere ref := by
  cases ref with
  | foreign => simp [ending, IsNowhere]
  | unknown => simp [ending, IsNowhere]
  | item id =>
      rw [hop?_item] at hend
      rw [ending_item, IsNowhere, knows]
      cases hdeclares : crate.declares id with
      | true => simp
      | false =>
          cases hcloses : crate.closes id with
          | true => simp
          | false =>
              have hsynonym : crate.synonym? id = none := by
                simpa [hdeclares, hcloses] using hend
              simp [hsynonym]

theorem hop?_of_declares {id : QualifiedName}
    (hdeclares : crate.declares id = true) : crate.hop? (.item id) = none := by
  simp [hop?, hdeclares]

theorem IsOutside.hop?_eq {ref : Reference} (houtside : crate.IsOutside ref) :
    crate.hop? ref = none := by
  cases ref with
  | foreign => rfl
  | unknown => rfl
  | item id => simp [hop?, houtside.2]

theorem IsNowhere.hop?_eq {ref : Reference} (hnowhere : crate.IsNowhere ref) :
    crate.hop? ref = none := by
  cases ref with
  | foreign => rfl
  | unknown => rfl
  | item id =>
      have hunknown : crate.knows id = false := hnowhere
      simp only [knows, Bool.or_eq_false_iff, Option.isSome_eq_false_iff,
        Option.isNone_iff_eq_none] at hunknown
      simp [hop?, hunknown.2]

variable {limit : Nat}

theorem settle_eq_declared_iff {id : QualifiedName} :
    crate.settle limit first = .declared id ↔
      ∃ count, count ≤ limit ∧ crate.Leads count first (.item id) ∧
        crate.declares id = true := by
  constructor
  · intro hsettle
    rcases exists_end_or_long crate limit first with hends | hlong
    · obtain ⟨count, last, hcount, hleads, hend⟩ := hends
      rw [hleads.settle_of_end hend hcount] at hsettle
      obtain ⟨rfl, hdeclares⟩ := ending_eq_declared_iff.mp hsettle
      exact ⟨count, hcount, hleads, hdeclares⟩
    · obtain ⟨last, hleads⟩ := hlong
      rw [hleads.settle_of_long] at hsettle
      cases hsettle
  · rintro ⟨count, hcount, hleads, hdeclares⟩
    rw [hleads.settle_of_end (hop?_of_declares hdeclares) hcount]
    exact ending_eq_declared_iff.mpr ⟨rfl, hdeclares⟩

theorem settle_eq_foreign_iff :
    crate.settle limit first = .foreign ↔
      ∃ count last, count ≤ limit ∧ crate.Leads count first last ∧
        crate.IsOutside last := by
  constructor
  · intro hsettle
    rcases exists_end_or_long crate limit first with hends | hlong
    · obtain ⟨count, last, hcount, hleads, hend⟩ := hends
      rw [hleads.settle_of_end hend hcount] at hsettle
      exact ⟨count, last, hcount, hleads, ending_eq_foreign_iff.mp hsettle⟩
    · obtain ⟨last, hleads⟩ := hlong
      rw [hleads.settle_of_long] at hsettle
      cases hsettle
  · rintro ⟨count, last, hcount, hleads, houtside⟩
    rw [hleads.settle_of_end houtside.hop?_eq hcount]
    exact ending_eq_foreign_iff.mpr houtside

theorem settle_eq_unknown_iff :
    crate.settle limit first = .unknown ↔
      (∃ count last, count ≤ limit ∧ crate.Leads count first last ∧
        crate.IsNowhere last) ∨
      ∃ last, crate.Leads (limit + 1) first last := by
  constructor
  · intro hsettle
    rcases exists_end_or_long crate limit first with hends | hlong
    · obtain ⟨count, last, hcount, hleads, hend⟩ := hends
      rw [hleads.settle_of_end hend hcount] at hsettle
      exact .inl ⟨count, last, hcount, hleads,
        (ending_eq_unknown_iff hend).mp hsettle⟩
    · exact .inr hlong
  · rintro (⟨count, last, hcount, hleads, hnowhere⟩ | ⟨last, hleads⟩)
    · rw [hleads.settle_of_end hnowhere.hop?_eq hcount]
      exact (ending_eq_unknown_iff hnowhere.hop?_eq).mpr hnowhere
    · exact hleads.settle_of_long

/-! ## Single look-ups -/

/-- The full path that is looked up for a path: a single name is looked up
only when it is imported and not known. -/
def sought? (crate : Crate) (package : Package) :
    List String → Option (List String)
  | [] => none
  | [name] =>
      if crate.knows ⟨package, name⟩ then none
      else crate.imported? package name
  | path => some (crate.expanded package path)

/-- A full path that is neither anchored nor goes through a module that is
mounted inside the package or at the root. -/
def LeadsOut (crate : Crate) (package : Package) (full : List String) :
    Prop :=
  full = [] ∨
    (anchored? package full.dropLast = none ∧
      crate.hasPackage (package.child (Package.ofSegments full.dropLast)) =
        false ∧
      (full.dropLast = [] ∨
        crate.hasPackage (Package.ofSegments full.dropLast) = false))

theorem absolute?_eq_none_iff {package : Package} {full : List String} :
    crate.absolute? package full = none ↔ crate.LeadsOut package full := by
  unfold absolute? LeadsOut
  cases hlast : full.getLast? with
  | none => simp [List.getLast?_eq_none_iff.mp hlast]
  | some name =>
      have hfull : full ≠ [] := by
        rintro rfl
        cases hlast
      cases hanchored : anchored? package full.dropLast with
      | some found => simp [hanchored, hfull]
      | none =>
          cases hchild : crate.hasPackage
              (package.child (Package.ofSegments full.dropLast)) with
          | true => simp [hanchored, hchild, hfull]
          | false =>
              simp [hanchored, hchild, hfull, or_iff_not_imp_right,
                Bool.not_eq_false]

theorem reference_eq_foreign_iff {package : Package} {rooted : Bool}
    {path : List String} :
    crate.reference package rooted path = .foreign ↔
      rooted = true ∨ ∃ full, crate.sought? package path = some full ∧
        crate.LeadsOut package full := by
  have habsolute : ∀ full, crate.ofAbsolute package full = .foreign ↔
      crate.LeadsOut package full := by
    intro full
    rw [← absolute?_eq_none_iff, ofAbsolute]
    cases crate.absolute? package full <;> simp
  cases rooted with
  | true => simp [reference]
  | false =>
      rcases path with _ | ⟨name, _ | ⟨next, rest⟩⟩
      · simp [reference, sought?]
      · simp only [reference, sought?, Bool.false_eq_true, if_false,
          false_or]
        cases crate.knows ⟨package, name⟩ with
        | true => simp
        | false =>
            cases crate.imported? package name with
            | some full => simp [habsolute]
            | none => cases crate.globbed? package name <;> simp
      · rw [reference_of_long (by simp)]
        simp [sought?, habsolute]

/-- Only a single name can be unknown where it is written: one that is no item
of its package, is not imported, and is brought in by no glob import. -/
theorem reference_eq_unknown_iff {package : Package} {rooted : Bool}
    {path : List String} :
    crate.reference package rooted path = .unknown ↔
      rooted = false ∧ (path = [] ∨ ∃ name, path = [name] ∧
        crate.knows ⟨package, name⟩ = false ∧
          crate.imported? package name = none ∧
          ∀ glob ∈ crate.globsOf package, ∀ id,
            crate.absolute? package (glob ++ [name]) = some id →
              crate.knows id = false) := by
  have habsolute : ∀ full, crate.ofAbsolute package full ≠ .unknown := by
    intro full
    rw [ofAbsolute]
    cases crate.absolute? package full <;> simp
  cases rooted with
  | true => simp [reference]
  | false =>
      rcases path with _ | ⟨name, _ | ⟨next, rest⟩⟩
      · simp [reference]
      · simp only [reference, Bool.false_eq_true, if_false]
        cases hknows : crate.knows ⟨package, name⟩ with
        | true => simp [hknows]
        | false =>
            cases himported : crate.imported? package name with
            | some full => simp [habsolute, himported]
            | none =>
                have hglobbed : crate.globbed? package name = none ↔
                    ∀ glob ∈ crate.globsOf package, ∀ id,
                      crate.absolute? package (glob ++ [name]) = some id →
                        crate.knows id = false := by
                  simp [globbed?, Option.filter_eq_none_iff]
                cases hglob : crate.globbed? package name with
                | none => simpa [hknows, himported] using hglobbed.mp hglob
                | some id =>
                    rw [hglob] at hglobbed
                    simpa [hknows, himported] using hglobbed
      · rw [reference_of_long (by simp)]
        simp [habsolute]

end Crate

/-! ## Fields typed by synonyms -/

section

variable {target : Target} {text other : String}

theorem Target.fieldType_eq_declared_iff {id : QualifiedName} :
    target.fieldType text = .declared id ↔ target = .declared id := by
  cases target <;> simp [Target.fieldType]

theorem Target.fieldType_eq_builtin_iff :
    target.fieldType text = .builtin other ↔
      other = text ∧ target = .foreign := by
  cases target <;> simp [Target.fieldType, eq_comm]

theorem Target.fieldType_eq_unresolved_iff :
    target.fieldType text = .unresolved other ↔
      other = text ∧ target = .unknown := by
  cases target <;> simp [Target.fieldType, eq_comm]

end

variable {config : Config} {crate : Crate}

/-- A field whose type is settled by the chain of synonyms that starts at a
reference. -/
structure FollowsSynonyms (config : Config) (written : WrittenField crate)
    (first : Reference) : Prop where
  /-- The chain is followed by single hops. -/
  hops : written.type? config =
    some ((crate.ending (crate.advance^[synonymLimit] first)).fieldType
      written.field.type.render)
  /-- The field has the type of a record just when the chain ends there. -/
  declared_iff : ∀ id, written.type? config = some (.declared id) ↔
    ∃ count, count ≤ synonymLimit ∧ crate.Leads count first (.item id) ∧
      crate.declares id = true
  /-- The field is builtin just when the chain ends outside. -/
  builtin_iff : ∀ text, written.type? config = some (.builtin text) ↔
    text = written.field.type.render ∧
      ∃ count last, count ≤ synonymLimit ∧ crate.Leads count first last ∧
        crate.IsOutside last
  /-- The field is unresolved just when the chain ends nowhere or is too
  long. -/
  unresolved_iff : ∀ text, written.type? config = some (.unresolved text) ↔
    text = written.field.type.render ∧
      ((∃ count last, count ≤ synonymLimit ∧ crate.Leads count first last ∧
        crate.IsNowhere last) ∨
        ∃ last, crate.Leads (synonymLimit + 1) first last)
  /-- The field is unresolved when the chain loops. -/
  unresolved_of_loop : ∀ count round last, crate.Leads count first last →
    crate.Leads (round + 1) last last →
    written.type? config = some (.unresolved written.field.type.render)

/-- A field that is typed by a path follows the synonyms that start there to
their end.  A single look-up takes a path for one of another crate, or for an
unknown name, for no other reasons than those listed. -/
theorem synonyms_followed_to_their_end (config : Config)
    (written : WrittenField crate) {rooted : Bool} {path : List String}
    (hshape : Shape.ofType written.params written.field.type =
      .path rooted path) :
    FollowsSynonyms config written
        (crate.reference written.package rooted path) ∧
      ∀ package rooted path,
        (crate.reference package rooted path = .foreign ↔
          rooted = true ∨ ∃ full, crate.sought? package path = some full ∧
            crate.LeadsOut package full) ∧
        (crate.reference package rooted path = .unknown ↔
          rooted = false ∧ (path = [] ∨ ∃ name, path = [name] ∧
            crate.knows ⟨package, name⟩ = false ∧
              crate.imported? package name = none ∧
              ∀ glob ∈ crate.globsOf package, ∀ id,
                crate.absolute? package (glob ++ [name]) = some id →
                  crate.knows id = false)) := by
  refine ⟨?_, fun package rooted path =>
    ⟨Crate.reference_eq_foreign_iff, Crate.reference_eq_unknown_iff⟩⟩
  have htype : written.type? config =
      some ((crate.settle synonymLimit
        (crate.reference written.package rooted path)).fieldType
          written.field.type.render) := by
    rw [written.type?_eq, fieldType_of_shape hshape]
  constructor
  · rw [htype, Crate.settle_eq_ending_iterate]
  · intro id
    rw [htype, Option.some_inj, Target.fieldType_eq_declared_iff,
      Crate.settle_eq_declared_iff]
  · intro text
    rw [htype, Option.some_inj, Target.fieldType_eq_builtin_iff,
      Crate.settle_eq_foreign_iff]
  · intro text
    rw [htype, Option.some_inj, Target.fieldType_eq_unresolved_iff,
      Crate.settle_eq_unknown_iff]
  · intro count round last hleads hloop
    rw [htype, hleads.settle_of_loop hloop]
    rfl

namespace SampleSources

/-- A field of the account. -/
def accountField (index : Nat)
    (hindex : index < account.fields.toList.length) :
    WrittenField accountCrate :=
  .ofRecord ⟨"models", "src/models.rs", .record account⟩
    List.mem_cons_self rfl index hindex

/-- The field that is typed by the topmost of the given number of
synonyms. -/
def ladderField (rungs : Nat) : WrittenField (ladder rungs) :=
  .ofRecord ⟨"", "src/lib.rs", .record (climber rungs)⟩
    List.mem_cons_self rfl 0 Nat.zero_lt_one

end SampleSources

open SampleSources in
/-- The wallet is followed through two packages, the spin around its loop.
The ladder is climbed down from sixteen rungs and no more. -/
theorem account_follows_synonyms :
    let wallet := accountField 0 (by decide)
    let spin := accountField 4 (by decide)
    Shape.ofType wallet.params wallet.field.type = .path false ["Wallet"] ∧
      wallet.type? {} = some (.declared ⟨"models::vault", "Inner"⟩) ∧
      (accountField 1 (by decide)).type? {} = some (.builtin "Stamp") ∧
      (accountField 2 (by decide)).type? {} = some (.builtin "Amount") ∧
      (accountField 3 (by decide)).type? {} = some (.unresolved "Mystery") ∧
      Shape.ofType spin.params spin.field.type = .path false ["Loop"] ∧
      spin.type? {} = some (.unresolved "Loop") ∧
      (ladderField 16).type? {} = some (.declared ⟨"", "Rung0"⟩) ∧
      (ladderField 17).type? {} = some (.unresolved "Rung17") := by
  have hwallet : Shape.ofType (accountField 0 (by decide)).params
      (accountField 0 (by decide)).field.type = .path false ["Wallet"] := by
    decide +kernel
  have hspin : Shape.ofType (accountField 4 (by decide)).params
      (accountField 4 (by decide)).field.type = .path false ["Loop"] := by
    decide +kernel
  have hcard : accountCrate.hop? (.item ⟨"models", "Wallet"⟩) =
      some (.item ⟨"models::vault", "Card"⟩) := by
    decide +kernel
  have hinner : accountCrate.hop? (.item ⟨"models::vault", "Card"⟩) =
      some (.item ⟨"models::vault", "Inner"⟩) := by
    decide +kernel
  have hagain : accountCrate.hop? (.item ⟨"models", "Loop"⟩) =
      some (.item ⟨"models", "Again"⟩) := by
    decide +kernel
  have hloop : accountCrate.hop? (.item ⟨"models", "Again"⟩) =
      some (.item ⟨"models", "Loop"⟩) := by
    decide +kernel
  have hfollowed := (synonyms_followed_to_their_end {}
    (accountField 0 (by decide)) hwallet).1
  have hspun := (synonyms_followed_to_their_end {}
    (accountField 4 (by decide)) hspin).1
  exact ⟨hwallet,
    (hfollowed.declared_iff _).mpr
      ⟨2, by decide, .hop hcard (.hop hinner (.here _)), by decide +kernel⟩,
    by decide +kernel, by decide +kernel, by decide +kernel, hspin,
    hspun.unresolved_of_loop 0 1 _ (.here _)
      (.hop hagain (.hop hloop (.here _))),
    by decide +kernel, by decide +kernel⟩

end RecordMasking.Source
