import Mathlib.Data.List.Induction
import RecordMasking.Generator
import RecordMasking.Proofs.FirstOfEach
import RecordMasking.Proofs.Registry
import RecordMasking.Samples

/-!
# Names that are declared again

A name keeps the place at which it was first declared and has the content that
was declared for it last.  The index of a registry finds just what a search of
the list finds, so the schema of a registry is the one that searches the list,
and whatever is asked of the two has one answer.
-/

namespace RecordMasking

/-- The last of the declarations of its name. -/
def Declaration.IsLatestIn (declaration : Declaration)
    (declared : List Declaration) : Prop :=
  ∃ before after, declared = before ++ declaration :: after ∧
    ∀ other ∈ after, other.id ≠ declaration.id

theorem Declaration.isLatestIn_concat (declaration : Declaration)
    (declared : List Declaration) :
    declaration.IsLatestIn (declared ++ [declaration]) :=
  ⟨declared, [], rfl, by simp⟩

theorem Declaration.IsLatestIn.concat {declaration next : Declaration}
    {declared : List Declaration} (hlatest : declaration.IsLatestIn declared)
    (hnext : next.id ≠ declaration.id) :
    declaration.IsLatestIn (declared ++ [next]) := by
  obtain ⟨before, after, rfl, hothers⟩ := hlatest
  refine ⟨before, after ++ [next], by simp, ?_⟩
  intro other hother
  rcases List.mem_append.mp hother with hold | hnew
  · exact hothers other hold
  · obtain rfl := List.mem_singleton.mp hnew
    exact hnext

namespace Registry

variable {registry : Registry} {declared : List Declaration}

/-! ## One more declaration -/

theorem declarations_declare_of_taken {declaration : Declaration}
    {place : Nat} (htaken : registry.place? declaration.id = some place) :
    (registry.declare declaration).declarations =
      registry.declarations.set place declaration := by
  unfold declare
  split
  next other hother =>
    obtain rfl : place = other := Option.some.inj (htaken.symm.trans hother)
    rfl
  next hfree => simp [htaken] at hfree

theorem mem_declarations_declare {declaration listed : Declaration}
    (hlisted : listed ∈ (registry.declare declaration).declarations) :
    listed ∈ registry.declarations ∨ listed = declaration := by
  cases hplace : registry.place? declaration.id with
  | none =>
      rw [declarations_declare_of_free hplace] at hlisted
      simpa using hlisted
  | some place =>
      rw [declarations_declare_of_taken hplace] at hlisted
      exact List.mem_or_eq_of_mem_set hlisted

theorem self_mem_declarations_declare (registry : Registry)
    (declaration : Declaration) :
    declaration ∈ (registry.declare declaration).declarations := by
  cases hplace : registry.place? declaration.id with
  | none =>
      rw [declarations_declare_of_free hplace]
      exact List.mem_append_right _ (List.mem_singleton_self _)
  | some place =>
      obtain ⟨old, hold, _⟩ :=
        registry.places_sound _ _ (place?_mem hplace)
      rw [declarations_declare_of_taken hplace]
      exact List.mem_set (List.getElem?_eq_some_iff.mp hold).1 _

theorem names_declare_of_taken {declaration : Declaration} {place : Nat}
    (htaken : registry.place? declaration.id = some place) :
    (registry.declare declaration).declarations.map Declaration.id =
      registry.declarations.map Declaration.id := by
  obtain ⟨old, hold, hid⟩ := registry.places_sound _ _ (place?_mem htaken)
  obtain ⟨hlt, rfl⟩ := List.getElem?_eq_some_iff.mp hold
  have hplace : place < (registry.declarations.map Declaration.id).length := by
    simpa using hlt
  rw [declarations_declare_of_taken htaken, List.map_set, ← hid,
    ← List.getElem_map Declaration.id (h := hplace)]
  exact List.set_getElem_self hplace

/-! ## Histories of declarations -/

/-- Every name stands where it was first declared, with what was declared for
it last. -/
structure Lists (registry : Registry) (declared : List Declaration) :
    Prop where
  names : registry.declarations.map Declaration.id =
    (firstOfEach Declaration.id declared).map Declaration.id
  latest : ∀ listed ∈ registry.declarations, listed.IsLatestIn declared

theorem Lists.mem_names_iff (hlists : registry.Lists declared)
    {id : QualifiedName} :
    id ∈ registry.declarations.map Declaration.id ↔
      id ∈ declared.map Declaration.id := by
  rw [hlists.names, mem_keys_firstOfEach]

theorem Lists.declare (hlists : registry.Lists declared)
    (hindexed : registry.Indexed) (declaration : Declaration) :
    (registry.declare declaration).Lists (declared ++ [declaration]) where
  names := by
    cases hplace : registry.place? declaration.id with
    | none =>
        have hfresh : declaration.id ∉ declared.map Declaration.id := by
          rw [← hlists.mem_names_iff]
          intro hname
          obtain ⟨old, hold, hid⟩ := List.mem_map.mp hname
          obtain ⟨place, hplaceOld⟩ := List.mem_iff_getElem?.mp hold
          have htaken := hindexed place old hplaceOld
          rw [hid, hplace] at htaken
          cases htaken
        rw [declarations_declare_of_free hplace,
          firstOfEach_concat_of_not_mem hfresh, List.map_append,
          List.map_append, hlists.names]
    | some place =>
        have hknown : declaration.id ∈ declared.map Declaration.id := by
          rw [← hlists.mem_names_iff]
          obtain ⟨old, hold, hid⟩ := mem_of_place? hplace
          exact List.mem_map.mpr ⟨old, hold, hid⟩
        rw [names_declare_of_taken hplace, firstOfEach_concat_of_mem hknown,
          hlists.names]
  latest := by
    intro listed hlisted
    have hdistinct := (hindexed.declare declaration).nodup_names
    by_cases hid : listed.id = declaration.id
    · obtain rfl : listed = declaration :=
        List.inj_on_of_nodup_map hdistinct hlisted
          (registry.self_mem_declarations_declare declaration) hid
      exact listed.isLatestIn_concat declared
    · rcases mem_declarations_declare hlisted with hold | rfl
      · exact (hlists.latest listed hold).concat (Ne.symm hid)
      · exact absurd rfl hid

theorem ofList_concat (declared : List Declaration)
    (declaration : Declaration) :
    ofList (declared ++ [declaration]) =
      (ofList declared).declare declaration := by
  unfold ofList
  rw [List.foldl_append]
  rfl

theorem lists_ofList (declared : List Declaration) :
    (ofList declared).Lists declared := by
  induction declared using List.reverseRecOn with
  | nil => exact ⟨rfl, by simp [ofList, empty]⟩
  | append_singleton earlier declaration ih =>
      rw [ofList_concat]
      exact ih.declare (indexed_ofList earlier) declaration

/-! ## The list and its index -/

theorem Indexed.lookup_eq_find? (hindexed : registry.Indexed) :
    registry.lookup = fun id =>
      registry.declarations.find? fun declaration => declaration.id == id := by
  funext id
  cases hfind : registry.declarations.find? fun declaration =>
      declaration.id == id with
  | some found =>
      refine hindexed.lookup_eq_some_iff.mpr
        ⟨List.mem_of_find?_eq_some hfind, ?_⟩
      simpa using List.find?_some hfind
  | none =>
      rw [Option.eq_none_iff_forall_ne_some]
      intro found hfound
      obtain ⟨hlisted, hid⟩ := hindexed.lookup_eq_some_iff.mp hfound
      simpa [hid] using List.find?_eq_none.mp hfind found hlisted

/-- With its index in order, a registry makes the schema that searches its
list. -/
theorem Indexed.toSchema_eq_ofList (hindexed : registry.Indexed)
    (marker : String) (resolved : Bool) :
    registry.toSchema marker resolved =
      Schema.ofList registry.declarations marker resolved := by
  unfold toSchema Schema.ofList
  simp only [hindexed.lookup_eq_find?]

end Registry

/-- Two schemas with the same answers to all that is asked of a schema. -/
structure Schema.AnswersAlike (one other : Schema) : Prop where
  declarations : other.declarations = one.declarations
  marker : other.marker = one.marker
  markerResolved : other.markerResolved = one.markerResolved
  lookup : ∀ id, other.lookup id = one.lookup id
  fields : ∀ id, other.fields id = one.fields id
  isModel : ∀ id, other.isModel id = one.isModel id
  resolveOnPath : ∀ type onPath,
    other.resolveOnPath type onPath = one.resolveOnPath type onPath
  decide : ∀ type paths, other.decide type paths = one.decide type paths
  synthesize : ∀ config declaration paths,
    other.synthesize config declaration paths =
      one.synthesize config declaration paths
  run : ∀ config emission tree,
    other.run config emission tree = one.run config emission tree

theorem Schema.AnswersAlike.refl (schema : Schema) :
    schema.AnswersAlike schema := by
  constructor
  all_goals intros
  all_goals rfl

namespace Registry

/-- An indexed registry is a plain list.  After any history of declarations
no name is listed twice, the names stand in the order in which they were first
declared, each with what was declared for it last, a look-up finds what is
listed and nothing else, and the schema that holds nothing but the list gives
every answer that the registry's schema gives. -/
theorem listed_as_declared (declared : List Declaration) (marker : String)
    (resolved : Bool) :
    let registry := ofList declared
    let schema := registry.toSchema marker resolved
    (registry.declarations.map Declaration.id).Nodup ∧
      registry.declarations.map Declaration.id =
        (firstOfEach Declaration.id declared).map Declaration.id ∧
      (∀ listed ∈ registry.declarations, listed.IsLatestIn declared) ∧
      (∀ id listed, schema.lookup id = some listed ↔
        listed ∈ registry.declarations ∧ listed.id = id) ∧
      schema.AnswersAlike
        (Schema.ofList registry.declarations marker resolved) := by
  intro registry schema
  have hindexed := indexed_ofList declared
  obtain ⟨hnames, hlatest⟩ := lists_ofList declared
  refine ⟨hindexed.nodup_names, hnames, hlatest,
    fun _ _ => hindexed.lookup_eq_some_iff, ?_⟩
  have hsame : schema = Schema.ofList registry.declarations marker resolved :=
    hindexed.toSchema_eq_ofList marker resolved
  rw [← hsame]
  exact .refl schema

open Samples in
/-- An invoice that is declared again stays in front of its customer. -/
example :
    let again := { invoice with fields := [secret "card" text] }
    (ofList [invoice, recordOf "Inner" [], again]).declarations =
      [again, recordOf "Inner" []] := by
  decide

end Registry

end RecordMasking
