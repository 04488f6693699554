import Mathlib.Data.List.Nodup
import RecordMasking.Schema

/-!
# Registries

A registry keeps an index beside its list.  After any history of declarations
the index gives the place of every listed name, so no name is listed twice and
a look-up finds exactly what is listed.  Declarations with different names are
listed in the order in which they were declared.
-/

namespace RecordMasking

namespace Registry

/-- The index leads from every listed name to the place of its declaration. -/
def Indexed (registry : Registry) : Prop :=
  ∀ place declaration, registry.declarations[place]? = some declaration →
    registry.place? declaration.id = some place

variable {registry : Registry}

theorem indexed_empty : empty.Indexed := by
  intro place declaration hlisted
  simp [empty] at hlisted

theorem mem_of_place? {id : QualifiedName} {place : Nat}
    (hplace : registry.place? id = some place) :
    ∃ declaration ∈ registry.declarations, declaration.id = id := by
  obtain ⟨declaration, hlisted, hid⟩ :=
    registry.places_sound id place (place?_mem hplace)
  exact ⟨declaration, List.mem_of_getElem? hlisted, hid⟩

theorem Indexed.declare (hindexed : registry.Indexed)
    (declaration : Declaration) :
    (registry.declare declaration).Indexed := by
  intro place found hfound
  unfold Registry.declare at hfound ⊢
  split at hfound
  next taken htaken =>
    -- The index stays as it is, and so does every other place.
    by_cases hplace : taken = place
    · subst hplace
      have hsame : declaration = found := by
        rw [List.getElem?_set_self'] at hfound
        exact (by simpa using hfound :
          (∃ old, registry.declarations[taken]? = some old) ∧
            declaration = found).2
      rw [← hsame]
      exact htaken
    · rw [List.getElem?_set_ne hplace] at hfound
      exact hindexed place found hfound
  next hfree =>
    unfold place? at hfree ⊢
    rw [Option.map_eq_none_iff] at hfree
    simp only [List.find?_append]
    by_cases hold : place < registry.declarations.length
    · rw [List.getElem?_append_left hold] at hfound
      obtain ⟨entry, hentry, hplace⟩ :=
        Option.map_eq_some_iff.mp (hindexed place found hfound)
      rw [hentry, Option.some_or, Option.map_some, hplace]
    · obtain ⟨rfl, hlast⟩ : place = registry.declarations.length ∧
          declaration = found := by
        rw [List.getElem?_append_right (by omega)] at hfound
        simp only [List.getElem?_singleton] at hfound
        split at hfound
        next hzero => exact ⟨by omega, by simpa using hfound⟩
        next => simp at hfound
      subst hlast
      simp [hfree]

theorem indexed_ofList (declarations : List Declaration) :
    (ofList declarations).Indexed := by
  have hall : ∀ registry : Registry, registry.Indexed →
      (declarations.foldl declare registry).Indexed := by
    induction declarations with
    | nil => exact fun _ hindexed => hindexed
    | cons first rest ih =>
        exact fun registry hindexed => ih _ (hindexed.declare first)
  exact hall empty indexed_empty

theorem Indexed.lookup_eq_some_iff (hindexed : registry.Indexed)
    {id : QualifiedName} {declaration : Declaration} :
    registry.lookup id = some declaration ↔
      declaration ∈ registry.declarations ∧ declaration.id = id := by
  constructor
  · exact (registry.toSchema "" true).lookup_sound
  · rintro ⟨hlisted, rfl⟩
    obtain ⟨place, hplace⟩ := List.mem_iff_getElem?.mp hlisted
    unfold lookup
    rw [hindexed place declaration hplace]
    exact hplace

theorem Indexed.nodup_names (hindexed : registry.Indexed) :
    (registry.declarations.map Declaration.id).Nodup := by
  rw [List.nodup_iff_getElem?_ne_getElem?]
  intro place other hlt hbound hsame
  rw [List.length_map] at hbound
  have hearlier : place < registry.declarations.length := by omega
  rw [List.getElem?_map, List.getElem?_map,
    List.getElem?_eq_getElem hearlier, List.getElem?_eq_getElem hbound] at hsame
  have hid : registry.declarations[place].id =
      registry.declarations[other].id := by simpa using hsame
  have hplace := hindexed place _ (List.getElem?_eq_getElem hearlier)
  have hother := hindexed other _ (List.getElem?_eq_getElem hbound)
  rw [hid, hother] at hplace
  have hequal : other = place := by simpa using hplace
  omega

theorem declarations_declare_of_free {declaration : Declaration}
    (hfree : registry.place? declaration.id = none) :
    (registry.declare declaration).declarations =
      registry.declarations ++ [declaration] := by
  unfold declare
  split
  next htaken => simp [hfree] at htaken
  next => rfl

/-- Declarations with different names are listed as they were declared. -/
theorem declarations_ofList {declarations : List Declaration}
    (hdistinct : (declarations.map Declaration.id).Nodup) :
    (ofList declarations).declarations = declarations := by
  have hall : ∀ registry : Registry,
      ((registry.declarations ++ declarations).map Declaration.id).Nodup →
      (declarations.foldl declare registry).declarations =
        registry.declarations ++ declarations := by
    clear hdistinct
    induction declarations with
    | nil => intro registry _; simp
    | cons first rest ih =>
        intro registry hnames
        have hfree : registry.place? first.id = none := by
          by_contra htaken
          obtain ⟨place, hplace⟩ := Option.ne_none_iff_exists'.mp htaken
          obtain ⟨old, hold, hid⟩ := mem_of_place? hplace
          rw [List.map_append, List.map_cons] at hnames
          exact (List.nodup_append.mp hnames).2.2 _
            (List.mem_map_of_mem hold) _ List.mem_cons_self hid
        have hdeclared := declarations_declare_of_free hfree
        rw [List.foldl_cons, ih _ (by rw [hdeclared]; simpa using hnames),
          hdeclared]
        simp
  exact hall empty hdistinct

end Registry

end RecordMasking
