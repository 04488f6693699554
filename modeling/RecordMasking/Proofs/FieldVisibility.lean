import RecordMasking.Proofs.OwnNames
import RecordMasking.Proofs.ProperName

/-!
# From where a field can be named

The visibility of a field is recorded as a package, and whether the field can
be named from another package is tested on the texts of the two.  The texts of
packages that are made of names show their segments: one begins with the other
one and a separator just when its segments begin with those of the other one.
So the test decides whether a package lies within the module that the
visibility names, and no package is taken for one whose name it begins with.
-/

namespace RecordMasking

open Code

/-! ## Packages within packages -/

namespace Package

theorem segments_cons {first : String}
    (hfirst : isWritableName first = true) (behind : String) :
    segments (first ++ "::" ++ behind) = first :: segments behind := by
  have hcolon : ':' ∉ first.toList :=
    not_mem_of_isWritableName hfirst (by decide) (by decide)
  have hfilled : (!first.toList.isEmpty) = true := by
    simpa using (chars_of_isWritableName hfirst).1
  have hseparator : "::".toList = [':', ':'] := rfl
  unfold segments
  rw [pieces_eq_splitAtPair, pieces_eq_splitAtPair, String.toList_append,
    String.toList_append, hseparator, List.append_assoc, List.cons_append,
    List.singleton_append, splitAtPair_append hcolon,
    List.filter_cons, if_pos hfilled, List.map_cons, String.ofList_toList]

/-- The segments of a package stand in front of those of its modules. -/
theorem segments_append {first : String} {rest : List String}
    (hnames : ∀ name ∈ first :: rest, isWritableName name = true)
    (behind : String) :
    segments (ofSegments (first :: rest) ++ "::" ++ behind) =
      first :: rest ++ segments behind := by
  induction rest generalizing first with
  | nil =>
      obtain ⟨hfirst, _⟩ := List.forall_mem_cons.mp hnames
      unfold ofSegments
      rw [String.intercalate_singleton]
      exact segments_cons hfirst behind
  | cons second others ih =>
      obtain ⟨hfirst, hrest⟩ := List.forall_mem_cons.mp hnames
      have hsegments := ih hrest
      unfold ofSegments at hsegments ⊢
      rw [String.intercalate_cons_cons, String.append_assoc,
        String.append_assoc, String.append_assoc, ← String.append_assoc,
        segments_cons hfirst, ← String.append_assoc, hsegments]
      rfl

theorem ofSegments_ne_empty {first : String} {rest : List String}
    (hnames : ∀ name ∈ first :: rest, isWritableName name = true) :
    (ofSegments (first :: rest)).isEmpty = false := by
  cases hempty : (ofSegments (first :: rest)).isEmpty with
  | false => rfl
  | true =>
      have hroot : ofSegments (first :: rest) = "" := by simpa using hempty
      have hsegments := segments_ofSegments hnames
      rw [hroot] at hsegments
      simp [segments, pieces] at hsegments

/-- One package holds another one just when its segments come first. -/
theorem holds_ofSegments {scope away : List String}
    (hscope : ∀ name ∈ scope, isWritableName name = true)
    (haway : ∀ name ∈ away, isWritableName name = true) :
    holds (ofSegments scope) (ofSegments away) = true ↔ scope <+: away := by
  cases scope with
  | nil =>
      have hroot : holds (ofSegments []) (ofSegments away) = true := rfl
      exact iff_of_true hroot List.nil_prefix
  | cons first rest =>
      unfold holds
      rw [ofSegments_ne_empty hscope, Bool.false_or, Bool.or_eq_true,
        beq_iff_eq, List.isPrefixOf_iff_prefix]
      constructor
      · -- Either text splits into its segments, so they can be compared.
        rintro (hsame | ⟨behind, hbehind⟩)
        · have hsegments := congrArg segments hsame
          rw [segments_ofSegments haway, segments_ofSegments hscope]
            at hsegments
          exact ⟨[], by rw [List.append_nil, hsegments]⟩
        · have htext : ofSegments away =
              ofSegments (first :: rest) ++ "::" ++ String.ofList behind := by
            apply String.toList_inj.mp
            rw [← hbehind]
            simp
          have hsegments := congrArg segments htext
          rw [segments_ofSegments haway, segments_append hscope] at hsegments
          exact ⟨_, hsegments.symm⟩
      · rintro ⟨inner, rfl⟩
        cases inner with
        | nil => exact .inl (congrArg ofSegments (List.append_nil _))
        | cons next others =>
            refine .inr ⟨(ofSegments (next :: others)).toList, ?_⟩
            unfold ofSegments
            rw [String.intercalate_append_of_ne_nil (List.cons_ne_nil _ _)
              (List.cons_ne_nil _ _)]
            simp only [String.toList_append]
            rfl

end Package

/-! ## The module that a visibility names -/

namespace Source

/-- Segments that code can name a module with, none of which anchors a path. -/
def IsModulePath (names : List String) : Prop :=
  ∀ name ∈ names, isWritableName name = true ∧ name ∉ anchors

instance (names : List String) : Decidable (IsModulePath names) :=
  inferInstanceAs
    (Decidable (∀ name ∈ names, isWritableName name = true ∧ name ∉ anchors))

/-- The module that a visibility names for a field that is declared in the
module `home`.  Each `super` leads one module up, and above the root is the
root. -/
inductive NamesModule (home : List String) :
    Visibility → List String → Prop
  | everywhere : NamesModule home .everywhere []
  | inherited : NamesModule home .inherited home
  | fromRoot {names : List String} (hnames : IsModulePath names) :
      NamesModule home (.restricted ("crate" :: names)) names
  | upwards {lead names : List String} (hsome : lead ≠ [])
      (hlead : ∀ segment ∈ lead, segment = "self" ∨ segment = "super")
      (hnames : IsModulePath names) :
      NamesModule home (.restricted (lead ++ names))
        (home.take (home.length - lead.count "super") ++ names)

theorem climb_names {names : List String} (hnames : IsModulePath names)
    (home : List String) : climb home names = (home, names) := by
  cases names with
  | nil => rfl
  | cons first rest =>
      obtain ⟨⟨_, hfirst⟩, _⟩ := List.forall_mem_cons.mp hnames
      simp only [anchors, List.mem_cons, List.not_mem_nil, or_false,
        not_or] at hfirst
      rw [climb, if_neg hfirst.2.1, if_neg hfirst.2.2]

theorem climb_append {lead names : List String}
    (hlead : ∀ segment ∈ lead, segment = "self" ∨ segment = "super")
    (hnames : IsModulePath names) (home : List String) :
    climb home (lead ++ names) =
      (home.take (home.length - lead.count "super"), names) := by
  induction lead generalizing home with
  | nil =>
      rw [List.nil_append, climb_names hnames, List.count_nil, Nat.sub_zero,
        List.take_length]
  | cons segment rest ih =>
      obtain ⟨hsegment, hrest⟩ := List.forall_mem_cons.mp hlead
      rw [List.cons_append, climb]
      rcases hsegment with rfl | rfl
      · have hcount : ("self" :: rest).count "super" = rest.count "super" :=
          List.count_cons_of_ne (by decide)
        rw [if_pos rfl, ih hrest, hcount]
      · have hup : home.dropLast.take
            (home.dropLast.length - rest.count "super") =
            home.take (home.length - ("super" :: rest).count "super") := by
          rw [List.count_cons_self, List.dropLast_eq_take, List.take_take,
            List.length_take]
          congr 1
          omega
        rw [if_neg (by decide), if_pos rfl, ih hrest, hup]

theorem anchored?_upwards {lead names : List String} (hsome : lead ≠ [])
    (hlead : ∀ segment ∈ lead, segment = "self" ∨ segment = "super")
    (hnames : IsModulePath names) (current : Package) :
    anchored? current (lead ++ names) =
      some (Package.ofSegments ((Package.segments current).take
        ((Package.segments current).length - lead.count "super") ++
          names)) := by
  have hclimb := climb_append hlead hnames (Package.segments current)
  cases lead with
  | nil => exact absurd rfl hsome
  | cons segment rest =>
      have hsegment := hlead segment List.mem_cons_self
      have hroot : segment ≠ "crate" := by
        rcases hsegment with rfl | rfl <;> decide
      have hanchor : (segment = "self" || segment = "super") = true := by
        simpa using hsegment
      rw [List.cons_append] at hclimb ⊢
      rw [anchored?, if_neg hroot, if_pos hanchor, hclimb]

/-- The package that is recorded is the module that the visibility names. -/
theorem visibleIn_eq {home module : List String} {visibility : Visibility}
    (hhome : ∀ name ∈ home, isWritableName name = true)
    (hmodule : NamesModule home visibility module) :
    visibleIn (Package.ofSegments home) visibility =
      Package.ofSegments module := by
  cases hmodule with
  | everywhere => rfl
  | inherited => rfl
  | fromRoot hnames => rfl
  | upwards hsome hlead hnames =>
      rw [visibleIn, anchored?_upwards hsome hlead hnames,
        Package.segments_ofSegments hhome]
      rfl

theorem NamesModule.isWritableName {home module : List String}
    {visibility : Visibility}
    (hhome : ∀ name ∈ home, isWritableName name = true)
    (hmodule : NamesModule home visibility module) :
    ∀ name ∈ module, isWritableName name = true := by
  cases hmodule with
  | everywhere => exact List.forall_mem_nil _
  | inherited => exact hhome
  | fromRoot hnames => exact fun name hname => (hnames name hname).1
  | upwards _ _ hnames =>
      rw [List.forall_mem_append]
      constructor
      · exact fun name hname => hhome name (List.mem_of_mem_take hname)
      · exact fun name hname => (hnames name hname).1

/-- A field can be named from a package just when the package is the module
that the visibility of the field names, or lies within it. -/
theorem field_visible_iff_within {config : Config} {crate : Crate}
    {placed : Placed} {params : List String} {index : Nat} {item : FieldItem}
    {home away module : List String}
    (hhome : ∀ name ∈ home, isWritableName name = true)
    (haway : ∀ name ∈ away, isWritableName name = true)
    (hplaced : placed.package = Package.ofSegments home)
    (hmodule : NamesModule home item.visibility module) :
    (fieldOf config crate placed params index item).visibleFrom
        (Package.ofSegments away) = true ↔
      module <+: away := by
  have hrecorded : (fieldOf config crate placed params index item).visibleIn =
      Package.ofSegments module := by
    unfold fieldOf
    rw [hplaced]
    exact visibleIn_eq hhome hmodule
  unfold Field.visibleFrom
  rw [hrecorded]
  exact Package.holds_ofSegments (hmodule.isWritableName hhome) haway

open SampleSources in
/-- The holder of a card that is declared in the module `models::vault`. -/
def holderField (visibility : Visibility) : Field :=
  fieldOf {} cardCrate
    ⟨"models::vault", "src/models.rs", recordAt 2 "Card" []⟩ [] 0
    { fieldAt 3 "holder" ["String"] [] with visibility := visibility }

/-- The modules beside the vault can name a holder that is visible above it,
and a module that is only spelled alike cannot. -/
theorem holder_visible_within_models :
    (holderField (.restricted ["super"])).visibleFrom "models::billing" =
        true ∧
      (holderField (.restricted ["super"])).visibleFrom "models_archive" =
        false := by
  have hhome : ∀ name ∈ ["models", "vault"], isWritableName name = true := by
    decide
  have hmodule : NamesModule ["models", "vault"] (.restricted ["super"])
      ["models"] :=
    @NamesModule.upwards _ ["super"] [] (by decide) (by decide) (by decide)
  have hbeside : ∀ name ∈ ["models", "billing"],
      isWritableName name = true := by
    decide
  have halike : ∀ name ∈ ["models_archive"], isWritableName name = true := by
    decide
  constructor
  · exact (field_visible_iff_within hhome hbeside rfl hmodule).mpr (by decide)
  · rw [Bool.eq_false_iff]
    intro hvisible
    have hwithin : ["models"] <+: ["models_archive"] :=
      (field_visible_iff_within hhome halike rfl hmodule).mp hvisible
    exact absurd hwithin (by decide)

end Source

end RecordMasking
