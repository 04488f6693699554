import RecordMasking.Proofs.Rerooting
import RecordMasking.Proofs.Synthesis

/-!
# How a table accounts for the paths it was made from

Through the records that a table rebuilds, a path of fields leads to an entry.
The entries that end such a path, a cleared field or one that is handed over,
are the leaves of the table.  Every masked path runs into exactly one leaf,
and no leaf, rebuilt record or override is there without a masked path.

The resolution and the table are two recursions over the schema which share
nothing but the list of paths.  `Schema.Resolved.locate` joins them: what the
list says behind an entry is the resolution of the record that the entry is
in.
-/

namespace RecordMasking

open Code

/-- The entry that a path leads to through rebuilt records. -/
inductive EntryAt :
    List (FieldName × Decision) → FieldPath → Decision → Prop
  | here {entries : List (FieldName × Decision)} {name : FieldName}
      {decision : Decision} (hentry : (name, decision) ∈ entries) :
      EntryAt entries [name] decision
  | inside {entries inner : List (FieldName × Decision)} {name : FieldName}
      {type : QualifiedName} {path : FieldPath} {decision : Decision}
      (hentry : (name, .rebuild type inner) ∈ entries)
      (hinner : EntryAt inner path decision) :
      EntryAt entries (name :: path) decision

def Decision.isLeaf : Decision → Bool
  | .clear => true
  | .delegate _ => true
  | .rebuild _ _ => false
  | .keep => false

def LeafAt (entries : List (FieldName × Decision)) (path : FieldPath) : Prop :=
  ∃ decision, decision.isLeaf = true ∧ EntryAt entries path decision

theorem EntryAt.path_ne_nil {entries : List (FieldName × Decision)}
    {path : FieldPath} {decision : Decision}
    (hat : EntryAt entries path decision) : path ≠ [] := by
  cases hat <;> simp

/-- The leaves of a table and the masked paths it was made from account for
each other. -/
structure Accounts (entries : List (FieldName × Decision))
    (paths : List FieldPath) : Prop where
  covered : ∀ path ∈ paths, ∃! leaf, LeafAt entries leaf ∧ leaf <+: path
  handed_proper : ∀ path ∈ paths, ∀ leaf model,
    EntryAt entries leaf (.delegate model) → leaf ≠ path
  cleared_masked : ∀ leaf, EntryAt entries leaf .clear → leaf ∈ paths
  handed_masked : ∀ leaf model, EntryAt entries leaf (.delegate model) →
    ∃ path ∈ paths, leaf <+: path ∧ leaf ≠ path
  rebuilt_masked : ∀ place type inner,
    EntryAt entries place (.rebuild type inner) → ∃ leaf, LeafAt inner leaf
  kept_plain : ∀ place, EntryAt entries place .keep →
    ∀ path ∈ paths, ¬ place <+: path

/-- The fields that are masked themselves or hold something masked. -/
def touchedNames (fields : List Field) (paths : List FieldPath) :
    List FieldName :=
  (fields.map Field.name).filter fun name =>
    paths.any fun path => path.head? == some name

namespace Schema

variable {schema : Schema}

/-- Entries that were decided by the paths of their type, resolved with the
types of `onPath` on the way. -/
def Resolved (schema : Schema) (root type : QualifiedName)
    (onPath : List QualifiedName) (entries : List (FieldName × Decision)) :
    Prop :=
  schema.EntriesFit root (schema.resolveOnPath type onPath).paths
    (schema.fields type) entries

theorem Decides.resolved_inner (hdistinct : schema.DistinctNames)
    {root owner nested : QualifiedName} {onPath : List QualifiedName}
    {field : Field} {inner : List (FieldName × Decision)}
    (hfield : field ∈ schema.fields owner)
    (hdecides : schema.Decides root (schema.resolveOnPath owner onPath).paths
      field (.rebuild nested inner)) :
    (schema.resolveOnPath owner onPath).paths.below field.name =
        (schema.resolveOnPath nested (nested :: onPath)).paths ∧
      schema.Resolved root nested (nested :: onPath) inner := by
  cases hdecides with
  | rebuild _ htype hbelow _ _ htable =>
      obtain ⟨next, hnext, hoff, hdeclared⟩ :=
        exists_descent_of_below hdistinct hfield hbelow
      obtain rfl : nested = next := by simpa [htype] using hnext
      have hpaths := below_paths hdistinct hfield htype hoff hdeclared
      rw [hpaths] at htable
      exact ⟨hpaths, entriesFit_of_decideFrom htable⟩

namespace Resolved

variable {root type : QualifiedName} {onPath : List QualifiedName}
  {entries : List (FieldName × Decision)}

theorem eq_of_mem (hdistinct : schema.DistinctNames)
    (hresolved : schema.Resolved root type onPath entries)
    {name : FieldName} {decision other : Decision}
    (hdecision : (name, decision) ∈ entries)
    (hother : (name, other) ∈ entries) : decision = other := by
  have hnames : (entries.map Prod.fst).Nodup := by
    rw [EntriesFit.map_fst hresolved]
    exact hdistinct.nodup_names type
  have hpair := List.inj_on_of_nodup_map hnames hdecision hother rfl
  exact (Prod.mk.inj hpair).2

/-- The record that holds an entry, with the masked paths that run to the
entry or below it. -/
theorem locate (hdistinct : schema.DistinctNames)
    (hresolved : schema.Resolved root type onPath entries)
    {place : FieldPath} {decision : Decision}
    (hat : EntryAt entries place decision) :
    ∃ before owner way, ∃ field ∈ schema.fields owner,
      place = before ++ [field.name] ∧
        schema.Decides root (schema.resolveOnPath owner way).paths field
          decision ∧
        ∀ rest, rest ≠ [] →
          (before ++ rest ∈ (schema.resolveOnPath type onPath).paths.toList ↔
            rest ∈ (schema.resolveOnPath owner way).paths.toList) := by
  induction hat generalizing type onPath with
  | here hentry =>
      obtain ⟨field, hfield, rfl, hdecides⟩ :=
        EntriesFit.exists_field hresolved hentry
      exact ⟨[], type, onPath, field, hfield, rfl, hdecides,
        fun rest _ => Iff.rfl⟩
  | inside hentry hinner ih =>
      obtain ⟨outer, houter, rfl, hrebuilds⟩ :=
        EntriesFit.exists_field hresolved hentry
      obtain ⟨hpaths, hnested⟩ := hrebuilds.resolved_inner hdistinct houter
      obtain ⟨before, owner, way, field, hfield, rfl, hdecides, hsame⟩ :=
        ih hnested
      refine ⟨outer.name :: before, owner, way, field, hfield, rfl, hdecides,
        fun rest hrest => ?_⟩
      have hlong : before ++ rest ≠ [] := by simp [hrest]
      rw [← hsame rest hrest, ← hpaths, PathSet.mem_below]
      simp [hlong]

/-! ## Leaves and paths -/

theorem exists_leaf (hdistinct : schema.DistinctNames)
    (hresolved : schema.Resolved root type onPath entries)
    {path : FieldPath}
    (hpath : path ∈ (schema.resolveOnPath type onPath).paths.toList) :
    ∃ leaf, LeafAt entries leaf ∧ leaf <+: path := by
  induction path generalizing type onPath entries with
  | nil =>
      obtain ⟨_, _, _, heq⟩ := exists_field_of_mem_paths hpath
      simp at heq
  | cons name rest ih =>
      obtain ⟨field, hfield, _, heq⟩ := exists_field_of_mem_paths hpath
      obtain rfl : name = field.name := (List.cons.inj heq).1
      obtain ⟨decision, _, hentry, hdecides⟩ :=
        EntriesFit.exists_lookup hresolved (hdistinct.nodup_names type) hfield
      have hfirst : [field.name] <+: field.name :: rest := ⟨rest, rfl⟩
      have hbelow : field.sensitive = false →
          rest ∈ ((schema.resolveOnPath type onPath).paths.below
            field.name).toList := by
        intro hplain
        refine PathSet.mem_below.mpr ⟨?_, hpath⟩
        rintro rfl
        have hsensitive := (singleton_mem_paths_iff hdistinct hfield).mp hpath
        simp [hplain] at hsensitive
      cases decision with
      | clear => exact ⟨_, ⟨.clear, rfl, .here hentry⟩, hfirst⟩
      | delegate model =>
          exact ⟨_, ⟨.delegate model, rfl, .here hentry⟩, hfirst⟩
      | rebuild nested inner =>
          obtain ⟨hpaths, hnested⟩ := hdecides.resolved_inner hdistinct hfield
          cases hdecides with
          | rebuild hplain _ _ _ _ _ =>
              have hrest := hbelow hplain
              rw [hpaths] at hrest
              obtain ⟨leaf, ⟨decision, hleaf, hat⟩, hbegins⟩ :=
                ih hnested hrest
              exact ⟨field.name :: leaf, ⟨decision, hleaf, .inside hentry hat⟩,
                List.cons_prefix_cons.mpr ⟨rfl, hbegins⟩⟩
      | keep =>
          cases hdecides with
          | keep hplain hempty =>
              have hsome := PathSet.isEmpty_eq_false_iff.mpr
                ⟨rest, hbelow hplain⟩
              obtain ⟨next, htype, _, _⟩ :=
                exists_descent_of_below hdistinct hfield hsome
              simp [hempty next htype] at hsome

/-- Nothing lies behind a leaf. -/
theorem leaf_maximal (hdistinct : schema.DistinctNames)
    (hresolved : schema.Resolved root type onPath entries)
    {leaf place : FieldPath} {decision other : Decision}
    (hat : EntryAt entries leaf decision) (hleaf : decision.isLeaf = true)
    (hother : EntryAt entries place other) (hbegins : leaf <+: place) :
    leaf = place := by
  induction hat generalizing type onPath place with
  | @here entries name decision hentry =>
      cases hother with
      | here hentry' =>
          obtain ⟨rfl, _⟩ := List.cons_prefix_cons.mp hbegins
          rfl
      | inside hentry' _ =>
          obtain ⟨rfl, _⟩ := List.cons_prefix_cons.mp hbegins
          obtain rfl := eq_of_mem hdistinct hresolved hentry hentry'
          simp [Decision.isLeaf] at hleaf
  | @inside entries inner name nested path decision hentry hinner ih =>
      cases hother with
      | here hentry' =>
          obtain ⟨_, hnil⟩ := List.cons_prefix_cons.mp hbegins
          exact absurd (List.prefix_nil.mp hnil) hinner.path_ne_nil
      | inside hentry' hinner' =>
          obtain ⟨rfl, hrest⟩ := List.cons_prefix_cons.mp hbegins
          obtain ⟨rfl, rfl⟩ := Decision.rebuild.inj
            (eq_of_mem hdistinct hresolved hentry hentry')
          obtain ⟨field, hfield, rfl, hdecides⟩ :=
            EntriesFit.exists_field hresolved hentry
          obtain ⟨_, hnested⟩ := hdecides.resolved_inner hdistinct hfield
          rw [ih hnested hleaf hinner' hrest]

theorem handed_masked (hdistinct : schema.DistinctNames)
    (hresolved : schema.Resolved root type onPath entries)
    {leaf : FieldPath} {model : QualifiedName}
    (hat : EntryAt entries leaf (.delegate model)) :
    ∃ path ∈ (schema.resolveOnPath type onPath).paths.toList,
      leaf <+: path ∧ leaf ≠ path := by
  obtain ⟨before, owner, way, field, hfield, rfl, hdecides, hsame⟩ :=
    hresolved.locate hdistinct hat
  cases hdecides with
  | delegate _ _ hbelow _ =>
      obtain ⟨rest, hrest⟩ := PathSet.isEmpty_eq_false_iff.mp hbelow
      obtain ⟨hne, hpath⟩ := PathSet.mem_below.mp hrest
      refine ⟨before ++ field.name :: rest,
        (hsame _ (by simp)).mpr hpath, ⟨rest, by simp⟩, ?_⟩
      simpa using Ne.symm hne

theorem kept_plain (hdistinct : schema.DistinctNames)
    (hresolved : schema.Resolved root type onPath entries)
    {place path : FieldPath} (hat : EntryAt entries place .keep)
    (hpath : path ∈ (schema.resolveOnPath type onPath).paths.toList) :
    ¬ place <+: path := by
  obtain ⟨before, owner, way, field, hfield, rfl, hdecides, hsame⟩ :=
    hresolved.locate hdistinct hat
  rintro ⟨rest, rfl⟩
  rw [List.append_assoc, List.singleton_append,
    hsame _ (List.cons_ne_nil _ _)] at hpath
  cases hdecides with
  | keep hplain hempty =>
      by_cases hrest : rest = []
      · subst hrest
        have hsensitive := (singleton_mem_paths_iff hdistinct hfield).mp hpath
        simp [hplain] at hsensitive
      · have hsome := PathSet.isEmpty_eq_false_iff.mpr
          ⟨rest, PathSet.mem_below.mpr ⟨hrest, hpath⟩⟩
        obtain ⟨next, htype, _, _⟩ :=
          exists_descent_of_below hdistinct hfield hsome
        simp [hempty next htype] at hsome

theorem cleared_masked (hdistinct : schema.DistinctNames)
    (hresolved : schema.Resolved root type onPath entries)
    {leaf : FieldPath} (hat : EntryAt entries leaf .clear) :
    leaf ∈ (schema.resolveOnPath type onPath).paths.toList := by
  obtain ⟨before, owner, way, field, hfield, rfl, hdecides, hsame⟩ :=
    hresolved.locate hdistinct hat
  cases hdecides with
  | clear hsensitive =>
      exact (hsame _ (by simp)).mpr
        ((singleton_mem_paths_iff hdistinct hfield).mpr hsensitive)

theorem rebuilt_masked (hdistinct : schema.DistinctNames)
    (hresolved : schema.Resolved root type onPath entries)
    {place : FieldPath} {nested : QualifiedName}
    {inner : List (FieldName × Decision)}
    (hat : EntryAt entries place (.rebuild nested inner)) :
    ∃ leaf, LeafAt inner leaf := by
  obtain ⟨_, owner, way, field, hfield, rfl, hdecides, _⟩ :=
    hresolved.locate hdistinct hat
  obtain ⟨hpaths, hnested⟩ := hdecides.resolved_inner hdistinct hfield
  cases hdecides with
  | rebuild _ _ hbelow _ _ _ =>
      obtain ⟨rest, hrest⟩ := PathSet.isEmpty_eq_false_iff.mp hbelow
      rw [hpaths] at hrest
      obtain ⟨leaf, hleaf, _⟩ := hnested.exists_leaf hdistinct hrest
      exact ⟨leaf, hleaf⟩

theorem handed_proper (hdistinct : schema.DistinctNames)
    (hresolved : schema.Resolved root type onPath entries)
    {leaf : FieldPath} {model : QualifiedName}
    (hat : EntryAt entries leaf (.delegate model)) :
    leaf ∉ (schema.resolveOnPath type onPath).paths.toList := by
  intro hpath
  obtain ⟨before, owner, way, field, hfield, rfl, hdecides, hsame⟩ :=
    hresolved.locate hdistinct hat
  have hsensitive := (singleton_mem_paths_iff hdistinct hfield).mp
    ((hsame _ (by simp)).mp hpath)
  cases hdecides with
  | delegate hplain _ _ _ => simp [hplain] at hsensitive

theorem accounts (hdistinct : schema.DistinctNames)
    (hresolved : schema.Resolved root type onPath entries) :
    Accounts entries (schema.resolveOnPath type onPath).paths.toList where
  covered path hpath := by
    obtain ⟨leaf, hleaf, hbegins⟩ := hresolved.exists_leaf hdistinct hpath
    refine ⟨leaf, ⟨hleaf, hbegins⟩, ?_⟩
    rintro other ⟨⟨_, hother, hotherAt⟩, hotherPrefix⟩
    obtain ⟨_, hdecision, hat⟩ := hleaf
    rcases List.prefix_or_prefix_of_prefix hbegins hotherPrefix with
      hshort | hlong
    · exact (hresolved.leaf_maximal hdistinct hat hdecision hotherAt
        hshort).symm
    · exact hresolved.leaf_maximal hdistinct hotherAt hother hat hlong
  handed_proper path hpath leaf model hat := by
    rintro rfl
    exact hresolved.handed_proper hdistinct hat hpath
  cleared_masked _ hat := hresolved.cleared_masked hdistinct hat
  handed_masked _ _ hat := hresolved.handed_masked hdistinct hat
  rebuilt_masked _ _ _ hat := hresolved.rebuilt_masked hdistinct hat
  kept_plain _ hat _ hpath := hresolved.kept_plain hdistinct hat hpath

/-! ## Direct fields -/

theorem isKeep_eq_false_iff (hdistinct : schema.DistinctNames)
    (hresolved : schema.Resolved root type onPath entries)
    {name : FieldName} {decision : Decision}
    (hentry : (name, decision) ∈ entries) :
    decision.isKeep = false ↔
      ∃ path ∈ (schema.resolveOnPath type onPath).paths.toList,
        path.head? = some name := by
  obtain ⟨field, hfield, rfl, hdecides⟩ :=
    EntriesFit.exists_field hresolved hentry
  have hthrough : ((schema.resolveOnPath type onPath).paths.below
        field.name).isEmpty = false →
      ∃ path ∈ (schema.resolveOnPath type onPath).paths.toList,
        path.head? = some field.name := by
    intro hbelow
    obtain ⟨rest, hrest⟩ := PathSet.isEmpty_eq_false_iff.mp hbelow
    exact ⟨_, (PathSet.mem_below.mp hrest).2, rfl⟩
  cases hdecides with
  | clear hsensitive =>
      refine iff_of_true rfl ⟨[field.name], ?_, rfl⟩
      exact (singleton_mem_paths_iff hdistinct hfield).mpr hsensitive
  | delegate _ _ hbelow _ => exact iff_of_true rfl (hthrough hbelow)
  | rebuild _ _ hbelow _ _ _ => exact iff_of_true rfl (hthrough hbelow)
  | keep _ _ =>
      refine iff_of_false (by simp [Decision.isKeep]) ?_
      rintro ⟨path, hpath, hhead⟩
      refine hresolved.kept_plain hdistinct (.here hentry) hpath ?_
      obtain ⟨rest, rfl⟩ := List.head?_eq_some_iff.mp hhead
      exact ⟨rest, rfl⟩

theorem map_fst_filter (hdistinct : schema.DistinctNames)
    (hresolved : schema.Resolved root type onPath entries) :
    (entries.filter fun entry => !entry.2.isKeep).map Prod.fst =
      touchedNames (schema.fields type)
        (schema.resolveOnPath type onPath).paths.toList := by
  unfold touchedNames
  rw [← EntriesFit.map_fst hresolved, List.filter_map]
  congr 1
  refine List.filter_congr fun entry hentry => ?_
  rw [Bool.eq_iff_iff, Bool.not_eq_true', Function.comp_apply,
    hresolved.isKeep_eq_false_iff hdistinct hentry]
  simp

end Resolved

theorem synthesize_header {config : Config} {declaration : Declaration}
    {paths : PathSet} {synthesis : Synthesis}
    (hsynthesis : schema.synthesize config declaration paths =
      .ok synthesis) :
    schema.decide declaration.id paths = .ok synthesis.table ∧
      ∃ code, synthesis.artifact.text =
        artifactHeader declaration.id paths ++ code := by
  obtain ⟨htable, htext, _⟩ := synthesize_eq_ok hsynthesis
  obtain ⟨_, _, _, _, _, _, _, _, heq⟩ := renderMask_eq_ok htext
  exact ⟨htable, _, heq.trans String.append_assoc⟩

/-- A table that is found for the masked paths of a type accounts for each of
them once.  Every path runs into one leaf, behind which it goes on if the leaf
is handed over; all leaves, rebuilt records and overrides are there for some
path, and nothing kept is.  The paths printed with the code, the table and the
number of overrides agree on the fields that are touched. -/
theorem decide_accounts (schema : Schema) (hdistinct : schema.DistinctNames)
    {type : QualifiedName} {table : MaskTable}
    (htable : schema.decide type (schema.resolve type).paths = .ok table) :
    Accounts table.entries (schema.resolve type).paths.toList ∧
      (table.entries.filter fun entry => !entry.2.isKeep).map Prod.fst =
        touchedNames (schema.fields type)
          (schema.resolve type).paths.toList ∧
      table.overrides =
        (touchedNames (schema.fields type)
          (schema.resolve type).paths.toList).length ∧
      ∀ config declaration synthesis, declaration.id = type →
        schema.synthesize config declaration (schema.resolve type).paths =
          .ok synthesis →
        synthesis.table = table ∧
          ∃ code, synthesis.artifact.text =
            artifactHeader type (schema.resolve type).paths ++ code := by
  have hresolved : schema.Resolved type type [type] table.entries :=
    entriesFit_of_decideFrom htable
  have haccounts := hresolved.accounts hdistinct
  have htouched := hresolved.map_fst_filter hdistinct
  rw [← resolve] at haccounts htouched
  refine ⟨haccounts, htouched, ?_, ?_⟩
  · rw [← htouched, List.length_map]
    rfl
  · intro config declaration synthesis hid hsynthesis
    obtain ⟨hdecided, hheader⟩ := synthesize_header hsynthesis
    rw [hid] at hdecided hheader
    exact ⟨Except.ok.inj (hdecided.symm.trans htable), hheader⟩

open Samples in
theorem invoice_decide_accounts :
    Samples.schema.DistinctNames ∧
      ∃ table,
        Samples.schema.decide invoice.id
            (Samples.schema.resolve invoice.id).paths = .ok table ∧
          Accounts table.entries
            [[.named "card"], [.named "customer", .named "value"]] ∧
          table.overrides = 2 := by
  have hdistinct : Samples.schema.DistinctNames := by decide
  have hpaths : (Samples.schema.resolve invoice.id).paths.toList =
      [[.named "card"], [.named "customer", .named "value"]] := by
    decide +kernel
  have hfound : (Samples.schema.decide invoice.id
      (Samples.schema.resolve invoice.id).paths).toOption.isSome := by
    decide +kernel
  cases htable : Samples.schema.decide invoice.id
      (Samples.schema.resolve invoice.id).paths with
  | error fault => simp [htable, Except.toOption] at hfound
  | ok table =>
      obtain ⟨haccounts, _, hoverrides, _⟩ :=
        decide_accounts Samples.schema hdistinct htable
      rw [hpaths] at haccounts hoverrides
      exact ⟨hdistinct, table, rfl, haccounts,
        hoverrides.trans (by decide +kernel)⟩

end Schema

end RecordMasking
