import RecordMasking.Proofs.Bookkeeping

/-!
# Canonical paths

The canonical path of a place names it from the root, or from the directory
the tree hangs in, and passes nothing but names.  It leads back to the place,
and joining a name to it is going one step down.  Without links every path
that leads somewhere has the canonical path of its place, whatever becomes of
the files.
-/

namespace RecordMasking

/-! ## Clean places -/

/-- A name that an entry of a tree can have. -/
structure IsEntryName (name : String) : Prop where
  isIdle_eq : OutputPath.isIdle name = false
  ne_up : name ≠ ".."
  slash_not_mem : '/' ∉ name.toList

theorem IsEntryName.ne_slash {name : String} (hname : IsEntryName name) :
    name ≠ "/" := by
  rintro rfl
  exact hname.slash_not_mem (by decide)

theorem IsEntryName.ne_empty {name : String} (hname : IsEntryName name) :
    name ≠ "" := by
  rintro rfl
  simpa [OutputPath.isIdle] using hname.isIdle_eq

namespace Place

/-- Nothing but names of entries behind one of the starting places. -/
def IsClean (place : Place) : Prop :=
  ∃ start names, IsStart start ∧ (∀ name ∈ names, IsEntryName name) ∧
    place = start ++ names

variable {place : Place} {name : String} {names : List String}

theorem IsStart.isClean (hplace : place.IsStart) : place.IsClean :=
  ⟨place, [], hplace, by simp, by simp⟩

theorem IsClean.append (hplace : place.IsClean)
    (hnames : ∀ name ∈ names, IsEntryName name) :
    IsClean (place ++ names) := by
  obtain ⟨start, front, hstart, hfront, rfl⟩ := hplace
  refine ⟨start, front ++ names, hstart, ?_, by simp⟩
  exact List.forall_mem_append.mpr ⟨hfront, hnames⟩

theorem IsClean.above (hplace : place.IsClean) : IsClean place.above := by
  obtain ⟨start, names, hstart, hnames, rfl⟩ := hplace
  rcases List.eq_nil_or_concat names with rfl | ⟨front, last, rfl⟩
  · rw [List.append_nil]
    rcases hstart with rfl | rfl
    · exact IsStart.isClean (.inl rfl)
    · exact IsStart.isClean (.inr rfl)
  · rw [List.concat_eq_append] at hnames ⊢
    obtain ⟨hfront, hlast⟩ := List.forall_mem_append.mp hnames
    have hbelow : ¬ IsStart (start ++ front ++ [last]) :=
      not_isStart_append (List.forall_mem_singleton.mp hlast).ne_slash
    rw [← List.append_assoc, above_append hbelow]
    exact ⟨start, front, hstart, hfront, rfl⟩

theorem isClean_follow (hplace : place.IsClean)
    (hnames : ∀ name ∈ names, OutputPath.isIdle name = false ∧
      '/' ∉ name.toList) : IsClean (place.follow names) := by
  induction names generalizing place with
  | nil => exact hplace
  | cons name rest ih =>
      obtain ⟨⟨hidle, hslash⟩, hrest⟩ := List.forall_mem_cons.mp hnames
      rw [follow_cons]
      by_cases hup : name = ".."
      · rw [hup, step_up]
        exact ih hplace.above hrest
      · rw [step_of_ne place hup]
        refine ih (hplace.append ?_) hrest
        exact List.forall_mem_singleton.mpr ⟨hidle, hup, hslash⟩

/-! ## Their paths -/

theorem toPath_of_names (hnames : ∀ name ∈ names, IsEntryName name) :
    toPath names = names := by
  unfold toPath
  split
  next => exact absurd rfl (hnames "/" List.mem_cons_self).ne_slash
  next => exact absurd rfl (hnames "/" List.mem_cons_self).ne_slash
  next => rfl

theorem toPath_of_root (names : List String) :
    toPath (root ++ names) = if names = [] then ["", ""] else "" :: names := by
  cases names with
  | nil => rfl
  | cons name rest => rfl

theorem toPath_ne_nil (hplace : place ≠ []) : place.toPath ≠ [] := by
  unfold toPath
  split
  next => exact List.cons_ne_nil _ _
  next => exact List.cons_ne_nil _ _
  next => exact hplace

end Place

namespace OutputPath

variable {names : List String}

theorem names_of_entryNames (hnames : ∀ name ∈ names, IsEntryName name) :
    OutputPath.names names = names :=
  List.filter_eq_self.mpr fun name hname => by
    simp [(hnames name hname).isIdle_eq]

theorem empty_not_mem_of_entryNames
    (hnames : ∀ name ∈ names, IsEntryName name) : "" ∉ names :=
  fun hempty => (hnames "" hempty).ne_empty rfl

theorem up_not_mem_of_entryNames
    (hnames : ∀ name ∈ names, IsEntryName name) : ".." ∉ names :=
  fun hup => (hnames ".." hup).ne_up rfl

/-- Names behind a path lead down from its place. -/
theorem place_append (lead : OutputPath)
    (hnames : ∀ name ∈ names, IsEntryName name) :
    place (lead ++ names) = lead.place ++ names := by
  unfold place OutputTree.startOf
  rw [isRooted_append lead (empty_not_mem_of_entryNames hnames), names_append,
    names_of_entryNames hnames, Place.follow_append,
    Place.follow_eq_append _ (up_not_mem_of_entryNames hnames)]

theorem place_of_names (hnames : ∀ name ∈ names, IsEntryName name) :
    place names = names :=
  place_append [] hnames

theorem place_of_rooted_names (hnames : ∀ name ∈ names, IsEntryName name) :
    place ("" :: names) = Place.root ++ names :=
  place_append [""] hnames

theorem isClean_place {path : OutputPath}
    (hpath : ∀ stretch ∈ path, '/' ∉ stretch.toList) :
    Place.IsClean path.place := by
  refine Place.isClean_follow (Place.IsStart.isClean ?_) fun name hname => ?_
  · unfold OutputTree.startOf
    split
    · exact .inr rfl
    · exact .inl rfl
  · obtain ⟨hmem, hidle⟩ := List.mem_filter.mp hname
    exact ⟨by simpa using hidle, hpath name hmem⟩

end OutputPath

namespace Place.IsClean

variable {place : Place} {name : String}

theorem place_toPath (hplace : place.IsClean) :
    OutputPath.place place.toPath = place := by
  obtain ⟨start, names, rfl | rfl, hnames, rfl⟩ := hplace
  · rw [toPath_of_names hnames]
    exact OutputPath.place_of_names hnames
  · rw [toPath_of_root]
    split
    next hnil =>
      rw [hnil]
      rfl
    next => exact OutputPath.place_of_rooted_names hnames

theorem toPath_inj {other : Place} (hplace : place.IsClean)
    (hother : other.IsClean) (hsame : place.toPath = other.toPath) :
    place = other := by
  rw [← hplace.place_toPath, hsame, hother.place_toPath]

theorem slash_not_mem_toPath (hplace : place.IsClean) :
    ∀ stretch ∈ place.toPath, '/' ∉ stretch.toList := by
  obtain ⟨start, names, rfl | rfl, hnames, rfl⟩ := hplace
  · rw [toPath_of_names hnames]
    exact fun name hname => (hnames name hname).slash_not_mem
  · rw [toPath_of_root]
    split
    next => decide
    next =>
      refine List.forall_mem_cons.mpr ⟨by decide, ?_⟩
      exact fun name hname => (hnames name hname).slash_not_mem

/-- A name is joined to the path of a directory as it is to the place. -/
theorem join_toPath (hplace : place.IsClean) (hname : IsEntryName name) :
    OutputPath.join place.toPath [name] = toPath (place ++ [name]) := by
  have hrooted : OutputPath.isRooted [name] = false := by
    simpa [OutputPath.isRooted_cons] using hname.ne_empty
  rw [OutputPath.join_eq_stem_append _ (List.cons_ne_nil _ _) hrooted]
  obtain ⟨start, names, rfl | rfl, hnames, rfl⟩ := hplace
  · have hall := List.forall_mem_append.mpr
      ⟨hnames, List.forall_mem_singleton.mpr hname⟩
    rw [toPath_of_names hnames, toPath_of_names hall,
      OutputPath.stem_eq_self (OutputPath.empty_not_mem_of_entryNames hnames)]
  · rw [toPath_of_root, List.append_assoc, toPath_of_root,
      if_neg (List.concat_ne_nil _ _)]
    split
    next hnil =>
      rw [hnil]
      rfl
    next hne =>
      have hlast : ("" :: names).getLast? ≠ some "" := by
        intro hempty
        rw [List.getLast?_cons_of_ne_nil hne] at hempty
        exact OutputPath.empty_not_mem_of_entryNames hnames
          (List.mem_of_getLast? hempty)
      unfold OutputPath.stem
      rw [if_neg (by simpa using hlast)]
      rfl

end Place.IsClean

/-! ## Trees without links -/

namespace OutputTree

variable {tree made after : OutputTree} {path : OutputPath}

/-- A walk that arrives has followed its names. -/
theorem walk_present (hlinks : tree.LinkFree) {through : Bool} {links : Nat}
    {place goal : Place} {names : List String}
    (hwalk : tree.walk through links place names = .present goal) :
    goal = place.follow names := by
  induction names generalizing place with
  | nil =>
      rw [walk] at hwalk
      exact (Arrival.present.inj hwalk).symm
  | cons name rest ih =>
      by_cases hname : name = ".."
      · subst hname
        rw [walk_up] at hwalk
        exact ih hwalk
      · rw [walk_name hlinks _ _ _ hname] at hwalk
        rw [Place.follow_cons, Place.step_of_ne place hname]
        split at hwalk
        next => cases hwalk
        next =>
          split at hwalk
          next => split at hwalk <;> cases hwalk
          next => exact ih hwalk
          next =>
            split at hwalk
            next hlast =>
              rw [List.isEmpty_iff.mp hlast]
              exact (Arrival.present.inj hwalk).symm
            next => cases hwalk

theorem canonical_of_leadsSomewhere (hlinks : tree.LinkFree)
    (hpath : path ≠ []) (hleads : tree.leadsSomewhere path = true) :
    tree.canonical path = .ok path.place.toPath := by
  obtain ⟨hfits, goal, hwalk⟩ := leadsSomewhere_iff.mp hleads
  unfold canonical arrival
  rw [if_neg (by simpa using hpath), hfits, if_neg Bool.false_ne_true, hwalk,
    walk_present hlinks hwalk]
  rfl

theorem canonical_eq_ok (hlinks : tree.LinkFree) {below : OutputPath}
    (hcanonical : tree.canonical path = .ok below) :
    path ≠ [] ∧ below = path.place.toPath := by
  unfold canonical arrival at hcanonical
  split at hcanonical
  next => cases hcanonical
  next hpath =>
    refine ⟨by simpa using hpath, ?_⟩
    split at hcanonical
    next goal harrival =>
      split at harrival
      next => cases harrival
      next =>
        rw [← Except.ok.inj hcanonical, walk_present hlinks harrival]
        rfl
    next => cases hcanonical
    next => cases hcanonical

/-- A path leads somewhere when the directories along it are there and the
last name is taken. -/
theorem Way.leadsSomewhere {names : List String} {last : String}
    {directory : Place}
    (hway : tree.Way (startOf path) names (.ok directory))
    (hlinks : tree.LinkFree) (hnames : path.names = names ++ [last])
    (hfits : isTooLong path = false) (hlast : last ≠ "..")
    (hshort : ¬ nameLimit < last.utf8ByteSize)
    (htaken : tree.entry? (directory ++ [last]) ≠ none) :
    tree.leadsSomewhere path = true := by
  refine leadsSomewhere_iff.mpr ⟨hfits, ?_⟩
  simp only [hnames, hway.walk_append hlinks]
  exact (exists_walk_last_iff hlinks _ _ _ hlast).mpr ⟨hshort, htaken⟩

/-- The directories along a path are there. -/
structure Reaches (tree : OutputTree) (path : OutputPath) : Prop where
  hasNul_eq : hasNul path = false
  isTooLong_eq : isTooLong path = false
  way : tree.Way (startOf path) path.names (.ok path.place)

theorem reaches_of_makeDirectories (htree : tree.IsDirectoryTree)
    {place : Place} (hmake : tree.makeDirectories path = (made, .ok place)) :
    made.IsDirectoryTree ∧ place = path.place ∧ made.Reaches path ∧
      made.entry? path.place = some .directory := by
  obtain ⟨hnul, hfits⟩ := path_of_makeDirectories hmake
  obtain ⟨hmade, hway, hgoal⟩ := htree.way_of_makeDirectories hnul hfits hmake
  obtain rfl := (makeDirectories_spec htree.linkFree hmake).2.2 place rfl
  exact ⟨hmade, rfl, ⟨hnul, hfits, hway⟩, hgoal _ rfl⟩

namespace Reaches

theorem keeps {touched : Place → Prop} (hreaches : tree.Reaches path)
    (hkeeps : Keeps touched tree after) : after.Reaches path where
  hasNul_eq := hreaches.hasNul_eq
  isTooLong_eq := hreaches.isTooLong_eq
  way := hreaches.way.keeps hkeeps

theorem makeDirectories_eq (hreaches : tree.Reaches path)
    (hlinks : tree.LinkFree) :
    tree.makeDirectories path = (tree, .ok path.place) :=
  hreaches.way.makeDirectories_eq hlinks hreaches.hasNul_eq
    hreaches.isTooLong_eq

theorem leadsSomewhere (hreaches : tree.Reaches path)
    (hlinks : tree.LinkFree) : tree.leadsSomewhere path = true := by
  refine leadsSomewhere_iff.mpr ⟨hreaches.isTooLong_eq, path.place, ?_⟩
  have hwalk := hreaches.way.walk_append hlinks true linkLimit []
  rw [List.append_nil, walk] at hwalk
  exact hwalk

end Reaches

end OutputTree

end RecordMasking
