import RecordMasking.Proofs.Repetition

/-!
# Writing beside what others have written

A tree in which others have written besides is one that has grown.  As long as
it has gained nothing but directories on the way of a path and nothing at its
file, writing to the path has the same result there, and the tree that comes
of it is the grown tree joined with what the writing alone would have left.
-/

namespace RecordMasking

namespace OutputTree

variable {tree other made : OutputTree}

/-! ## Trees that are joined -/

/-- What is in one of two trees is in the whole, and nothing else is. -/
def Joins (left right whole : OutputTree) : Prop :=
  ∀ place entry, whole.entry? place = some entry ↔
    left.entry? place = some entry ∨ right.entry? place = some entry

theorem Joins.of_grows (hgrows : tree.Grows other) :
    Joins other tree other := by
  intro place entry
  constructor
  · exact Or.inl
  · rintro (hother | htree)
    · exact hother
    · exact hgrows place entry htree

theorem Joins.occupied {whole : OutputTree} (hjoins : Joins tree other whole)
    {place : Place} : whole.entry? place = none ↔
      tree.entry? place = none ∧ other.entry? place = none := by
  simp only [Option.eq_none_iff_forall_ne_some, ne_eq, hjoins place]
  constructor
  · intro hnone
    exact ⟨fun entry htree => hnone entry (.inl htree),
      fun entry hother => hnone entry (.inr hother)⟩
  · rintro ⟨htree, hother⟩ entry (hentry | hentry)
    · exact htree entry hentry
    · exact hother entry hentry

theorem Joins.set {whole : OutputTree} (hjoins : Joins other made whole)
    {place : Place} (hvacant : whole.entry? place = none) (entry : Entry) :
    Joins other (made.set place entry) (whole.set place entry) := by
  have hstart := not_isStart_of_vacant hvacant
  obtain ⟨hother, hmade⟩ := hjoins.occupied.mp hvacant
  intro found now
  by_cases hfound : found = place
  · subst hfound
    rw [entry?_set_self hstart, entry?_set_self hstart, hother]
    simp
  · rw [entry?_set_of_ne hfound, entry?_set_of_ne hfound]
    exact hjoins found now

/-- An entry that is in one of two trees need not be set in the other. -/
theorem Joins.of_set {whole : OutputTree} {place : Place} {entry : Entry}
    (hjoins : Joins (other.set place entry) made whole)
    (hvacant : other.entry? place = none)
    (hmade : made.entry? place = some entry) : Joins other made whole := by
  intro found now
  rw [hjoins found now]
  by_cases hfound : found = place
  · subst hfound
    rw [entry?_set_self (not_isStart_of_vacant hvacant), hvacant, hmade]
    simp
  · rw [entry?_set_of_ne hfound]

/-! ## Ways in a grown tree -/

/-- A tree has grown, at the given places only by directories. -/
structure Beside (places : Place → Prop) (tree other : OutputTree) :
    Prop where
  grows : tree.Grows other
  directories : ∀ place, places place →
    other.entry? place = tree.entry? place ∨
      tree.entry? place = none ∧ other.entry? place = some .directory

theorem Beside.mono {places fewer : Place → Prop}
    (hbeside : Beside places tree other)
    (hfewer : ∀ place, fewer place → places place) :
    Beside fewer tree other :=
  ⟨hbeside.grows, fun place hplace =>
    hbeside.directories place (hfewer place hplace)⟩

theorem Beside.behind {place : Place} {name : String} {rest : List String}
    (hbeside : Beside (OnWay place (name :: rest)) tree other) :
    Beside (OnWay (place.step name) rest) tree other :=
  hbeside.mono fun _ => OnWay.cons

/-- A directory is made in the tree, where the grown tree has or gets one. -/
theorem Beside.set {places : Place → Prop} {grown : OutputTree}
    (hbeside : Beside places tree other) {place : Place}
    (hvacant : tree.entry? place = none)
    (hthere : grown.entry? place = some .directory)
    (hsame : ∀ found, found ≠ place →
      grown.entry? found = other.entry? found) :
    Beside places (tree.set place .directory) grown := by
  have hmade : entry? (tree.set place .directory) place = some .directory :=
    entry?_set_self (not_isStart_of_vacant hvacant) _
  constructor
  · intro found entry hentry
    by_cases hfound : found = place
    · subst hfound
      rw [hthere, ← hmade, hentry]
    · rw [entry?_set_of_ne hfound] at hentry
      rw [hsame found hfound]
      exact hbeside.grows found entry hentry
  · intro found hplaces
    by_cases hfound : found = place
    · subst hfound
      exact .inl (hthere.trans hmade.symm)
    · rw [entry?_set_of_ne hfound, hsame found hfound]
      exact hbeside.directories found hplaces

theorem Beside.makeFrom {place : Place} {names : List String}
    (hbeside : Beside (OnWay place names) tree other)
    (htree : tree.IsDirectoryTree) (hlinks : other.LinkFree)
    (hplace : tree.entry? place = some .directory)
    {result : Except Obstacle Place}
    (hmake : tree.makeFrom place names = (made, result)) :
    ∃ whole, other.makeFrom place names = (whole, result) ∧
      Joins other made whole := by
  -- Along the names nothing but directories has been added, so both makings
  -- stop at the same name or go on to the same place.
  induction names generalizing tree other place with
  | nil =>
      rw [OutputTree.makeFrom] at hmake
      obtain ⟨rfl, rfl⟩ := Prod.mk.inj hmake
      exact ⟨other, by rw [OutputTree.makeFrom], .of_grows hbeside.grows⟩
  | cons name rest ih =>
      have hrefused : ∀ obstacle, (tree, .error obstacle) = (made, result) →
          (other, .error obstacle) = (other, result) ∧
            Joins other made other := by
        intro obstacle heq
        obtain ⟨rfl, rfl⟩ := Prod.mk.inj heq
        exact ⟨rfl, .of_grows hbeside.grows⟩
      by_cases hname : name = ".."
      · subst hname
        have habove := htree.grounded.above hplace
        rw [makeFrom_up, habove] at hmake
        rw [makeFrom_up, hbeside.grows _ _ habove]
        exact ih hbeside.behind htree hlinks habove hmake
      · have hbehind := hbeside.behind
        rw [Place.step_of_ne place hname] at hbehind
        rw [makeFrom_name htree.linkFree place hname] at hmake
        rw [makeFrom_name hlinks place hname]
        by_cases hlong : nameLimit < name.utf8ByteSize
        · rw [if_pos hlong] at hmake ⊢
          exact ⟨other, hrefused _ hmake⟩
        · rw [if_neg hlong] at hmake ⊢
          cases hentry : tree.entry? (place ++ [name]) with
          | none =>
              rw [hentry] at hmake
              have hmade : entry? (tree.set (place ++ [name]) .directory)
                  (place ++ [name]) = some .directory :=
                entry?_set_self (not_isStart_of_vacant hentry) _
              have hnext : IsDirectoryTree
                  (tree.set (place ++ [name]) .directory) :=
                htree.set hentry hplace rfl
              have hfirst : OnWay (place ++ [name]) rest (place ++ [name]) :=
                ⟨[], List.nil_prefix, rfl⟩
              rcases hbehind.directories _ hfirst with hsame | ⟨_, hthere⟩
              · -- The directory is made in both trees.
                have hvacant := hsame.trans hentry
                have hset : entry? (other.set (place ++ [name]) .directory)
                    (place ++ [name]) = some .directory :=
                  entry?_set_self (not_isStart_of_vacant hvacant) _
                have hothers : ∀ found, found ≠ place ++ [name] →
                    entry? (other.set (place ++ [name]) .directory) found =
                      other.entry? found :=
                  fun found hfound => entry?_set_of_ne hfound _
                rw [hvacant]
                obtain ⟨whole, hwhole, hjoins⟩ :=
                  ih (hbehind.set hentry hset hothers) hnext
                    (hlinks.set rfl _) hmade hmake
                have hlater := (makeFrom_spec hnext.linkFree hmake).2.1.grows
                exact ⟨whole, hwhole,
                  hjoins.of_set hvacant (hlater _ _ hmade)⟩
              · rw [hthere]
                exact ih (hbehind.set hentry hthere fun _ _ => rfl) hnext
                  hlinks hmade hmake
          | some entry =>
              rw [hentry] at hmake
              rw [hbeside.grows _ _ hentry]
              cases entry with
              | directory => exact ih hbehind htree hlinks hentry hmake
              | file text => exact ⟨other, hrefused _ hmake⟩
              | link target =>
                  exact absurd hentry (htree.linkFree.entry?_ne_link _ _)

theorem Beside.makeDirectories {path : OutputPath}
    (hbeside : Beside path.Passes tree other) (htree : tree.IsDirectoryTree)
    (hlinks : other.LinkFree) {result : Except Obstacle Place}
    (hmake : tree.makeDirectories path = (made, result)) :
    ∃ whole, other.makeDirectories path = (whole, result) ∧
      Joins other made whole := by
  have hrefused : ∀ obstacle, (tree, .error obstacle) = (made, result) →
      ∃ whole, (other, .error obstacle) = (whole, result) ∧
        Joins other made whole := by
    intro obstacle heq
    obtain ⟨rfl, rfl⟩ := Prod.mk.inj heq
    exact ⟨other, rfl, .of_grows hbeside.grows⟩
  unfold OutputTree.makeDirectories at hmake ⊢
  by_cases hnul : hasNul path = true
  · rw [if_pos hnul] at hmake ⊢
    exact hrefused _ hmake
  · rw [if_neg hnul] at hmake ⊢
    by_cases hlong : isTooLong path = true
    · rw [if_pos hlong] at hmake ⊢
      exact hrefused _ hmake
    · rw [if_neg hlong] at hmake ⊢
      exact hbeside.makeFrom htree hlinks (tree.entry?_startOf path) hmake

/-- All places that an open way passes are directories. -/
theorem Way.entry?_of_onWay {place goal passed : Place}
    {names : List String} (hway : tree.Way place names (.ok goal))
    (hplace : tree.entry? place = some .directory)
    (hpassed : OnWay place names passed) :
    tree.entry? passed = some .directory := by
  generalize hresult : Except.ok goal = result at hway
  obtain ⟨way, hbegins, rfl⟩ := hpassed
  induction hway generalizing way with
  | arrived =>
      rw [List.prefix_nil.mp hbegins]
      exact hplace
  | up habove _ ih =>
      cases way with
      | nil => exact hplace
      | cons name way =>
          obtain ⟨rfl, hrest⟩ := List.cons_prefix_cons.mp hbegins
          exact ih habove hresult way hrest
  | into hname _ hdirectory _ ih =>
      cases way with
      | nil => exact hplace
      | cons name way =>
          obtain ⟨rfl, hrest⟩ := List.cons_prefix_cons.mp hbegins
          rw [Place.follow_cons, Place.step_of_ne _ hname]
          exact ih hdirectory hresult way hrest
  | tooLong _ _ => cases hresult
  | file _ _ _ => cases hresult

/-! ## Files in a grown tree -/

/-- A walk that gets past some names finds the way along them open. -/
theorem IsDirectoryTree.way_of_walk (htree : tree.IsDirectoryTree)
    {through : Bool} {links : Nat} {place goal : Place}
    {names more : List String} (hmore : more ≠ [])
    (hplace : tree.entry? place = some .directory)
    (hwalk : tree.walk through links place (names ++ more) =
      .present goal) :
    ∃ directory, tree.Way place names (.ok directory) := by
  induction names generalizing place with
  | nil => exact ⟨place, .arrived⟩
  | cons name rest ih =>
      rw [List.cons_append] at hwalk
      by_cases hname : name = ".."
      · subst hname
        rw [walk_up] at hwalk
        have habove := htree.grounded.above hplace
        obtain ⟨directory, hway⟩ := ih habove hwalk
        exact ⟨directory, .up habove hway⟩
      · have hleft : (rest ++ more).isEmpty = false := by simp [hmore]
        rw [walk_name htree.linkFree _ _ _ hname, hleft] at hwalk
        by_cases hlong : nameLimit < name.utf8ByteSize
        · rw [if_pos hlong] at hwalk
          cases hwalk
        · rw [if_neg hlong] at hwalk
          cases hentry : tree.entry? (place ++ [name]) with
          | none => simp [hentry] at hwalk
          | some entry =>
              rw [hentry] at hwalk
              cases entry with
              | directory =>
                  obtain ⟨directory, hway⟩ := ih hentry hwalk
                  exact ⟨directory, .into hname hlong hentry hway⟩
              | file text => simp at hwalk
              | link target => simp at hwalk

variable {lead : OutputPath} {last text : String}

/-- Whether a path leads somewhere or not, writing to it comes to making its
directories and writing there. -/
theorem IsDirectoryTree.writeAbsent_eq (htree : tree.IsDirectoryTree)
    (hlast : IsFileName last) (hlastNul : hasNul [last] = false)
    (hnul : hasNul (OutputPath.parent (lead ++ [last])) = false)
    {result : Except Obstacle Place}
    (hmake : tree.makeDirectories (OutputPath.parent (lead ++ [last])) =
      (made, result)) :
    tree.writeAbsent (lead ++ [last]) text =
      made.writeBehind (lead ++ [last]) text result := by
  cases hleads : tree.leadsSomewhere (lead ++ [last]) with
  | false =>
      rw [writeAbsent_eq_writeNew hleads]
      exact writeNew_eq text (lastName_ne_temporary lead hlast) hmake
  | true =>
      obtain ⟨hshort, goal, hwalk⟩ := leadsSomewhere_iff.mp hleads
      obtain ⟨hnames, hrooted⟩ := OutputPath.parent_spec lead hlast.isIdle_eq
      have hfits : isTooLong (OutputPath.parent (lead ++ [last])) = false := by
        by_contra hlong
        rw [Bool.not_eq_false] at hlong
        simp [isTooLong_of_parent hlast.isIdle_eq hlong] at hshort
      have hstart : startOf (lead ++ [last]) =
          startOf (OutputPath.parent (lead ++ [last])) := by
        unfold startOf
        rw [hrooted]
      rw [OutputPath.names_concat lead hlast.isIdle_eq, ← hnames,
        hstart] at hwalk
      obtain ⟨directory, hway⟩ := htree.way_of_walk (List.cons_ne_nil _ _)
        (tree.entry?_startOf _) hwalk
      rw [hway.makeDirectories_eq htree.linkFree hnul hfits] at hmake
      obtain ⟨rfl, rfl⟩ := Prod.mk.inj hmake
      exact writeAbsent_eq_writeBehind htree.linkFree hlast hlastNul hnul
        hfits hway

/-- A file is given its name in the grown tree as in the tree before, unless
the name is taken there only. -/
theorem Joins.writeBehind {whole : OutputTree}
    (hjoins : Joins other made whole) (path : OutputPath) (text : String)
    {result : Except Obstacle Place}
    (hfree : ∀ directory, result = .ok directory →
      made.entry? (directory ++ [path.lastName]) = none →
      other.entry? (directory ++ [path.lastName]) = none) :
    (whole.writeBehind path text result).2 =
        (made.writeBehind path text result).2 ∧
      Joins other (made.writeBehind path text result).1
        (whole.writeBehind path text result).1 := by
  unfold OutputTree.writeBehind
  cases result with
  | error obstacle => exact ⟨rfl, hjoins⟩
  | ok directory =>
      cases nameObstacle? path with
      | some obstacle => exact ⟨rfl, hjoins⟩
      | none =>
          dsimp only
          cases hmade : made.entry? (directory ++ [path.lastName]) with
          | some entry =>
              rw [(hjoins _ entry).mpr (.inr hmade)]
              exact ⟨rfl, hjoins⟩
          | none =>
              have hvacant := hjoins.occupied.mpr
                ⟨hfree directory rfl hmade, hmade⟩
              rw [hvacant]
              exact ⟨rfl, hjoins.set hvacant _⟩

/-- Where directories have been made, the path passes nothing else. -/
theorem IsDirectoryTree.entry?_of_passes (htree : tree.IsDirectoryTree)
    {path : OutputPath} {directory : Place}
    (hmake : tree.makeDirectories path = (made, .ok directory))
    {passed : Place} (hpassed : path.Passes passed) :
    made.entry? passed = some .directory := by
  have hstart := tree.entry?_startOf path
  unfold OutputTree.makeDirectories at hmake
  split at hmake
  next => cases (Prod.mk.inj hmake).2
  next =>
    split at hmake
    next => cases (Prod.mk.inj hmake).2
    next =>
      have hway := (htree.way_of_makeFrom hstart hmake).2.1
      exact hway.entry?_of_onWay (made.entry?_startOf path) hpassed

end OutputTree

/-! ## Paths that keep out of each other's way -/

namespace OutputPath

theorem place_parent_concat (lead : OutputPath) {last : String}
    (hlast : IsFileName last) :
    (parent (lead ++ [last])).place ++ [lastName (lead ++ [last])] =
      place (lead ++ [last]) := by
  rw [lastName_concat lead hlast.isIdle_eq,
    place_parent lead hlast.isIdle_eq hlast.ne_up]

/-- What writing to a path may leave at a vacant place: a directory on its
way, or its file, which then does not lie on the way. -/
def Leaves (path : OutputPath) (place : Place) : Entry → Prop
  | .directory => path.parent.Passes place
  | .file _ => place = path.place ∧ ¬ path.parent.Passes place
  | .link _ => False

/-- Two paths to different files.  Neither of them passes the file of the
other one, unless that one passes it too. -/
structure Apart (path other : OutputPath) : Prop where
  ne : path.place ≠ other.place
  left : other.parent.Passes path.place → path.parent.Passes path.place
  right : path.parent.Passes other.place → other.parent.Passes other.place

end OutputPath

namespace OutputTree

variable {tree other made : OutputTree} {lead : OutputPath}
  {last text : String}

theorem IsDirectoryTree.leaves_of_writeAbsent (htree : tree.IsDirectoryTree)
    (hlast : IsFileName last) {place : Place} {entry : Entry}
    (hentry : entry? (tree.writeAbsent (lead ++ [last]) text).1 place =
      some entry) :
    tree.entry? place = some entry ∨
      OutputPath.Leaves (lead ++ [last]) place entry := by
  cases hleads : tree.leadsSomewhere (lead ++ [last]) with
  | true =>
      rw [writeAbsent_of_leadsSomewhere hleads] at hentry
      exact .inl hentry
  | false =>
      rcases hmake : tree.makeDirectories
        (OutputPath.parent (lead ++ [last])) with ⟨made, result⟩
      obtain ⟨_, hadds, hgoal⟩ := makeDirectories_spec htree.linkFree hmake
      rw [writeAbsent_eq_writeNew hleads,
        writeNew_eq text (lastName_ne_temporary lead hlast) hmake] at hentry
      have hmade : made.entry? place = some entry →
          tree.entry? place = some entry ∨
            OutputPath.Leaves (lead ++ [last]) place entry := by
        intro hfound
        rcases hadds place with hsame | ⟨_, hdirectory, hpassed⟩
        · exact .inl (hsame ▸ hfound)
        · rw [hdirectory] at hfound
          obtain rfl := Option.some.inj hfound
          exact .inr hpassed
      unfold writeBehind at hentry
      cases result with
      | error obstacle => exact hmade hentry
      | ok directory =>
          dsimp only at hentry
          rw [hgoal directory rfl,
            OutputPath.place_parent_concat lead hlast] at hentry
          split at hentry
          next => exact hmade hentry
          next =>
            split at hentry
            next => exact hmade hentry
            next hvacant =>
              by_cases hfile : place = OutputPath.place (lead ++ [last])
              · subst hfile
                rw [entry?_set_self (not_isStart_of_vacant hvacant)] at hentry
                obtain rfl := Option.some.inj hentry
                refine .inr ⟨rfl, fun hpassed => ?_⟩
                have hdirectory := htree.entry?_of_passes hmake hpassed
                simp [hvacant] at hdirectory
              · rw [entry?_set_of_ne hfile] at hentry
                exact hmade hentry

/-- A tree has gained nothing but what writing to paths may leave that keep
out of the way of a path. -/
def Spares (path : OutputPath) (tree other : OutputTree) : Prop :=
  ∀ place entry, other.entry? place = some entry →
    tree.entry? place = some entry ∨
      ∃ another, path.Apart another ∧ another.Leaves place entry

theorem Spares.beside {path : OutputPath} (hspares : Spares path tree other)
    (hgrows : tree.Grows other) : Beside path.parent.Passes tree other := by
  refine ⟨hgrows, fun place hpassed => ?_⟩
  cases hold : tree.entry? place with
  | some entry => exact .inl (hgrows place entry hold)
  | none =>
      cases hentry : other.entry? place with
      | none => exact .inl rfl
      | some entry =>
          rcases hspares place entry hentry with
            hbefore | ⟨another, hapart, hleft⟩
          · simp [hold] at hbefore
          · cases entry with
            | directory => exact .inr ⟨rfl, rfl⟩
            | file now =>
                obtain ⟨rfl, hfile⟩ := hleft
                exact absurd (hapart.right hpassed) hfile
            | link target => exact hleft.elim

/-- Where the directories of the path can be made, its file is vacant if it
was before. -/
theorem Spares.vacant {path : OutputPath} (hspares : Spares path tree other)
    (htree : tree.IsDirectoryTree) {directory : Place}
    (hmake : tree.makeDirectories path.parent = (made, .ok directory))
    (hvacant : made.entry? path.place = none) :
    other.entry? path.place = none := by
  obtain ⟨_, hadds, _⟩ := makeDirectories_spec htree.linkFree hmake
  by_contra htaken
  obtain ⟨entry, hentry⟩ := Option.ne_none_iff_exists'.mp htaken
  rcases hspares _ entry hentry with hold | ⟨another, hapart, hleft⟩
  · simp [hadds.grows _ _ hold] at hvacant
  · cases entry with
    | directory =>
        have hdirectory := htree.entry?_of_passes hmake (hapart.left hleft)
        simp [hvacant] at hdirectory
    | file now => exact hapart.ne hleft.1
    | link target => exact hleft

/-- Writing to a path comes to the same after others have been written to
that keep out of its way, and what it leaves is added to what they left. -/
theorem IsDirectoryTree.writeAbsent_beside (htree : tree.IsDirectoryTree)
    (hother : other.IsDirectoryTree) (hgrows : tree.Grows other)
    (hlast : IsFileName last) (hlastNul : hasNul [last] = false)
    (hnul : hasNul (OutputPath.parent (lead ++ [last])) = false)
    (hspares : Spares (lead ++ [last]) tree other) :
    (other.writeAbsent (lead ++ [last]) text).2 =
        (tree.writeAbsent (lead ++ [last]) text).2 ∧
      Joins other (tree.writeAbsent (lead ++ [last]) text).1
        (other.writeAbsent (lead ++ [last]) text).1 := by
  rcases hmake : tree.makeDirectories (OutputPath.parent (lead ++ [last]))
    with ⟨made, result⟩
  obtain ⟨whole, hwhole, hjoins⟩ :=
    (hspares.beside hgrows).makeDirectories htree hother.linkFree hmake
  rw [htree.writeAbsent_eq hlast hlastNul hnul hmake,
    hother.writeAbsent_eq hlast hlastNul hnul hwhole]
  refine hjoins.writeBehind _ text fun directory hresult hvacant => ?_
  have hgoal := (makeDirectories_spec htree.linkFree hmake).2.2
  rw [hgoal directory hresult,
    OutputPath.place_parent_concat lead hlast] at hvacant ⊢
  subst hresult
  exact hspares.vacant htree hmake hvacant

end OutputTree

end RecordMasking
