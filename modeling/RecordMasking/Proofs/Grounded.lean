import RecordMasking.Proofs.Writing

/-!
# Ways that stay as they are

In a directory tree every entry lies in a directory, so `..` never fails.
Making the directories of a path then opens a way, or ends at a name that is
too long or belongs to a file.  `Way` lists these ends: they last as the tree
grows, along them nothing is left to be made, and a path that goes on from an
obstacle leads nowhere.
-/

namespace RecordMasking

theorem Place.above_append {place : Place} {name : String}
    (hplace : ¬ IsStart (place ++ [name])) :
    above (place ++ [name]) = place := by
  unfold above
  rw [if_neg fun hroot => hplace (.inr hroot), List.dropLast_concat]

namespace OutputTree

variable {tree after : OutputTree}

/-! ## Directory trees -/

/-- Every entry lies in a directory. -/
def Grounded (tree : OutputTree) : Prop :=
  ∀ entry ∈ tree.entries, tree.entry? entry.1.above = some .directory

instance (tree : OutputTree) : Decidable tree.Grounded :=
  inferInstanceAs (Decidable (∀ entry ∈ tree.entries, _))

theorem Grounded.above (hgrounded : tree.Grounded) {place : Place}
    {entry : Entry} (hentry : tree.entry? place = some entry) :
    tree.entry? place.above = some .directory := by
  by_cases hstart : place.IsStart
  · rcases hstart with rfl | rfl
    · rfl
    · rfl
  · rw [entry?_of_not_isStart hstart] at hentry
    obtain ⟨found, hfound, _⟩ := Option.map_eq_some_iff.mp hentry
    have habove := hgrounded found (List.mem_of_find?_eq_some hfound)
    have hplace : found.1 = place := by simpa using List.find?_some hfound
    rw [← hplace]
    exact habove

theorem Grounded.setOver (hgrounded : tree.Grounded) {place : Place}
    (hplace : tree.entry? place ≠ some .directory)
    (habove : tree.entry? place.above = some .directory) (entry : Entry) :
    (tree.set place entry).Grounded := by
  -- A place without a directory holds nothing else up.
  have hkept : ∀ other : Place, tree.entry? other = some .directory →
      entry? (tree.set place entry) other = some .directory := by
    intro other hother
    have hne : other ≠ place := by
      rintro rfl
      exact hplace hother
    rw [entry?_set_of_ne hne, hother]
  intro other hother
  rcases List.mem_append.mp hother with hold | hnew
  · exact hkept _ (hgrounded other (List.mem_filter.mp hold).1)
  · obtain rfl := List.mem_singleton.mp hnew
    exact hkept _ habove

theorem Grounded.set (hgrounded : tree.Grounded) {place : Place}
    (hvacant : tree.entry? place = none)
    (habove : tree.entry? place.above = some .directory) (entry : Entry) :
    (tree.set place entry).Grounded :=
  hgrounded.setOver (by simp [hvacant]) habove entry

/-- Directories with files in them, and no links. -/
structure IsDirectoryTree (tree : OutputTree) : Prop where
  linkFree : tree.LinkFree
  grounded : tree.Grounded

instance (tree : OutputTree) : Decidable tree.IsDirectoryTree :=
  decidable_of_iff (tree.LinkFree ∧ tree.Grounded)
    ⟨fun ⟨hlinks, hgrounded⟩ => ⟨hlinks, hgrounded⟩,
      fun htree => ⟨htree.linkFree, htree.grounded⟩⟩

theorem IsDirectoryTree.set (htree : tree.IsDirectoryTree) {place : Place}
    {name : String} (hvacant : tree.entry? (place ++ [name]) = none)
    (hplace : tree.entry? place = some .directory) {entry : Entry}
    (hentry : entry.isLink = false) :
    (tree.set (place ++ [name]) entry).IsDirectoryTree where
  linkFree := htree.linkFree.set hentry _
  grounded := by
    refine htree.grounded.set hvacant ?_ entry
    rw [Place.above_append (not_isStart_of_vacant hvacant)]
    exact hplace

/-! ## Ways -/

/-- How far the names from a place lead when all their directories are made
that can be. -/
inductive Way (tree : OutputTree) :
    Place → List String → Except Obstacle Place → Prop
  | arrived {place : Place} : Way tree place [] (.ok place)
  | up {place : Place} {rest : List String} {result : Except Obstacle Place}
      (habove : tree.entry? place.above = some .directory)
      (hrest : Way tree place.above rest result) :
      Way tree place (".." :: rest) result
  | into {place : Place} {name : String} {rest : List String}
      {result : Except Obstacle Place} (hname : name ≠ "..")
      (hfits : ¬ nameLimit < name.utf8ByteSize)
      (hdirectory : tree.entry? (place ++ [name]) = some .directory)
      (hrest : Way tree (place ++ [name]) rest result) :
      Way tree place (name :: rest) result
  | tooLong {place : Place} {name : String} {rest : List String}
      (hname : name ≠ "..") (hlong : nameLimit < name.utf8ByteSize) :
      Way tree place (name :: rest) (.error .nameTooLong)
  | file {place : Place} {name : String} {rest : List String}
      {text : String} (hname : name ≠ "..")
      (hfits : ¬ nameLimit < name.utf8ByteSize)
      (hfile : tree.entry? (place ++ [name]) = some (.file text)) :
      Way tree place (name :: rest)
        (.error (if rest.isEmpty then .taken else .notDirectory))

namespace Way

variable {place : Place} {names : List String}

theorem grows {result : Except Obstacle Place}
    (hway : tree.Way place names result) (hgrows : tree.Grows after) :
    after.Way place names result := by
  induction hway with
  | arrived => exact .arrived
  | up habove _ ih => exact .up (hgrows _ _ habove) ih
  | into hname hfits hdirectory _ ih =>
      exact .into hname hfits (hgrows _ _ hdirectory) ih
  | tooLong hname hlong => exact .tooLong hname hlong
  | file hname hfits hfile => exact .file hname hfits (hgrows _ _ hfile)

/-- An open way stays open, whatever becomes of the files. -/
theorem keeps {touched : Place → Prop} {goal : Place}
    (hway : tree.Way place names (.ok goal))
    (hkeeps : Keeps touched tree after) : after.Way place names (.ok goal) := by
  generalize hresult : Except.ok goal = result at hway
  induction hway with
  | arrived =>
      obtain rfl := Except.ok.inj hresult
      exact .arrived
  | up habove _ ih =>
      exact .up (hkeeps.directories _ habove) (hresult ▸ ih hresult)
  | into hname hfits hdirectory _ ih =>
      exact .into hname hfits (hkeeps.directories _ hdirectory)
        (hresult ▸ ih hresult)
  | tooLong _ _ => cases hresult
  | file _ _ _ => cases hresult

/-- Nothing is left to be made. -/
theorem makeFrom_eq {result : Except Obstacle Place}
    (hway : tree.Way place names result) (hlinks : tree.LinkFree) :
    tree.makeFrom place names = (tree, result) := by
  induction hway with
  | arrived => rw [makeFrom]
  | up habove _ ih =>
      rw [makeFrom_up, habove]
      exact ih
  | into hname hfits hdirectory _ ih =>
      rw [makeFrom_name hlinks _ hname, if_neg hfits, hdirectory]
      exact ih
  | tooLong hname hlong =>
      rw [makeFrom_name hlinks _ hname, if_pos hlong]
  | file hname hfits hfile =>
      rw [makeFrom_name hlinks _ hname, if_neg hfits, hfile]

/-- An open way is walked to its end. -/
theorem walk_append {goal : Place} (hway : tree.Way place names (.ok goal))
    (hlinks : tree.LinkFree) (through : Bool) (links : Nat)
    (more : List String) :
    tree.walk through links place (names ++ more) =
      tree.walk through links goal more := by
  generalize hresult : Except.ok goal = result at hway
  induction hway with
  | arrived =>
      cases hresult
      rfl
  | up _ _ ih =>
      rw [List.cons_append, walk_up]
      exact ih hresult
  | into hname hfits hdirectory _ ih =>
      rw [List.cons_append, walk_name hlinks _ _ _ hname, if_neg hfits,
        hdirectory]
      exact ih hresult
  | tooLong _ _ => cases hresult
  | file _ _ _ => cases hresult

/-- No walk passes an obstacle. -/
theorem walk_ne_present {obstacle : Obstacle}
    (hway : tree.Way place names (.error obstacle))
    (hlinks : tree.LinkFree) (through : Bool) (links : Nat)
    {more : List String} (hmore : more ≠ []) (goal : Place) :
    tree.walk through links place (names ++ more) ≠ .present goal := by
  generalize hresult : Except.error obstacle = result at hway
  induction hway with
  | arrived => cases hresult
  | up _ _ ih =>
      rw [List.cons_append, walk_up]
      exact ih hresult
  | into hname hfits hdirectory _ ih =>
      rw [List.cons_append, walk_name hlinks _ _ _ hname, if_neg hfits,
        hdirectory]
      exact ih hresult
  | tooLong hname hlong =>
      rw [List.cons_append, walk_name hlinks _ _ _ hname, if_pos hlong]
      simp
  | file hname hfits hfile =>
      rw [List.cons_append, walk_name hlinks _ _ _ hname, if_neg hfits,
        hfile]
      simp [hmore]

end Way

/-- Making directories leaves a way behind. -/
theorem IsDirectoryTree.way_of_makeFrom (htree : tree.IsDirectoryTree)
    {place : Place} (hplace : tree.entry? place = some .directory)
    {names : List String} {result : Except Obstacle Place}
    (hmake : tree.makeFrom place names = (after, result)) :
    after.IsDirectoryTree ∧ after.Way place names result ∧
      ∀ goal, result = .ok goal → after.entry? goal = some .directory := by
  induction names generalizing tree place with
  | nil =>
      rw [makeFrom] at hmake
      obtain ⟨rfl, rfl⟩ := Prod.mk.inj hmake
      refine ⟨htree, .arrived, fun goal hgoal => ?_⟩
      obtain rfl := Except.ok.inj hgoal
      exact hplace
  | cons name rest ih =>
      have hgrows : tree.Grows after :=
        (makeFrom_spec htree.linkFree hmake).2.1.grows
      by_cases hname : name = ".."
      · subst hname
        have habove := htree.grounded.above hplace
        rw [makeFrom_up, habove] at hmake
        obtain ⟨hafter, hway, hgoal⟩ := ih htree habove hmake
        exact ⟨hafter, .up (hgrows _ _ habove) hway, hgoal⟩
      · rw [makeFrom_name htree.linkFree place hname] at hmake
        split at hmake
        next hlong =>
          obtain ⟨rfl, rfl⟩ := Prod.mk.inj hmake
          exact ⟨htree, .tooLong hname hlong, fun _ hgoal => by cases hgoal⟩
        next hfits =>
          split at hmake
          next hvacant =>
            have hmade : entry? (tree.set (place ++ [name]) .directory)
                (place ++ [name]) = some .directory :=
              entry?_set_self (not_isStart_of_vacant hvacant) _
            have hnext : IsDirectoryTree
                (tree.set (place ++ [name]) .directory) :=
              htree.set hvacant hplace rfl
            have hlater :=
              (makeFrom_spec hnext.linkFree hmake).2.1.grows
            obtain ⟨hafter, hway, hgoal⟩ := ih hnext hmade hmake
            exact ⟨hafter, .into hname hfits (hlater _ _ hmade) hway, hgoal⟩
          next hdirectory =>
            obtain ⟨hafter, hway, hgoal⟩ := ih htree hdirectory hmake
            exact ⟨hafter, .into hname hfits (hgrows _ _ hdirectory) hway,
              hgoal⟩
          next entry hnot hentry =>
            obtain ⟨rfl, rfl⟩ := Prod.mk.inj hmake
            cases entry with
            | directory => exact absurd rfl hnot
            | link target =>
                exact absurd hentry (htree.linkFree.entry?_ne_link _ _)
            | file text =>
                exact ⟨htree, .file hname hfits hentry,
                  fun _ hgoal => by cases hgoal⟩

/-! ## Paths that lead somewhere -/

theorem Grows.keeps (hgrows : tree.Grows after) :
    Keeps (fun _ => True) tree after where
  directories place hentry := hgrows place _ hentry
  files _ hplace := absurd trivial hplace
  remain place text hentry := ⟨text, hgrows place _ hentry⟩

/-- It does not matter to a walk which texts the files have. -/
theorem walk_present_keeps {touched : Place → Prop} (hlinks : tree.LinkFree)
    (hafter : after.LinkFree) (hkeeps : Keeps touched tree after)
    {through : Bool} {links : Nat} {place goal : Place} {names : List String}
    (hwalk : tree.walk through links place names = .present goal) :
    after.walk through links place names = .present goal := by
  induction names generalizing place with
  | nil =>
      rw [walk] at hwalk ⊢
      exact hwalk
  | cons name rest ih =>
      by_cases hname : name = ".."
      · subst hname
        rw [walk_up] at hwalk ⊢
        exact ih hwalk
      · rw [walk_name hlinks _ _ _ hname] at hwalk
        rw [walk_name hafter _ _ _ hname]
        split at hwalk
        next => simp at hwalk
        next hfits =>
          rw [if_neg hfits]
          cases hentry : tree.entry? (place ++ [name]) with
          | none =>
              rw [hentry] at hwalk
              dsimp only at hwalk
              split at hwalk
              next => simp at hwalk
              next => simp at hwalk
          | some entry =>
              rw [hentry] at hwalk
              cases entry with
              | directory =>
                  rw [hkeeps.directories _ hentry]
                  exact ih hwalk
              | file text =>
                  obtain ⟨now, hnow⟩ := hkeeps.remain _ _ hentry
                  rw [hnow]
                  exact hwalk
              | link target =>
                  exact absurd hentry (hlinks.entry?_ne_link _ _)

theorem exists_walk_last_iff (hlinks : tree.LinkFree) (through : Bool)
    (links : Nat) (place : Place) {name : String} (hname : name ≠ "..") :
    (∃ goal, tree.walk through links place [name] = .present goal) ↔
      ¬ nameLimit < name.utf8ByteSize ∧
        tree.entry? (place ++ [name]) ≠ none := by
  rw [walk_name hlinks _ _ _ hname]
  split
  next hlong => simp [hlong]
  next hfits =>
    cases hentry : tree.entry? (place ++ [name]) with
    | none => simp
    | some entry =>
        cases entry with
        | directory => simp [hfits, walk]
        | file text => simp [hfits]
        | link target =>
            exact absurd hentry (hlinks.entry?_ne_link _ target)

theorem leadsSomewhere_iff {path : OutputPath} :
    tree.leadsSomewhere path = true ↔
      isTooLong path = false ∧
        ∃ goal, tree.walk true linkLimit (startOf path) path.names =
          .present goal := by
  unfold leadsSomewhere arrival
  cases isTooLong path with
  | true => simp
  | false =>
      cases tree.walk true linkLimit (startOf path) path.names with
      | present goal => simp
      | vacant goal => simp
      | blocked obstacle => simp

theorem leadsSomewhere_keeps {touched : Place → Prop}
    (hlinks : tree.LinkFree) (hafter : after.LinkFree)
    (hkeeps : Keeps touched tree after) {path : OutputPath}
    (hleads : tree.leadsSomewhere path = true) :
    after.leadsSomewhere path = true := by
  rw [leadsSomewhere_iff] at hleads ⊢
  obtain ⟨hfits, goal, hwalk⟩ := hleads
  exact ⟨hfits, goal, walk_present_keeps hlinks hafter hkeeps hwalk⟩

theorem leadsSomewhere_grows (hlinks : tree.LinkFree)
    (hafter : after.LinkFree) (hgrows : tree.Grows after)
    {path : OutputPath} (hleads : tree.leadsSomewhere path = true) :
    after.leadsSomewhere path = true :=
  leadsSomewhere_keeps hlinks hafter hgrows.keeps hleads

end OutputTree

end RecordMasking
