import RecordMasking.Proofs.Entries

/-!
# Where paths lead

Without links a path leads to one place, in whatever tree: each name goes one
directory down, and `..` goes one up.  What changes from tree to tree is how
far a walk gets.  Making directories opens the way as far as no file stands in
it and no name is too long, and those two obstacles last: `Route` says how far
a way goes once its directories are made, and it says the same in every tree
that has grown from there.
-/

namespace RecordMasking

namespace Place

def step (place : Place) (name : String) : Place :=
  if name = ".." then place.above else place ++ [name]

/-- The place that names lead to from another one. -/
def follow (place : Place) (names : List String) : Place :=
  names.foldl step place

@[simp] theorem step_up (place : Place) : place.step ".." = place.above := rfl

theorem step_of_ne (place : Place) {name : String} (hname : name ≠ "..") :
    place.step name = place ++ [name] := if_neg hname

@[simp] theorem follow_nil (place : Place) : place.follow [] = place := rfl

@[simp] theorem follow_cons (place : Place) (name : String)
    (rest : List String) :
    place.follow (name :: rest) = (place.step name).follow rest := rfl

theorem follow_append (place : Place) (names more : List String) :
    place.follow (names ++ more) = (place.follow names).follow more :=
  List.foldl_append

end Place

namespace OutputTree

/-! ## One name -/

theorem walk_up (tree : OutputTree) (through : Bool) (links : Nat)
    (place : Place) (rest : List String) :
    tree.walk through links place (".." :: rest) =
      tree.walk through links place.above rest := by
  rw [walk]
  simp

theorem walk_name {tree : OutputTree} (hlinks : tree.LinkFree)
    (through : Bool) (links : Nat) (place : Place) {name : String}
    (hname : name ≠ "..") (rest : List String) :
    tree.walk through links place (name :: rest) =
      if nameLimit < name.utf8ByteSize then .blocked .nameTooLong
      else
        match tree.entry? (place ++ [name]) with
        | none =>
            if rest.isEmpty then .vacant (place ++ [name])
            else .blocked .missing
        | some .directory => tree.walk through links (place ++ [name]) rest
        | some _ =>
            if rest.isEmpty then .present (place ++ [name])
            else .blocked .notDirectory := by
  rw [walk, if_neg hname]
  by_cases hlong : nameLimit < name.utf8ByteSize
  · rw [if_pos hlong, if_pos hlong]
  · rw [if_neg hlong, if_neg hlong]
    cases hentry : tree.entry? (place ++ [name]) with
    | none => rfl
    | some entry =>
        cases entry with
        | directory => rfl
        | file text => rfl
        | link target => exact absurd hentry (hlinks.entry?_ne_link _ target)

theorem makeFrom_up (tree : OutputTree) (place : Place)
    (rest : List String) :
    tree.makeFrom place (".." :: rest) =
      if (tree.entry? place.above).any Entry.isDirectory then
        tree.makeFrom place.above rest
      else
        (tree, .error (if rest.isEmpty then .taken else .notDirectory)) := by
  have hwalk : ∀ through, tree.walk through linkLimit place [".."] =
      .present place.above := by
    intro through
    rw [walk_up, walk]
  rw [makeFrom, hwalk, hwalk]
  rfl

theorem makeFrom_name {tree : OutputTree} (hlinks : tree.LinkFree)
    (place : Place) {name : String} (hname : name ≠ "..")
    (rest : List String) :
    tree.makeFrom place (name :: rest) =
      if nameLimit < name.utf8ByteSize then (tree, .error .nameTooLong)
      else
        match tree.entry? (place ++ [name]) with
        | none =>
            (tree.set (place ++ [name]) .directory).makeFrom
              (place ++ [name]) rest
        | some .directory => tree.makeFrom (place ++ [name]) rest
        | some _ =>
            (tree, .error (if rest.isEmpty then .taken else .notDirectory)) := by
  rw [makeFrom, walk_name hlinks _ _ _ hname, walk_name hlinks _ _ _ hname]
  by_cases hlong : nameLimit < name.utf8ByteSize
  · simp only [hlong, if_true]
  · simp only [hlong, if_false]
    cases hentry : tree.entry? (place ++ [name]) with
    | none => rfl
    | some entry =>
        cases entry with
        | directory =>
            have hhere : ∀ through, tree.walk through linkLimit
                (place ++ [name]) [] = .present (place ++ [name]) := by
              intro through
              rw [walk]
            simp only [hhere, hentry]
            rfl
        | file text =>
            simp only [List.isEmpty_nil, if_true, hentry]
            rfl
        | link target => exact absurd hentry (hlinks.entry?_ne_link _ target)

/-! ## What making directories changes -/

/-- What was there is there still. -/
def Grows (before after : OutputTree) : Prop :=
  ∀ place entry, before.entry? place = some entry →
    after.entry? place = some entry

theorem Grows.refl (tree : OutputTree) : tree.Grows tree :=
  fun _ _ hentry => hentry

theorem Grows.trans {first second third : OutputTree}
    (hleft : first.Grows second) (hright : second.Grows third) :
    first.Grows third :=
  fun place entry hentry => hright place entry (hleft place entry hentry)

theorem grows_set {tree : OutputTree} {place : Place}
    (hvacant : tree.entry? place = none) (entry : Entry) :
    tree.Grows (tree.set place entry) := by
  intro other found hfound
  have hne : other ≠ place := by
    rintro rfl
    simp [hvacant] at hfound
  rw [entry?_set_of_ne hne, hfound]

/-- Nothing but directories has been added, each of them at one of the given
places. -/
def AddsDirectories (added : Place → Prop) (before after : OutputTree) :
    Prop :=
  ∀ place, after.entry? place = before.entry? place ∨
    before.entry? place = none ∧ after.entry? place = some .directory ∧
      added place

theorem AddsDirectories.refl (added : Place → Prop) (tree : OutputTree) :
    AddsDirectories added tree tree := fun _ => .inl rfl

theorem AddsDirectories.grows {added : Place → Prop}
    {before after : OutputTree}
    (hadds : AddsDirectories added before after) : before.Grows after := by
  intro place entry hentry
  rcases hadds place with hsame | ⟨hnone, _, _⟩
  · rw [hsame, hentry]
  · simp [hnone] at hentry

theorem AddsDirectories.trans {added : Place → Prop}
    {first second third : OutputTree}
    (hleft : AddsDirectories added first second)
    (hright : AddsDirectories added second third) :
    AddsDirectories added first third := by
  intro place
  rcases hright place with hsame | ⟨hnone, hdirectory, hadded⟩
  · rw [hsame]
    exact hleft place
  · rcases hleft place with hbefore | ⟨_, hearlier, _⟩
    · exact .inr ⟨hbefore ▸ hnone, hdirectory, hadded⟩
    · simp [hnone] at hearlier

theorem AddsDirectories.mono {added more : Place → Prop}
    {before after : OutputTree} (hmore : ∀ place, added place → more place)
    (hadds : AddsDirectories added before after) :
    AddsDirectories more before after := by
  intro place
  rcases hadds place with hsame | ⟨hnone, hdirectory, hadded⟩
  · exact .inl hsame
  · exact .inr ⟨hnone, hdirectory, hmore place hadded⟩

theorem addsDirectories_set {tree : OutputTree} {place : Place}
    (hvacant : tree.entry? place = none) :
    AddsDirectories (· = place) tree (tree.set place .directory) := by
  intro other
  by_cases hother : other = place
  · subst hother
    exact .inr ⟨hvacant, entry?_set_self (not_isStart_of_vacant hvacant) _,
      rfl⟩
  · exact .inl (entry?_set_of_ne hother _)

/-- The places that are passed from a place along the given names. -/
def OnWay (place : Place) (names : List String) (passed : Place) : Prop :=
  ∃ way, way <+: names ∧ passed = place.follow way

theorem OnWay.cons {place : Place} {name : String} {rest : List String}
    {passed : Place} (hway : OnWay (place.step name) rest passed) :
    OnWay place (name :: rest) passed := by
  obtain ⟨way, hbegins, rfl⟩ := hway
  exact ⟨name :: way, List.cons_prefix_cons.mpr ⟨rfl, hbegins⟩, rfl⟩

theorem makeFrom_spec {tree after : OutputTree} (hlinks : tree.LinkFree)
    {place : Place} {names : List String} {result : Except Obstacle Place}
    (hmake : tree.makeFrom place names = (after, result)) :
    after.LinkFree ∧ AddsDirectories (OnWay place names) tree after ∧
      ∀ goal, result = .ok goal → goal = place.follow names := by
  induction names generalizing tree place with
  | nil =>
      rw [makeFrom] at hmake
      obtain ⟨rfl, rfl⟩ := Prod.mk.inj hmake
      refine ⟨hlinks, .refl _ _, fun goal hgoal => ?_⟩
      exact (Except.ok.inj hgoal).symm
  | cons name rest ih =>
      -- A refusal changes nothing, and a step goes on from where it leads.
      have hrefused : ∀ obstacle, (tree, .error obstacle) = (after, result) →
          after.LinkFree ∧
            AddsDirectories (OnWay place (name :: rest)) tree after ∧
            ∀ goal, result = .ok goal →
              goal = place.follow (name :: rest) := by
        intro obstacle heq
        obtain ⟨rfl, rfl⟩ := Prod.mk.inj heq
        exact ⟨hlinks, .refl _ _, fun goal hgoal => by cases hgoal⟩
      have hpassed : ∀ passed, OnWay (place.step name) rest passed →
          OnWay place (name :: rest) passed := fun _ => OnWay.cons
      by_cases hname : name = ".."
      · subst hname
        rw [makeFrom_up] at hmake
        split at hmake
        next =>
          obtain ⟨hafter, hadds, hgoal⟩ := ih hlinks hmake
          exact ⟨hafter, hadds.mono hpassed, hgoal⟩
        next => exact hrefused _ hmake
      · rw [makeFrom_name hlinks place hname] at hmake
        rw [Place.step_of_ne place hname] at hpassed
        have hstep : place.follow (name :: rest) =
            Place.follow (place ++ [name]) rest := by
          rw [Place.follow_cons, Place.step_of_ne place hname]
        split at hmake
        next => exact hrefused _ hmake
        next =>
          split at hmake
          next hvacant =>
            obtain ⟨hafter, hadds, hgoal⟩ :=
              ih (hlinks.set rfl _) hmake
            refine ⟨hafter, ?_, fun goal heq => hstep ▸ hgoal goal heq⟩
            refine .trans ?_ (hadds.mono hpassed)
            refine (addsDirectories_set hvacant).mono ?_
            rintro passed rfl
            exact hpassed _ ⟨[], List.nil_prefix, rfl⟩
          next =>
            obtain ⟨hafter, hadds, hgoal⟩ := ih hlinks hmake
            exact ⟨hafter, hadds.mono hpassed,
              fun goal heq => hstep ▸ hgoal goal heq⟩
          next => exact hrefused _ hmake

end OutputTree

end RecordMasking
