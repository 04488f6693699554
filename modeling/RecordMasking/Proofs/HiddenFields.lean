import RecordMasking.Proofs.Coverage

/-!
# Hidden fields

A table can only be refused for a field that the package of the model cannot
name.  What matters is which records the table would rebuild: those that are
reached through plain fields with a masked path strictly below them and no
mask of their own at the end.  The walk that decides comes to these records
depth first, looks at the fields of a record before it goes into them, and
stops at the first one that is hidden.
-/

namespace RecordMasking

theorem exists_result_of_mapM {ε α β : Type} {step : α → Except ε β}
    {items : List α} {results : List β}
    (hresults : items.mapM step = .ok results) {item : α}
    (hitem : item ∈ items) : ∃ result, step item = .ok result := by
  have hall := mapM_eq_ok_iff.mp hresults
  clear hresults
  induction hall with
  | nil => simp at hitem
  | cons hfirst _ ih =>
      rcases List.mem_cons.mp hitem with rfl | hlater
      · exact ⟨_, hfirst⟩
      · exact ih hlater

theorem mapM_cons_eq_error_iff {ε α β : Type} {step : α → Except ε β}
    {head : α} {rest : List α} {fault : ε} :
    (head :: rest).mapM step = .error fault ↔
      step head = .error fault ∨
        (∃ result, step head = .ok result) ∧
          rest.mapM step = .error fault := by
  rw [List.mapM_cons]
  cases step head with
  | error other => simp [bind, Except.bind]
  | ok result =>
      cases rest.mapM step <;> simp [bind, Except.bind, pure, Except.pure]

/-- A list is refused where one item is and none before it. -/
theorem mapM_eq_error_iff {ε α β : Type} {step : α → Except ε β}
    {items : List α} {fault : ε} :
    items.mapM step = .error fault ↔
      ∃ before item after, items = before ++ item :: after ∧
        (∀ other ∈ before, ∃ result, step other = .ok result) ∧
        step item = .error fault := by
  induction items with
  | nil => simp [pure, Except.pure]
  | cons head rest ih =>
      rw [mapM_cons_eq_error_iff, ih]
      constructor
      · rintro (hhead | ⟨hok, before, item, after, rfl, hbefore, hitem⟩)
        · exact ⟨[], head, rest, rfl, by simp, hhead⟩
        · exact ⟨head :: before, item, after, rfl,
            List.forall_mem_cons.mpr ⟨hok, hbefore⟩, hitem⟩
      · rintro ⟨before, item, after, hitems, hbefore, hitem⟩
        cases before with
        | nil =>
            obtain ⟨rfl, rfl⟩ := List.cons.inj hitems
            exact .inl hitem
        | cons first others =>
            obtain ⟨rfl, rfl⟩ := List.cons.inj hitems
            obtain ⟨hok, hothers⟩ := List.forall_mem_cons.mp hbefore
            exact .inr ⟨hok, others, item, after, rfl, hothers, hitem⟩

namespace Schema

variable {schema : Schema}

/-! ## Rebuilt records -/

/-- A field whose record is rebuilt. -/
structure Opens (schema : Schema) (paths : PathSet) (field : Field)
    (nested : QualifiedName) : Prop where
  plain : field.sensitive = false
  type_eq : field.type = .declared nested
  below : (paths.below field.name).isEmpty = false
  unmasked : schema.delegates nested = false

/-- The fields through which paths rebuild one record inside of another. -/
inductive Rebuilds (schema : Schema) :
    PathSet → QualifiedName → List Descent → QualifiedName → Prop
  | here {paths : PathSet} {type : QualifiedName} :
      Rebuilds schema paths type [] type
  | into {paths : PathSet} {owner nested stop : QualifiedName}
      {field : Field} {steps : List Descent}
      (hfield : field ∈ schema.fields owner)
      (hopens : schema.Opens paths field nested)
      (hrest : Rebuilds schema (paths.below field.name) nested steps stop) :
      Rebuilds schema paths owner (⟨field, nested⟩ :: steps) stop

/-- Every field on the way is plain, has a masked path strictly below it, and
does not hold a model that masks itself. -/
def OpenedBy (schema : Schema) (paths : List FieldPath)
    (steps : List Descent) : Prop :=
  ∀ before step after, steps = before ++ step :: after →
    step.field.sensitive = false ∧ schema.delegates step.type = false ∧
      ∃ path ∈ paths, Descent.path (before ++ [step]) <+: path ∧
        path ≠ Descent.path (before ++ [step])

theorem Rebuilds.openedBy {paths : PathSet} {owner stop : QualifiedName}
    {steps : List Descent}
    (hrebuilds : schema.Rebuilds paths owner steps stop) :
    schema.OpenedBy paths.toList steps := by
  induction hrebuilds with
  | here =>
      intro before step after hsteps
      simp at hsteps
  | @into paths owner nested stop field steps hfield hopens hrest ih =>
      intro before step after hsteps
      cases before with
      | nil =>
          obtain ⟨rfl, rfl⟩ := List.cons.inj hsteps
          obtain ⟨rest, hrest⟩ := PathSet.isEmpty_eq_false_iff.mp hopens.below
          obtain ⟨hne, hpath⟩ := PathSet.mem_below.mp hrest
          exact ⟨hopens.plain, hopens.unmasked, _, hpath, ⟨rest, rfl⟩,
            by simpa using hne⟩
      | cons first others =>
          obtain ⟨rfl, rfl⟩ := List.cons.inj hsteps
          obtain ⟨hplain, hunmasked, rest, hrest, hprefix, hne⟩ :=
            ih others step after rfl
          have hpath := (PathSet.mem_below.mp hrest).2
          refine ⟨hplain, hunmasked, _, hpath, ?_, ?_⟩
          · exact (List.prefix_cons_inj _).mpr hprefix
          · simpa using hne

theorem Walk.rebuilds {owner stop : QualifiedName} {steps : List Descent}
    (hwalk : schema.Walk owner steps stop) {paths : PathSet}
    (hopened : schema.OpenedBy paths.toList steps) :
    schema.Rebuilds paths owner steps stop := by
  induction hwalk generalizing paths with
  | here => exact .here
  | @down owner next stop field steps hfield htype hnext hrest ih =>
      obtain ⟨hplain, hunmasked, path, hpath, hprefix, hne⟩ :=
        hopened [] ⟨field, next⟩ steps rfl
      have hbelow : (paths.below field.name).isEmpty = false := by
        obtain ⟨rest, rfl⟩ := hprefix
        refine PathSet.isEmpty_eq_false_iff.mpr ⟨rest, ?_⟩
        refine PathSet.mem_below.mpr ⟨?_, hpath⟩
        rintro rfl
        exact hne rfl
      refine .into hfield ⟨hplain, htype, hbelow, hunmasked⟩ (ih ?_)
      intro before step after hsteps
      obtain ⟨hplain, hunmasked, path, hpath, hprefix, hne⟩ :=
        hopened (⟨field, next⟩ :: before) step after (by rw [hsteps]; rfl)
      obtain ⟨rest, rfl⟩ := hprefix
      refine ⟨hplain, hunmasked, Descent.path (before ++ [step]) ++ rest, ?_,
        List.prefix_append _ _, ?_⟩
      · exact PathSet.mem_below.mpr ⟨by simp [Descent.path], hpath⟩
      · intro heq
        exact hne (congrArg (List.cons field.name) heq)

theorem Rebuilds.walk (hdistinct : schema.DistinctNames)
    {onPath : List QualifiedName} {owner stop : QualifiedName}
    {steps : List Descent}
    (hrebuilds : schema.Rebuilds (schema.resolveOnPath owner onPath).paths
      owner steps stop) :
    schema.Walk owner steps stop := by
  generalize hpaths : (schema.resolveOnPath owner onPath).paths = paths
    at hrebuilds
  induction hrebuilds generalizing onPath with
  | here => exact .here
  | @into paths owner nested stop field steps hfield hopens hrest ih =>
      obtain rfl := hpaths
      obtain ⟨next, hnext, hoff, hdeclared⟩ :=
        exists_descent_of_below hdistinct hfield hopens.below
      obtain rfl : nested = next := by simpa [hopens.type_eq] using hnext
      exact .down hfield hnext hdeclared
        (ih (below_paths hdistinct hfield hnext hoff hdeclared).symm)

/-! ## Offences -/

/-- The first field of a record that a package cannot name. -/
def hidden? (schema : Schema) (package : Package) (type : QualifiedName) :
    Option Field :=
  (schema.fields type).find? fun field => !field.visibleFrom package

def Hides (schema : Schema) (package : Package) (type : QualifiedName) :
    Prop :=
  ∃ field ∈ schema.fields type, field.visibleFrom package = false

theorem hides_iff {package : Package} {type : QualifiedName} :
    schema.Hides package type ↔
      ∃ hidden, schema.hidden? package type = some hidden := by
  rw [← Option.isSome_iff_exists, hidden?, List.find?_isSome]
  simp [Hides]

theorem checkVisible_eq (root : QualifiedName) {nested : QualifiedName}
    (hnested : (schema.lookup nested).isSome) :
    schema.checkVisible root nested =
      match schema.hidden? root.package nested with
      | some hidden =>
          .error (.unsupportedType root
            (.hiddenField hidden.name.display nested))
      | none => .ok () := by
  obtain ⟨declaration, hlookup⟩ := Option.isSome_iff_exists.mp hnested
  rw [checkVisible, declarationOf_eq_ok_iff.mpr hlookup, hidden?,
    fields_of_lookup hlookup]
  rfl

/-- A record that would be rebuilt for `root` hides a field from it. -/
structure Offends (schema : Schema) (root : QualifiedName) (paths : PathSet)
    (owner : QualifiedName) (steps : List Descent) (stop : QualifiedName) :
    Prop where
  rebuilds : schema.Rebuilds paths owner steps stop
  proper : steps ≠ []
  hides : schema.Hides root.package stop

variable {root owner : QualifiedName} {paths : PathSet}

theorem Opens.unique {field : Field} {one next : QualifiedName}
    (hone : schema.Opens paths field one)
    (hnext : schema.Opens paths field next) : one = next := by
  simpa [hone.type_eq] using hnext.type_eq

theorem Offends.exists_step {steps : List Descent} {stop : QualifiedName}
    (hoffends : schema.Offends root paths owner steps stop) :
    ∃ field ∈ schema.fields owner, ∃ nested rest,
      steps = ⟨field, nested⟩ :: rest ∧ schema.Opens paths field nested ∧
        schema.Rebuilds (paths.below field.name) nested rest stop := by
  obtain ⟨hrebuilds, hproper, hhides⟩ := hoffends
  cases hrebuilds with
  | here => exact absurd rfl hproper
  | into hfield hopens hrest =>
      exact ⟨_, hfield, _, _, rfl, hopens, hrest⟩

/-- What a walk from `owner` finds: a table where nothing offends, and else
the refusal that names the first offence. -/
inductive Finds {α : Type} (schema : Schema) (root : QualifiedName)
    (paths : PathSet) (owner : QualifiedName)
    (within : List Descent → Prop) : Except Fault α → Prop
  | nothing {result : α}
      (hnone : ∀ steps stop, within steps →
        ¬ schema.Offends root paths owner steps stop) :
      Finds schema root paths owner within (.ok result)
  | offence {steps : List Descent} {stop : QualifiedName} {hidden : Field}
      (hwithin : within steps)
      (hoffends : schema.Offends root paths owner steps stop)
      (hhidden : schema.hidden? root.package stop = some hidden)
      (hfirst : ∀ other last, within other →
        schema.Offends root paths owner other last → other = steps ∨
          schema.Precedes owner (Descent.path steps) (Descent.path other)) :
      Finds schema root paths owner within
        (.error (.unsupportedType root
          (.hiddenField hidden.name.display stop)))

/-- Steps whose first one goes through a field. -/
def StartsAt (field : Field) (steps : List Descent) : Prop :=
  ∃ nested rest, steps = ⟨field, nested⟩ :: rest

theorem decideField_of_opens {field : Field} {nested : QualifiedName}
    (hopens : schema.Opens paths field nested) :
    schema.decideField root paths field = do
      schema.checkVisible root nested
      let table ← schema.decideFrom root nested (paths.below field.name)
      return (field.name, .rebuild table.type table.entries) := by
  simp [decideField, hopens.plain, hopens.type_eq, hopens.below,
    hopens.unmasked]

theorem decideField_of_not_opens {field : Field}
    (hcloses : ∀ nested, ¬ schema.Opens paths field nested) :
    ∃ entry, schema.decideField root paths field = .ok entry := by
  unfold decideField
  split
  next => exact ⟨_, rfl⟩
  next hplain =>
    split
    next nested htype =>
      split
      next hbelow =>
        split
        next => exact ⟨_, rfl⟩
        next hdelegates =>
          exact absurd ⟨by simpa using hplain, htype, hbelow,
            by simpa using hdelegates⟩ (hcloses nested)
      next => exact ⟨_, rfl⟩
    next => exact ⟨_, rfl⟩

section OneField

variable {field : Field} {nested : QualifiedName}

/-- What offends through a field is its record or lies in it. -/
theorem Offends.exists_rest {steps : List Descent} {stop : QualifiedName}
    (hoffends : schema.Offends root paths owner steps stop)
    (hopens : schema.Opens paths field nested) (hthrough : StartsAt field steps) :
    ∃ rest, steps = ⟨field, nested⟩ :: rest ∧
      schema.Rebuilds (paths.below field.name) nested rest stop := by
  obtain ⟨_, _, rfl⟩ := hthrough
  obtain ⟨found, _, next, rest, hsteps, hnext, hrest⟩ := hoffends.exists_step
  obtain ⟨hstep, rfl⟩ := List.cons.inj hsteps
  obtain ⟨rfl, rfl⟩ := Descent.mk.inj hstep
  obtain rfl := hopens.unique hnext
  exact ⟨_, rfl, hrest⟩

/-- A record that hides a field offends before anything in it. -/
theorem finds_of_hidden {α : Type} (hfield : field ∈ schema.fields owner)
    (hopens : schema.Opens paths field nested) {hidden : Field}
    (hhidden : schema.hidden? root.package nested = some hidden) :
    schema.Finds (α := α) root paths owner (StartsAt field)
      (.error (.unsupportedType root
        (.hiddenField hidden.name.display nested))) := by
  refine .offence ⟨nested, [], rfl⟩ ⟨.into hfield hopens .here, by simp,
    hides_iff.mpr ⟨hidden, hhidden⟩⟩ hhidden ?_
  intro other last hthrough hoffends
  obtain ⟨rest, rfl, _⟩ := hoffends.exists_rest hopens hthrough
  cases rest with
  | nil => exact .inl rfl
  | cons next others => exact .inr .above

/-- Where the record itself hides nothing, what is found in it counts. -/
theorem Finds.through {α : Type} (hfield : field ∈ schema.fields owner)
    (hopens : schema.Opens paths field nested)
    (hshown : ¬ schema.Hides root.package nested) {result : Except Fault α}
    (hfinds : schema.Finds root (paths.below field.name) nested
      (fun _ => True) result) {β : Type} (wrap : α → β) :
    schema.Finds root paths owner (StartsAt field) do
      let found ← result
      return wrap found := by
  have hinside : ∀ {rest last},
      schema.Offends root paths owner (⟨field, nested⟩ :: rest) last →
      schema.Rebuilds (paths.below field.name) nested rest last →
      schema.Offends root (paths.below field.name) nested rest last := by
    intro rest last hoffends hrest
    refine ⟨hrest, ?_, hoffends.hides⟩
    rintro rfl
    cases hrest
    exact hshown hoffends.hides
  cases hfinds with
  | nothing hnone =>
      refine .nothing fun other last hthrough hoffends => ?_
      obtain ⟨rest, rfl, hrest⟩ := hoffends.exists_rest hopens hthrough
      exact hnone rest last trivial (hinside hoffends hrest)
  | @offence steps stop hidden _ hoffends hhidden hfirst =>
      refine .offence ⟨nested, steps, rfl⟩
        ⟨.into hfield hopens hoffends.rebuilds, by simp, hoffends.hides⟩
        hhidden ?_
      intro other last hthrough hother
      obtain ⟨rest, rfl, hrest⟩ := hother.exists_rest hopens hthrough
      rcases hfirst rest last trivial (hinside hother hrest) with
        hsame | hlater
      · exact .inl (by rw [hsame])
      · exact .inr (.inside hfield hopens.type_eq hlater)

/-- Nothing offends through a field that is not rebuilt. -/
theorem finds_of_not_opens {α : Type} (result : α)
    (hcloses : ∀ nested, ¬ schema.Opens paths field nested) :
    schema.Finds root paths owner (StartsAt field) (.ok result) := by
  refine .nothing fun steps stop hthrough hoffends => ?_
  obtain ⟨_, _, rfl⟩ := hthrough
  obtain ⟨found, _, next, rest, hsteps, hnext, _⟩ := hoffends.exists_step
  obtain ⟨hstep, _⟩ := List.cons.inj hsteps
  obtain ⟨rfl, rfl⟩ := Descent.mk.inj hstep
  exact hcloses _ hnext

/-- One field: the record itself is looked at before anything in it. -/
theorem finds_decideField (hfield : field ∈ schema.fields owner)
    (hinner : ∀ nested, schema.Opens paths field nested →
      (schema.lookup nested).isSome ∧
        schema.Finds root (paths.below field.name) nested (fun _ => True)
          (schema.decideFrom root nested (paths.below field.name))) :
    schema.Finds root paths owner (StartsAt field)
      (schema.decideField root paths field) := by
  by_cases hopen : ∃ nested, schema.Opens paths field nested
  · obtain ⟨nested, hopens⟩ := hopen
    obtain ⟨hnested, hfinds⟩ := hinner nested hopens
    rw [decideField_of_opens hopens, checkVisible_eq root hnested]
    cases hhidden : schema.hidden? root.package nested with
    | some hidden => exact finds_of_hidden hfield hopens hhidden
    | none =>
        have hshown : ¬ schema.Hides root.package nested := by
          rw [hides_iff, hhidden]
          simp
        exact hfinds.through hfield hopens hshown fun table =>
          (field.name, Decision.rebuild table.type table.entries)
  · rw [not_exists] at hopen
    obtain ⟨entry, hentry⟩ :
        ∃ entry, schema.decideField root paths field = .ok entry :=
      decideField_of_not_opens hopen
    rw [hentry]
    exact finds_of_not_opens entry hopen

end OneField

theorem decideFrom_of_isSome (howner : (schema.lookup owner).isSome) :
    schema.decideFrom root owner paths = do
      let entries ←
        (schema.fields owner).mapM (schema.decideField root paths)
      return ⟨owner, entries⟩ := by
  obtain ⟨declaration, hlookup⟩ := Option.isSome_iff_exists.mp howner
  rw [decideFrom_eq, declarationOf_eq_ok_iff.mpr hlookup,
    fields_of_lookup hlookup]
  rfl

/-- Ways through an earlier field come before ways through a later one. -/
theorem precedes_of_split {before after : List Field} {field later : Field}
    (hsplit : schema.fields owner = before ++ field :: after)
    (hlater : later ∈ after) (next last : QualifiedName)
    (steps others : List Descent) :
    schema.Precedes owner (Descent.path (⟨field, next⟩ :: steps))
      (Descent.path (⟨later, last⟩ :: others)) := by
  have hnames : [field.name, later.name].Sublist
      ((schema.fields owner).map Field.name) := by
    rw [hsplit, List.map_append, List.map_cons]
    refine (List.Sublist.cons_cons field.name ?_).trans
      (List.sublist_append_right _ _)
    exact List.singleton_sublist.mpr (List.mem_map_of_mem hlater)
  rw [Descent.path_cons, Descent.path_cons]
  exact .beside hnames

/-- All fields of a record: the first one that fails has the first offence,
since no field before it has any. -/
theorem finds_decideFrom (howner : (schema.lookup owner).isSome)
    (hfields : ∀ field ∈ schema.fields owner,
      schema.Finds root paths owner (StartsAt field)
        (schema.decideField root paths field)) :
    schema.Finds root paths owner (fun _ => True)
      (schema.decideFrom root owner paths) := by
  rw [decideFrom_of_isSome howner]
  have hquiet : ∀ field ∈ schema.fields owner, ∀ entry,
      schema.decideField root paths field = .ok entry →
      ∀ steps stop, StartsAt field steps →
        ¬ schema.Offends root paths owner steps stop := by
    intro field hfield entry hentry
    have hfinds := hfields field hfield
    rw [hentry] at hfinds
    cases hfinds with
    | nothing hnone => exact hnone
  cases hentries :
      (schema.fields owner).mapM (schema.decideField root paths) with
  | ok entries =>
      refine .nothing fun steps stop _ hoffends => ?_
      obtain ⟨field, hfield, nested, rest, hsteps, _, _⟩ :=
        hoffends.exists_step
      obtain ⟨entry, hentry⟩ := exists_result_of_mapM hentries hfield
      exact hquiet field hfield entry hentry steps stop
        ⟨nested, rest, hsteps⟩ hoffends
  | error fault =>
      obtain ⟨before, field, after, hsplit, hbefore, hfault⟩ :=
        mapM_eq_error_iff.mp hentries
      have hfield : field ∈ schema.fields owner := by simp [hsplit]
      have hfinds := hfields field hfield
      rw [hfault] at hfinds
      cases hfinds with
      | @offence steps stop hidden hthrough hoffends hhidden hfirst =>
          refine .offence trivial hoffends hhidden ?_
          intro other last _ hother
          obtain ⟨found, hfound, nested, rest, hsteps, _, _⟩ :=
            hother.exists_step
          rw [hsplit, List.mem_append, List.mem_cons] at hfound
          rcases hfound with hearlier | rfl | hlater
          · obtain ⟨entry, hentry⟩ := hbefore found hearlier
            exact absurd hother
              (hquiet found (by simp [hsplit, hearlier]) entry hentry other
                last ⟨nested, rest, hsteps⟩)
          · exact hfirst other last ⟨nested, rest, hsteps⟩ hother
          · obtain ⟨next, others, rfl⟩ := hthrough
            rw [hsteps]
            exact .inr (precedes_of_split hsplit hlater _ _ _ _)

/-- Where paths were resolved, only hidden fields are in the way of a
table. -/
theorem finds_of_resolved (hdistinct : schema.DistinctNames)
    (root : QualifiedName) (onPath : List QualifiedName)
    (owner : QualifiedName) (howner : (schema.lookup owner).isSome) :
    schema.Finds root (schema.resolveOnPath owner onPath).paths owner
      (fun _ => True)
      (schema.decideFrom root owner
        (schema.resolveOnPath owner onPath).paths) := by
  induction onPath, owner using descent_induction schema with
  | hstep onPath owner ih =>
      refine finds_decideFrom howner fun field hfield => ?_
      refine finds_decideField hfield fun nested hopens => ?_
      obtain ⟨next, hnext, hoff, hdeclared⟩ :=
        exists_descent_of_below hdistinct hfield hopens.below
      obtain rfl : nested = next := by simpa [hopens.type_eq] using hnext
      refine ⟨hdeclared, ?_⟩
      rw [below_paths hdistinct hfield hnext hoff hdeclared]
      exact ih field hfield nested hnext hoff hdeclared hdeclared

/-! ## Refusals of a model -/

/-- A record that a table of `root` would rebuild at the end of the given
way. -/
structure Exposes (schema : Schema) (root : QualifiedName)
    (steps : List Descent) (stop : QualifiedName) : Prop where
  walk : schema.Walk root steps stop
  proper : steps ≠ []
  opened : schema.OpenedBy (schema.resolve root).paths.toList steps

theorem offends_iff_exposes (hdistinct : schema.DistinctNames)
    {root stop : QualifiedName} {steps : List Descent} :
    schema.Offends root (schema.resolve root).paths root steps stop ↔
      schema.Exposes root steps stop ∧ schema.Hides root.package stop := by
  constructor
  · rintro ⟨hrebuilds, hproper, hhides⟩
    exact ⟨⟨hrebuilds.walk hdistinct, hproper, hrebuilds.openedBy⟩, hhides⟩
  · rintro ⟨⟨hwalk, hproper, hopened⟩, hhides⟩
    exact ⟨hwalk.rebuilds hopened, hproper, hhides⟩

/-- Hidden fields alone decide whether a model has a table. -/
structure HiddenFieldsDecide (schema : Schema) (root : QualifiedName)
    (verdict : Except Fault MaskTable) : Prop where
  never_unknown : ∀ id, verdict ≠ .error (.unknownType id)
  refused_iff : (∃ fault, verdict = .error fault) ↔
    ∃ steps stop, schema.Exposes root steps stop ∧
      schema.Hides root.package stop
  /-- A refusal names the first hidden field of the record that a walk in
  depth-first order comes to first. -/
  names_first : ∀ fault, verdict = .error fault →
    ∃ steps stop hidden, schema.Exposes root steps stop ∧
      schema.hidden? root.package stop = some hidden ∧
      fault = .unsupportedType root (.hiddenField hidden.name.display stop) ∧
      ∀ other last, schema.Exposes root other last →
        schema.Hides root.package last → other = steps ∨
          schema.Precedes root (Descent.path steps) (Descent.path other)
  rebuilt_visible : ∀ table, verdict = .ok table →
    ∀ place nested inner, EntryAt table.entries place (.rebuild nested inner) →
      ∀ field ∈ schema.fields nested, field.visibleFrom root.package = true

theorem Resolved.rebuilt_visible (hdistinct : schema.DistinctNames)
    {root type : QualifiedName} {onPath : List QualifiedName}
    {entries : List (FieldName × Decision)}
    (hresolved : schema.Resolved root type onPath entries)
    {place : FieldPath} {nested : QualifiedName}
    {inner : List (FieldName × Decision)}
    (hat : EntryAt entries place (.rebuild nested inner)) :
    ∀ field ∈ schema.fields nested, field.visibleFrom root.package = true := by
  obtain ⟨_, _, _, _, _, _, hdecides, _⟩ := hresolved.locate hdistinct hat
  cases hdecides with
  | rebuild _ _ _ _ hvisible htable =>
      rw [checkVisible_eq root (isSome_lookup_of_decideFrom htable)]
        at hvisible
      intro field hfield
      cases hhidden : schema.hidden? root.package nested with
      | some hidden => simp [hhidden] at hvisible
      | none => simpa using List.find?_eq_none.mp hhidden field hfield

/-- A declared type has a table for its masked paths unless a record that is
rebuilt for it hides a field from its package, and the refusal names the first
such record and its first hidden field. -/
theorem refused_just_for_hidden_fields (hdistinct : schema.DistinctNames)
    {type : QualifiedName} (htype : (schema.lookup type).isSome) :
    schema.HiddenFieldsDecide type
      (schema.decide type (schema.resolve type).paths) := by
  have hfinds := finds_of_resolved hdistinct type [type] type htype
  have hvisible : ∀ table,
      schema.decide type (schema.resolve type).paths = .ok table →
      ∀ place nested inner,
        EntryAt table.entries place (.rebuild nested inner) →
        ∀ field ∈ schema.fields nested,
          field.visibleFrom type.package = true := by
    intro table htable place nested inner hat
    have hresolved : schema.Resolved type type [type] table.entries :=
      entriesFit_of_decideFrom htable
    exact hresolved.rebuilt_visible hdistinct hat
  rw [← resolve, ← decide] at hfinds
  generalize schema.decide type (schema.resolve type).paths = verdict
    at hfinds hvisible
  cases hfinds with
  | nothing hnone =>
      refine ⟨by simp, ?_, by simp, hvisible⟩
      refine iff_of_false (by simp) ?_
      rintro ⟨steps, stop, hexposed⟩
      exact hnone steps stop trivial
        ((offends_iff_exposes hdistinct).mpr hexposed)
  | @offence steps stop hidden _ hoffends hhidden hfirst =>
      have hexposed := (offends_iff_exposes hdistinct).mp hoffends
      refine ⟨by simp, ?_, ?_, hvisible⟩
      · exact iff_of_true ⟨_, rfl⟩ ⟨steps, stop, hexposed⟩
      · intro fault hfault
        refine ⟨steps, stop, hidden, hexposed.1, hhidden,
          (Except.error.inj hfault).symm, ?_⟩
        intro other last hother hhides
        exact hfirst other last trivial
          ((offends_iff_exposes hdistinct).mpr ⟨hother, hhides⟩)

open Samples in
/-- The card in the customer's wallet is rebuilt, and its number is only seen
in the vault; nothing that is rebuilt for the first model is hidden. -/
theorem customer_refused_for_hidden_field :
    vaults.DistinctNames ∧ (vaults.lookup customer.id).isSome ∧
      vaults.decide customer.id (vaults.resolve customer.id).paths =
        .error (.unsupportedType customer.id
          (.hiddenField "number" ⟨"models::vault", "Card"⟩)) ∧
      (∃ steps, vaults.Exposes customer.id steps ⟨"models::vault", "Card"⟩) ∧
      Samples.schema.DistinctNames ∧
      (Samples.schema.lookup a1.id).isSome ∧
      ¬ ∃ steps stop, Samples.schema.Exposes a1.id steps stop ∧
        Samples.schema.Hides a1.id.package stop := by
  have hvaults : vaults.DistinctNames := by decide
  have hcustomer : (vaults.lookup customer.id).isSome := by decide
  have hrefused : vaults.decide customer.id
      (vaults.resolve customer.id).paths =
        .error (.unsupportedType customer.id
          (.hiddenField "number" ⟨"models::vault", "Card"⟩)) := by
    cases hverdict : vaults.decide customer.id
        (vaults.resolve customer.id).paths with
    | ok table =>
        have hfails : (vaults.decide customer.id
            (vaults.resolve customer.id).paths).toBool = false := by
          decide +kernel
        rw [hverdict] at hfails
        cases hfails
    | error fault =>
        have hfault : (vaults.decide customer.id
            (vaults.resolve customer.id).paths).map (fun _ => ()) =
              .error (.unsupportedType customer.id
                (.hiddenField "number" ⟨"models::vault", "Card"⟩)) := by
          decide +kernel
        rw [hverdict] at hfault
        exact congrArg Except.error (Except.error.inj hfault)
  obtain ⟨steps, stop, hidden, hexposed, _, hfault, _⟩ :=
    (refused_just_for_hidden_fields hvaults hcustomer).names_first _ hrefused
  obtain rfl : ⟨"models::vault", "Card"⟩ = stop := by
    injection hfault with _ hrefusal
    exact (Refusal.hiddenField.inj hrefusal).2
  have hdistinct : Samples.schema.DistinctNames := by decide
  have hfirst : (Samples.schema.lookup a1.id).isSome := by decide
  have hdecided : (Samples.schema.decide a1.id
      (Samples.schema.resolve a1.id).paths).toBool = true := by
    decide +kernel
  refine ⟨hvaults, hcustomer, hrefused, ⟨steps, hexposed⟩, hdistinct, hfirst,
    fun hoffence => ?_⟩
  obtain ⟨fault, hfails⟩ :=
    (refused_just_for_hidden_fields hdistinct hfirst).refused_iff.mpr hoffence
  rw [hfails] at hdecided
  cases hdecided

end Schema

end RecordMasking
