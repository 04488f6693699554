import RecordMasking.Proofs.WrittenRecord

/-!
# Objects of JSON in any layout

The text of an object leaves choices: blanks around every token, the order of
the members, and the spellings of names and strings.  Whatever is chosen, a
record of strings that can be left out is read as the members of the object,
if each of these is known and there once; and as soon as one is not, nothing
that stands behind its name keeps the reading from failing.
-/

namespace RecordMasking.Json

/-! ## Layout -/

abbrev Blanks := { blanks : List Char // AreBlank blanks }

/-- A text with one of its spellings. -/
structure SpelledText where
  text : String
  spelling : List Char
  spells : Spells text.toList spelling

/-- The value of a member: a string, or a text that begins like no string, as
those of all other values do. -/
inductive ValueText where
  | string (content : SpelledText)
  | other (first : Char) (rest : List Char) (hblank : isBlank first = false)
      (hquote : first ≠ '"')

/-- The parts of a member, and the blanks before and behind each of them. -/
structure MemberText where
  name : SpelledText
  value : ValueText
  beforeName : Blanks
  behindName : Blanks
  beforeValue : Blanks
  behindValue : Blanks

/-- The members of an object, and the blanks before and behind its braces. -/
structure ObjectText where
  members : List MemberText
  before : Blanks
  beforeClosing : Blanks
  behind : Blanks

def SpelledText.chars (content : SpelledText) : List Char :=
  '"' :: (content.spelling ++ ['"'])

namespace ValueText

def chars : ValueText → List Char
  | .string content => content.chars
  | .other first rest _ _ => first :: rest

def string? : ValueText → Option String
  | .string content => some content.text
  | .other _ _ _ _ => none

end ValueText

namespace MemberText

def chars (member : MemberText) : List Char :=
  member.beforeName.val ++ member.name.chars ++ (member.behindName.val ++
    ':' :: (member.beforeValue.val ++ member.value.chars ++
      member.behindValue.val))

/-- The name, and the value if it is a string. -/
def entry (member : MemberText) : String × Option String :=
  (member.name.text, member.value.string?)

end MemberText

namespace ObjectText

def chars (object : ObjectText) : List Char :=
  object.before.val ++ '\x7b' ::
    (separated [] true (object.members.map MemberText.chars) ++
      (object.beforeClosing.val ++ '\x7d' :: object.behind.val))

def text (object : ObjectText) : String := String.ofList object.chars

def entries (object : ObjectText) : List (String × Option String) :=
  object.members.map MemberText.entry

def names (object : ObjectText) : List String :=
  object.entries.map Prod.fst

end ObjectText

/-! ## Names -/

/-- Known names, each once and none of them found before. -/
structure Admits (known found names : List String) : Prop where
  known : ∀ name ∈ names, name ∈ known
  new : ∀ name ∈ names, name ∉ found
  nodup : names.Nodup

theorem admits_nil (known found : List String) : Admits known found [] :=
  ⟨List.forall_mem_nil _, List.forall_mem_nil _, List.nodup_nil⟩

theorem admits_cons_iff {known found names : List String} {name : String} :
    Admits known found (name :: names) ↔
      name ∈ known ∧ name ∉ found ∧ Admits known (found ++ [name]) names := by
  constructor
  · rintro ⟨hknown, hnew, hnodup⟩
    rw [List.forall_mem_cons] at hknown hnew
    rw [List.nodup_cons] at hnodup
    refine ⟨hknown.1, hnew.1, hknown.2, fun other hother hfound => ?_,
      hnodup.2⟩
    rw [List.mem_append, List.mem_singleton] at hfound
    rcases hfound with hold | rfl
    · exact hnew.2 other hother hold
    · exact hnodup.1 hother
  · rintro ⟨hfirst, hfree, hknown, hnew, hnodup⟩
    refine ⟨List.forall_mem_cons.mpr ⟨hfirst, hknown⟩,
      List.forall_mem_cons.mpr ⟨hfree, fun other hother hold => ?_⟩,
      List.nodup_cons.mpr ⟨fun hmem => ?_, hnodup⟩⟩
    · exact hnew other hother (List.mem_append_left _ hold)
    · exact hnew name hmem (List.mem_append_right _ (List.mem_singleton_self _))

namespace JsonReader

variable {α β : Type}

/-! ## Readers that fail -/

def Fails (reader : JsonReader α) (input : List Char) : Prop :=
  ∃ fault, reader input = .error fault

theorem fails_fail (fault : JsonFault) (input : List Char) :
    Fails (fail fault : JsonReader α) input :=
  ⟨fault, rfl⟩

theorem fails_bind_of_eq {reader : JsonReader α} {after : α → JsonReader β}
    {input rest : List Char} {value : α}
    (hreader : reader input = .ok (value, rest))
    (hafter : Fails (after value) rest) : Fails (reader >>= after) input := by
  unfold Fails
  rw [bind_of_eq hreader]
  exact hafter

theorem Fails.bind {reader : JsonReader α} {input : List Char}
    (hreader : Fails reader input) (after : α → JsonReader β) :
    Fails (reader >>= after) input := by
  obtain ⟨fault, hfault⟩ := hreader
  refine ⟨fault, ?_⟩
  show (reader input >>= fun found => after found.1 found.2) = _
  rw [hfault]
  rfl

theorem fails_bind (reader : JsonReader α) {after : α → JsonReader β}
    (hafter : ∀ value rest, Fails (after value) rest) (input : List Char) :
    Fails (reader >>= after) input := by
  cases hreader : reader input with
  | error fault => exact Fails.bind ⟨fault, hreader⟩ after
  | ok found => exact fails_bind_of_eq hreader (hafter found.1 found.2)

theorem fails_refuse (wanted : String) (input : List Char) :
    Fails (refuse wanted : JsonReader α) input := by
  have hcomplains : ∀ {γ : Type} (found : JsonReader γ)
      (fault : γ → JsonFault) (rest : List Char),
      Fails (found >>= fun value => (fail (fault value) : JsonReader α)) rest :=
    fun found fault => fails_bind found fun value => fails_fail (fault value)
  unfold refuse
  refine fails_bind _ (fun c rest => ?_) input
  split
  next => exact hcomplains _ _ rest
  next => exact hcomplains _ _ rest
  next => exact hcomplains _ _ rest
  next => exact fails_bind _ (fun _ => hcomplains _ _) rest
  next => exact fails_bind _ (fun _ => hcomplains _ _) rest
  next => exact fails_fail _ rest
  next => exact fails_fail _ rest
  next =>
    split
    next => exact hcomplains _ _ rest
    next => exact fails_fail _ rest
  next => exact fails_fail _ rest

/-- Whatever begins like no string is refused where one is wanted. -/
theorem fails_textAs (wanted : String) {blanks : List Char}
    (hblanks : AreBlank blanks) {c : Char} (hblank : isBlank c = false)
    (hquote : c ≠ '"') (rest : List Char) :
    Fails (textAs wanted) (blanks ++ c :: rest) := by
  unfold textAs
  refine fails_bind_of_eq (next_eq hblanks hblank rest) ?_
  split
  next hnone => cases hnone
  next hsome => exact absurd (Option.some.inj hsome) hquote
  next => exact fails_refuse wanted _

/-! ## Blanks in front -/

theorem next_blank {blanks : List Char} (hblanks : AreBlank blanks)
    (input : List Char) : next (blanks ++ input) = next input := by
  unfold next
  rw [List.dropWhile_append_of_pos hblanks]

theorem bind_congr_input {reader : JsonReader α} {input other : List Char}
    (hsame : reader input = reader other) (after : α → JsonReader β) :
    (reader >>= after) input = (reader >>= after) other := by
  show (reader input >>= fun found => after found.1 found.2) = _
  rw [hsame]
  rfl

theorem named_blank (shape : RecordShape α) (fuel : Nat) (first : Bool)
    (found : Members α) {blanks : List Char} (hblanks : AreBlank blanks)
    (input : List Char) :
    named shape fuel first found (blanks ++ input) =
      named shape fuel first found input := by
  cases fuel with
  | zero => rfl
  | succ fuel =>
      have helement : hasElement first '\x7d' (blanks ++ input) =
          hasElement first '\x7d' input :=
        bind_congr_input (next_blank hblanks input) _
      exact bind_congr_input helement _

/-! ## Members -/

section Members

variable {shape : RecordShape String} {wanted : String}

theorem isSome_lookup_iff {found : Members α} {name : String} :
    (found.lookup name).isSome = true ↔ name ∈ found.map Prod.fst := by
  rw [List.lookup_isSome_iff, List.mem_map]
  refine exists_congr fun entry => and_congr_right fun _ => ?_
  rw [beq_iff_eq, eq_comm]

/-- A member is refused by its name, or its value is read next. -/
theorem named_member (shape : RecordShape String) (member : MemberText)
    (first : Bool) (fuel : Nat) (found : Members String)
    (tail : List Char) :
    named shape (fuel + 1) first found
        ((if first then [] else [',']) ++ [] ++ member.chars ++ tail) =
      if member.name.text ∈ shape.names then
        if member.name.text ∈ found.map Prod.fst then
          .error
            (.unsuitable ("duplicate field `" ++ member.name.text ++ "`"))
        else
          (do
            let value ← shape.value member.name.text
            named shape fuel false (found ++ [(member.name.text, value)]))
            (member.beforeValue.val ++ member.value.chars ++
              (member.behindValue.val ++ tail))
      else
        (do
          shape.unknown member.name.text
          named shape fuel false found)
          (member.behindName.val ++ ':' :: (member.beforeValue.val ++
            member.value.chars ++ member.behindValue.val) ++ tail) := by
  -- A member has its own blanks, none are put before it.
  have hinput : (if first then [] else [',']) ++ [] ++ member.chars ++ tail =
      (if first then [] else [',']) ++ member.beforeName.val ++
        ('"' :: (member.name.spelling ++ ['"'])) ++
          (member.behindName.val ++ ':' :: (member.beforeValue.val ++
            member.value.chars ++ member.behindValue.val) ++ tail) := by
    simp [MemberText.chars, SpelledText.chars]
  rw [hinput, named_of_name shape member.name.spells member.beforeName.property]
  by_cases hknown : member.name.text ∈ shape.names
  · by_cases hold : member.name.text ∈ found.map Prod.fst
    · simp only [hknown, hold, isSome_lookup_iff.mpr hold,
        List.contains_iff_mem.mpr hknown, Bool.not_true, Bool.false_eq_true,
        if_false, if_true]
      rfl
    · have hfree := lookup_eq_none_of_not_mem hold
      simp only [hknown, hold, hfree, List.contains_iff_mem.mpr hknown,
        Bool.not_true, Bool.false_eq_true, if_false, if_true,
        Option.isSome_none]
      rw [List.append_assoc, List.cons_append]
      apply (bind_of_eq (colon_eq member.behindName.property _)).trans
      simp only [List.append_assoc]
  · have hmissing : shape.names.contains member.name.text = false := by
      simpa using hknown
    simp only [hknown, hmissing, Bool.not_false, if_false, if_true]

theorem named_string (hvalue : ∀ name, shape.value name = textAs wanted)
    {member : MemberText} {content : SpelledText}
    (hstring : member.value = .string content) {found : Members String}
    (hknown : member.name.text ∈ shape.names)
    (hnew : member.name.text ∉ found.map Prod.fst) (first : Bool) (fuel : Nat)
    (tail : List Char) :
    named shape (fuel + 1) first found
        ((if first then [] else [',']) ++ [] ++ member.chars ++ tail) =
      named shape fuel false (found ++ [(member.name.text, content.text)])
        tail := by
  have hread := reads_textAs_spelled wanted content.spells
    member.beforeValue.property (member.behindValue.val ++ tail)
  rw [named_member, if_pos hknown, if_neg hnew, hvalue, hstring]
  apply (bind_of_eq hread).trans
  exact named_blank shape fuel false _ member.behindValue.property tail

theorem named_strings (hvalue : ∀ name, shape.value name = textAs wanted)
    {members : List MemberText} {entries : Members String}
    (hentries : members.map MemberText.entry =
      entries.map fun entry => (entry.1, some entry.2))
    {found : Members String}
    (hadmits : Admits shape.names (found.map Prod.fst)
      (entries.map Prod.fst))
    {ending : List Char} (hending : AreBlank ending) (first : Bool)
    {fuel : Nat} (hfuel : members.length < fuel) (rest : List Char) :
    named shape fuel first found
        (separated [] first (members.map MemberText.chars) ++
          (ending ++ '\x7d' :: rest)) =
      .ok (found ++ entries, '\x7d' :: rest) := by
  induction members generalizing entries found first fuel with
  | nil =>
      obtain rfl : entries = [] := by simpa using hentries.symm
      obtain ⟨left, rfl⟩ := Nat.exists_eq_add_one.mpr hfuel
      have hend := hasElement_closing hending (by decide : isBlank '\x7d' = false)
        first rest
      simp only [List.map_nil, separated, List.nil_append, named]
      rw [bind_of_eq hend]
      simp [pure_eq]
  | cons member others ih =>
      cases entries with
      | nil => simp at hentries
      | cons entry later =>
          obtain ⟨left, rfl⟩ :=
            Nat.exists_eq_add_one.mpr (Nat.zero_lt_of_lt hfuel)
          rw [List.map_cons, List.map_cons, List.cons.injEq] at hentries
          obtain ⟨hentry, hothers⟩ := hentries
          obtain ⟨hname, hcontent⟩ := Prod.mk.inj hentry
          rw [List.map_cons, ← hname] at hadmits
          obtain ⟨hknown, hnew, hlater⟩ := admits_cons_iff.mp hadmits
          cases hstring : member.value with
          | other _ _ _ _ => simp [hstring, ValueText.string?] at hcontent
          | string content =>
              obtain rfl : (member.name.text, content.text) = entry := by
                rw [hstring] at hcontent
                exact Prod.ext hname (Option.some.inj hcontent)
              have hadmitted : Admits shape.names
                  ((found ++ [(member.name.text, content.text)]).map Prod.fst)
                  (later.map Prod.fst) := by
                simpa using hlater
              have hrest := ih hothers hadmitted false
                (Nat.lt_of_succ_lt_succ hfuel)
              rw [List.map_cons, separated,
                List.append_assoc _ (separated _ _ _),
                named_string hvalue hstring hknown hnew, hrest,
                List.append_assoc]
              rfl

theorem named_fails (hvalue : ∀ name, shape.value name = textAs wanted)
    (hunknown : ∀ name input, Fails (shape.unknown name) input)
    {members : List MemberText} {found : Members String}
    (hrefused : ¬ Admits shape.names (found.map Prod.fst)
      (members.map fun member => member.name.text))
    (first : Bool) (fuel : Nat) (rest : List Char) :
    Fails (named shape fuel first found)
      (separated [] first (members.map MemberText.chars) ++ rest) := by
  induction members generalizing found first fuel with
  | nil => exact absurd (admits_nil _ _) hrefused
  | cons member others ih =>
      cases fuel with
      | zero => exact fails_fail _ _
      | succ fuel =>
          -- If the first member is read, it is admitted and the others are not.
          rw [List.map_cons, separated, List.append_assoc _ (separated _ _ _)]
          unfold Fails
          by_cases hknown : member.name.text ∈ shape.names
          · by_cases hold : member.name.text ∈ found.map Prod.fst
            · rw [named_member, if_pos hknown, if_pos hold]
              exact ⟨_, rfl⟩
            · cases hstring : member.value with
              | string content =>
                  rw [named_string hvalue hstring hknown hold]
                  apply ih
                  intro hlater
                  rw [List.map_append] at hlater
                  exact hrefused (admits_cons_iff.mpr ⟨hknown, hold, hlater⟩)
              | other first rest hblank hquote =>
                  rw [named_member, if_pos hknown, if_neg hold, hvalue,
                    hstring, List.append_assoc]
                  apply Fails.bind
                  exact fails_textAs wanted member.beforeValue.property hblank
                    hquote _
          · rw [named_member, if_neg hknown]
            exact (hunknown _ _).bind _

/-! ## Objects -/

theorem length_le_separated_chars (members : List MemberText) :
    members.length ≤
      (separated [] true (members.map MemberText.chars)).length := by
  have hne : ∀ text ∈ members.map MemberText.chars, [] ++ text ≠ [] := by
    intro text htext
    obtain ⟨member, _, rfl⟩ := List.mem_map.mp htext
    simp [MemberText.chars]
  simpa using length_le_separated true hne

theorem record_object (shape : RecordShape String) (object : ObjectText) :
    record shape object.chars = (do
      let found ← named shape ((← get).length + 1) true []
      close '\x7d'
      match shape.names.find? fun name => (found.lookup name).isNone with
      | some name =>
          if shape.optional then return found
          else fail (.unsuitable ("missing field `" ++ name ++ "`"))
      | none => return found)
      (separated [] true (object.members.map MemberText.chars) ++
        (object.beforeClosing.val ++ '\x7d' :: object.behind.val)) := by
  rw [ObjectText.chars, record,
    bind_of_eq (next_eq object.before.property (by decide) _)]
  apply (bind_of_eq (drop_cons _ _)).trans
  rfl

theorem run_record_strings
    (hvalue : ∀ name, shape.value name = textAs wanted)
    (hoptional : shape.optional = true) (object : ObjectText)
    {entries : Members String}
    (hentries : object.entries = entries.map fun entry => (entry.1, some entry.2))
    (hadmits : Admits shape.names [] (entries.map Prod.fst)) :
    run (record shape) object.text = .ok entries := by
  have hcount := length_le_separated_chars object.members
  have hfuel : object.members.length <
      (separated [] true (object.members.map MemberText.chars) ++
        (object.beforeClosing.val ++ '\x7d' :: object.behind.val)).length +
          1 := by
    rw [List.length_append]
    omega
  have hnone : Admits shape.names (([] : Members String).map Prod.fst)
      (entries.map Prod.fst) := hadmits
  have hinside := named_strings hvalue hentries hnone
    object.beforeClosing.property true hfuel object.behind.val
  rw [List.nil_append] at hinside
  have hread : record shape object.chars = .ok (entries, object.behind.val) := by
    rw [record_object]
    apply (bind_of_eq (get_eq _)).trans
    apply (bind_of_eq hinside).trans
    apply (bind_of_eq (close_cons (by decide) _)).trans
    rw [hoptional]
    cases shape.names.find? fun name => (entries.lookup name).isNone with
    | some missing => rfl
    | none => rfl
  have hend : object.behind.val.dropWhile isBlank = [] := by
    rw [← List.append_nil object.behind.val,
      List.dropWhile_append_of_pos object.behind.property]
    rfl
  rw [run, ObjectText.text, String.toList_ofList, hread]
  simp [bind, Except.bind, pure, Except.pure, hend]

theorem run_record_fails
    (hvalue : ∀ name, shape.value name = textAs wanted)
    (hunknown : ∀ name input, Fails (shape.unknown name) input)
    (object : ObjectText) (hrefused : ¬ Admits shape.names [] object.names) :
    ∃ fault, run (record shape) object.text = .error fault := by
  have hnames : object.names =
      object.members.map fun member => member.name.text := by
    unfold ObjectText.names ObjectText.entries
    rw [List.map_map]
    rfl
  have hnone : ¬ Admits shape.names (([] : Members String).map Prod.fst)
      (object.members.map fun member => member.name.text) := by
    rw [← hnames]
    exact hrefused
  have hread : Fails (record shape) object.chars := by
    unfold Fails
    rw [record_object]
    apply fails_bind_of_eq (get_eq _)
    apply Fails.bind
    exact named_fails hvalue hunknown hnone true _ _
  obtain ⟨fault, hfault⟩ := hread
  refine ⟨fault, ?_⟩
  rw [run, ObjectText.text, String.toList_ofList, hfault]
  rfl

end Members

end JsonReader

end RecordMasking.Json
