import RecordMasking.Json.Reader
import RecordMasking.Proofs.WrittenText

/-!
# Arrays and records of JSON read back

A reader reads a text when it takes just that text from the front, whatever is
behind it.  Elements that are read one by one are read as an array of them,
and members that are read one by one as a record, when commas stand between
them and each is set on a line of its own.
-/

namespace RecordMasking.Json

/-- Nothing but blanks, such as the end of a line and an indentation. -/
def AreBlank (blanks : List Char) : Prop :=
  ∀ c ∈ blanks, isBlank c = true

instance (blanks : List Char) : Decidable (AreBlank blanks) :=
  decidable_of_iff (blanks.all isBlank = true) List.all_eq_true

/-- A text begins with a character that is no blank and does not close what it
stands in. -/
def BeginsIn (closing : Char) (text : List Char) : Prop :=
  ∃ c rest, text = c :: rest ∧ isBlank c = false ∧ c ≠ closing

/-- Texts with commas between them, each behind the given blanks.  The first
one has no comma before it when nothing stands before it. -/
def separated (lead : List Char) : Bool → List (List Char) → List Char
  | _, [] => []
  | first, text :: rest =>
      (if first then [] else [',']) ++ lead ++ text ++
        separated lead false rest

theorem length_le_separated {lead : List Char} (first : Bool)
    {texts : List (List Char)} (hne : ∀ text ∈ texts, lead ++ text ≠ []) :
    texts.length ≤ (separated lead first texts).length := by
  induction texts generalizing first with
  | nil => simp
  | cons text rest ih =>
      rw [List.forall_mem_cons] at hne
      have hpos := List.length_pos_iff.mpr hne.1
      have hrest := ih false hne.2
      simp only [separated, List.length_append, List.length_cons] at hpos ⊢
      omega

/-- Lines with the same indentation, of which all but the last one end in a
comma. -/
theorem toList_lines {α : Type} {indent : List Char} {line : α → String}
    {text : α → List Char}
    (hline : ∀ item, (line item).toList = indent ++ text item)
    (item : α) (rest : List α) :
    '\n' :: (",\n".intercalate ((item :: rest).map line)).toList =
      separated ('\n' :: indent) true ((item :: rest).map text) := by
  have hmarked : ∀ first, (if first then [] else [',']) ++
        '\n' :: (",\n".intercalate ((item :: rest).map line)).toList =
      separated ('\n' :: indent) first ((item :: rest).map text) := by
    induction rest generalizing item with
    | nil =>
        intro first
        simp [separated, hline]
    | cons next others ih =>
        intro first
        have hnext := ih next false
        rw [List.map_cons, List.map_cons, String.intercalate_cons_cons,
          List.map_cons, separated, ← hnext]
        simp [hline]
  exact hmarked true

namespace JsonReader

variable {α β : Type}

/-- The reader takes just the text, and leaves what is behind it. -/
def Reads (reader : JsonReader α) (text : List Char) (value : α) : Prop :=
  ∀ rest, reader (text ++ rest) = .ok (value, rest)

theorem bind_of_eq {reader : JsonReader α} {after : α → JsonReader β}
    {input rest : List Char} {value : α}
    (hreader : reader input = .ok (value, rest)) :
    (reader >>= after) input = after value rest := by
  show (reader input >>= fun found => after found.1 found.2) = _
  rw [hreader]
  rfl

/-! ## Single characters -/

theorem next_eq {blanks : List Char} (hblanks : AreBlank blanks) {c : Char}
    (hc : isBlank c = false) (rest : List Char) :
    next (blanks ++ c :: rest) = .ok (some c, c :: rest) := by
  have hdrop : (blanks ++ c :: rest).dropWhile isBlank = c :: rest := by
    rw [List.dropWhile_append_of_pos hblanks, List.dropWhile_cons_of_neg]
    simp [hc]
  simp [next, hdrop]

theorem next_cons {c : Char} (hc : isBlank c = false) (rest : List Char) :
    next (c :: rest) = .ok (some c, c :: rest) := by
  have hnone : AreBlank [] := List.forall_mem_nil _
  exact next_eq hnone hc rest

theorem drop_cons (c : Char) (rest : List Char) :
    drop (c :: rest) = .ok ((), rest) := rfl

theorem get_eq (input : List Char) :
    (get : JsonReader (List Char)) input = .ok (input, input) := rfl

theorem pure_eq (value : α) (input : List Char) :
    (pure value : JsonReader α) input = .ok (value, input) := rfl

theorem colon_eq {blanks : List Char} (hblanks : AreBlank blanks)
    (rest : List Char) : colon (blanks ++ ':' :: rest) = .ok ((), rest) := by
  rw [colon, bind_of_eq (next_eq hblanks (by decide) rest)]
  rfl

theorem close_cons {closing : Char} (hclosing : isBlank closing = false)
    (rest : List Char) : close closing (closing :: rest) = .ok ((), rest) := by
  rw [close, bind_of_eq (next_cons hclosing rest)]
  simp [drop_cons]

theorem hasElement_closing {blanks : List Char} (hblanks : AreBlank blanks)
    {closing : Char} (hclosing : isBlank closing = false) (first : Bool)
    (rest : List Char) :
    hasElement first closing (blanks ++ closing :: rest) =
      .ok (false, closing :: rest) := by
  rw [hasElement, bind_of_eq (next_eq hblanks hclosing rest)]
  simp [pure_eq]

theorem hasElement_more {lead text : List Char} (hlead : AreBlank lead)
    {closing : Char} (hclosing : closing ≠ ',')
    (htext : BeginsIn closing text) (first : Bool) (rest : List Char) :
    hasElement first closing
        ((if first then [] else [',']) ++ lead ++ text ++ rest) =
      .ok (true, text ++ rest) := by
  obtain ⟨c, others, rfl, hblank, hne⟩ := htext
  have hfound : next (lead ++ (c :: others ++ rest)) =
      .ok (some c, c :: others ++ rest) :=
    next_eq hlead hblank (others ++ rest)
  cases first with
  | true =>
      rw [if_pos rfl, List.nil_append, List.append_assoc, hasElement,
        bind_of_eq hfound]
      simp [hne, pure_eq]
  | false =>
      rw [if_neg Bool.false_ne_true, List.append_assoc, List.append_assoc,
        List.singleton_append, hasElement,
        bind_of_eq (next_cons (by decide) _)]
      simp only [hclosing.symm, if_false, Bool.false_eq_true, if_true]
      rw [bind_of_eq (drop_cons _ _), bind_of_eq hfound]
      simp [hne, pure_eq]

/-! ## Strings -/

theorem reads_textAs_spelled (wanted : String) {text : String}
    {spelling : List Char} (hspells : Spells text.toList spelling)
    {blanks : List Char} (hblanks : AreBlank blanks) :
    Reads (textAs wanted) (blanks ++ '"' :: (spelling ++ ['"'])) text := by
  intro rest
  have hinput : blanks ++ '"' :: (spelling ++ ['"']) ++ rest =
      blanks ++ '"' :: (spelling ++ '"' :: rest) := by
    simp
  rw [hinput, textAs, bind_of_eq (next_eq hblanks (by decide) _)]
  exact hspells.takeText_eq rest

theorem reads_textAs (wanted text : String) {blanks : List Char}
    (hblanks : AreBlank blanks) :
    Reads (textAs wanted) (blanks ++ (writeText text).toList) text := by
  rw [toList_writeText]
  exact reads_textAs_spelled wanted (spells_flatMap_writeChar text.toList)
    hblanks

/-! ## Arrays -/

/-- A text with the value that it is read as. -/
structure Written (α : Type) where
  text : List Char
  value : α

/-- The elements are read one by one. -/
def ReadsEach (element : JsonReader α) (items : List (Written α)) : Prop :=
  ∀ item ∈ items, Reads element item.text item.value ∧
    BeginsIn ']' item.text

theorem elements_more {element : JsonReader α} {text : List Char} {value : α}
    (hreads : Reads element text value) (hbegins : BeginsIn ']' text)
    {lead : List Char} (hlead : AreBlank lead) (first : Bool) {fuel : Nat}
    {values : List α} {tail rest : List Char}
    (htail : elements element fuel false tail = .ok (values, rest)) :
    elements element (fuel + 1) first
        ((if first then [] else [',']) ++ lead ++ text ++ tail) =
      .ok (value :: values, rest) := by
  rw [elements, bind_of_eq (hasElement_more hlead (by decide) hbegins first _)]
  simp only [if_true]
  rw [bind_of_eq (hreads tail), bind_of_eq htail]
  rfl

theorem elements_separated {element : JsonReader α} {items : List (Written α)}
    (hitems : ReadsEach element items) {lead ending : List Char}
    (hlead : AreBlank lead) (hending : AreBlank ending) (first : Bool)
    {fuel : Nat} (hfuel : items.length < fuel) (rest : List Char) :
    elements element fuel first
        (separated lead first (items.map Written.text) ++
          (ending ++ ']' :: rest)) =
      .ok (items.map Written.value, rest) := by
  induction items generalizing first fuel with
  | nil =>
      obtain ⟨left, rfl⟩ := Nat.exists_eq_add_one.mpr hfuel
      have hclosing : isBlank ']' = false := by decide
      have hend := hasElement_closing hending hclosing first rest
      simp only [List.map_nil, separated, List.nil_append, elements]
      rw [bind_of_eq hend]
      rfl
  | cons item others ih =>
      obtain ⟨left, rfl⟩ := Nat.exists_eq_add_one.mpr (Nat.zero_lt_of_lt hfuel)
      have hleft : others.length < left := by
        rw [List.length_cons] at hfuel
        omega
      obtain ⟨hitem, hothers⟩ := List.forall_mem_cons.mp hitems
      have hrest := ih hothers false hleft
      rw [List.map_cons, separated, List.append_assoc _ (separated _ _ _)]
      exact elements_more hitem.1 hitem.2 hlead first hrest

/-- Elements that are read one by one are read as an array of them. -/
theorem reads_array {element : JsonReader α} {items : List (Written α)}
    (hitems : ReadsEach element items) {blanks lead ending : List Char}
    (hblanks : AreBlank blanks) (hlead : AreBlank lead) (hne : lead ≠ [])
    (hending : AreBlank ending) :
    Reads (array element)
      (blanks ++ '[' :: (separated lead true (items.map Written.text) ++
        (ending ++ [']'])))
      (items.map Written.value) := by
  intro rest
  have hcount := length_le_separated true
    fun text (_ : text ∈ items.map Written.text) =>
      List.append_ne_nil_of_left_ne_nil hne text
  have hfuel : items.length <
      (separated lead true (items.map Written.text) ++
        (ending ++ ']' :: rest)).length + 1 := by
    rw [List.length_map] at hcount
    rw [List.length_append]
    omega
  have hinside := elements_separated hitems hlead hending true hfuel rest
  rw [List.append_assoc, List.cons_append, List.append_assoc,
    List.append_assoc, List.singleton_append, array,
    bind_of_eq (next_eq hblanks (by decide) _)]
  apply (bind_of_eq (drop_cons _ _)).trans
  apply (bind_of_eq (get_eq _)).trans
  exact hinside

/-! ## Records -/

/-- A member: its name, and its value as it is written behind the colon. -/
structure WrittenMember (α : Type) extends Written α where
  name : String

namespace WrittenMember

def line (member : WrittenMember α) : List Char :=
  (writeText member.name).toList ++ ':' :: member.text

def entry (member : WrittenMember α) : String × α :=
  (member.name, member.value)

end WrittenMember

/-- The members are read one by one, and none of them is there twice. -/
structure ReadsMembers (shape : RecordShape α)
    (members : List (WrittenMember α)) : Prop where
  known : ∀ member ∈ members, shape.names.contains member.name = true
  reads : ∀ member ∈ members,
    Reads (shape.value member.name) member.text member.value
  nodup : (members.map WrittenMember.name).Nodup

theorem lookup_eq_none_of_not_mem {found : Members α} {name : String}
    (hname : name ∉ found.map Prod.fst) : found.lookup name = none := by
  rw [List.lookup_eq_none_iff]
  intro entry hentry
  have hne : name ≠ entry.1 := by
    intro hsame
    exact hname (List.mem_map.mpr ⟨entry, hentry, hsame.symm⟩)
  simpa using hne

/-- What becomes of the name of another member, however it is spelled. -/
theorem named_of_name (shape : RecordShape α) {name : String}
    {spelling : List Char} (hspells : Spells name.toList spelling)
    {lead : List Char} (hlead : AreBlank lead) (first : Bool) (fuel : Nat)
    (found : Members α) (rest : List Char) :
    named shape (fuel + 1) first found
        ((if first then [] else [',']) ++ lead ++
          ('"' :: (spelling ++ ['"'])) ++ rest) =
      (if !shape.names.contains name then do
          shape.unknown name
          named shape fuel false found
        else if (found.lookup name).isSome then
          fail (.unsuitable ("duplicate field `" ++ name ++ "`"))
        else do
          colon
          let value ← shape.value name
          named shape fuel false (found ++ [(name, value)])) rest := by
  have hbegins : BeginsIn '\x7d' ('"' :: (spelling ++ ['"'])) :=
    ⟨'"', _, rfl, by decide, by decide⟩
  have hname : text (spelling ++ '"' :: rest) = .ok (name, rest) :=
    hspells.takeText_eq rest
  have hinput : '"' :: (spelling ++ ['"']) ++ rest =
      '"' :: (spelling ++ '"' :: rest) := by
    simp
  rw [named, bind_of_eq (hasElement_more hlead (by decide) hbegins first rest),
    hinput]
  simp only [if_true]
  rw [bind_of_eq (next_cons (by decide) _)]
  simp only [if_true]
  rw [bind_of_eq (drop_cons _ _), bind_of_eq hname]

theorem named_more {shape : RecordShape α} {member : WrittenMember α}
    (hknown : shape.names.contains member.name = true)
    (hreads : Reads (shape.value member.name) member.text member.value)
    {found : Members α} (hnew : member.name ∉ found.map Prod.fst)
    {lead : List Char} (hlead : AreBlank lead) (first : Bool) (fuel : Nat)
    (tail : List Char) :
    named shape (fuel + 1) first found
        ((if first then [] else [',']) ++ lead ++ member.line ++ tail) =
      named shape fuel false (found ++ [member.entry]) tail := by
  have hspells := spells_flatMap_writeChar member.name.toList
  have hline : (if first then [] else [',']) ++ lead ++ member.line ++ tail =
      (if first then [] else [',']) ++ lead ++
        ('"' :: (member.name.toList.flatMap writeChar ++ ['"'])) ++
          ([] ++ ':' :: (member.text ++ tail)) := by
    simp [WrittenMember.line, toList_writeText]
  have hfree := lookup_eq_none_of_not_mem hnew
  rw [hline, named_of_name shape hspells hlead]
  simp only [hknown, hfree, Bool.not_true, Bool.false_eq_true, if_false,
    Option.isSome_none]
  rw [bind_of_eq (colon_eq (List.forall_mem_nil _) _), bind_of_eq (hreads tail)]
  rfl

theorem named_separated {shape : RecordShape α}
    {members : List (WrittenMember α)} (hmembers : ReadsMembers shape members)
    {lead ending : List Char} (hlead : AreBlank lead)
    (hending : AreBlank ending) (first : Bool) {found : Members α}
    (hnew : ∀ member ∈ members, member.name ∉ found.map Prod.fst)
    {fuel : Nat} (hfuel : members.length < fuel) (rest : List Char) :
    named shape fuel first found
        (separated lead first (members.map WrittenMember.line) ++
          (ending ++ '\x7d' :: rest)) =
      .ok (found ++ members.map WrittenMember.entry, '\x7d' :: rest) := by
  induction members generalizing first found fuel with
  | nil =>
      obtain ⟨left, rfl⟩ := Nat.exists_eq_add_one.mpr hfuel
      have hclosing : isBlank '\x7d' = false := by decide
      have hend := hasElement_closing hending hclosing first rest
      simp only [List.map_nil, separated, List.nil_append, named]
      rw [bind_of_eq hend]
      simp [pure_eq]
  | cons member others ih =>
      obtain ⟨left, rfl⟩ := Nat.exists_eq_add_one.mpr (Nat.zero_lt_of_lt hfuel)
      have hleft : others.length < left := by
        rw [List.length_cons] at hfuel
        omega
      obtain ⟨hknown, hothersKnown⟩ := List.forall_mem_cons.mp hmembers.known
      obtain ⟨hreads, hothersRead⟩ := List.forall_mem_cons.mp hmembers.reads
      obtain ⟨hfresh, hnodup⟩ := List.nodup_cons.mp hmembers.nodup
      obtain ⟨hmember, hothersNew⟩ := List.forall_mem_cons.mp hnew
      have hlater : ∀ other ∈ others,
          other.name ∉ (found ++ [member.entry]).map Prod.fst := by
        intro other hother hmem
        rw [List.map_append, List.mem_append] at hmem
        rcases hmem with hold | hlast
        · exact hothersNew other hother hold
        · have hsame : other.name = member.name := by
            simpa [WrittenMember.entry] using hlast
          exact hfresh (hsame ▸ List.mem_map_of_mem hother)
      have hrest := ih ⟨hothersKnown, hothersRead, hnodup⟩ false hlater hleft
      rw [List.map_cons, separated, List.append_assoc _ (separated _ _ _),
        named_more hknown hreads hmember hlead, hrest, List.append_assoc]
      rfl

/-- Members that are read one by one are read as a record, if every name of
the record is among them. -/
theorem reads_record {shape : RecordShape α}
    {members : List (WrittenMember α)} (hmembers : ReadsMembers shape members)
    (hall : shape.names ⊆ members.map WrittenMember.name)
    {blanks lead ending : List Char} (hblanks : AreBlank blanks)
    (hlead : AreBlank lead) (hne : lead ≠ []) (hending : AreBlank ending) :
    Reads (record shape)
      (blanks ++ '\x7b' :: (separated lead true
        (members.map WrittenMember.line) ++ (ending ++ ['\x7d'])))
      (members.map WrittenMember.entry) := by
  intro rest
  have hcount := length_le_separated true
    fun line (_ : line ∈ members.map WrittenMember.line) =>
      List.append_ne_nil_of_left_ne_nil hne line
  have hfuel : members.length <
      (separated lead true (members.map WrittenMember.line) ++
        (ending ++ '\x7d' :: rest)).length + 1 := by
    rw [List.length_map] at hcount
    rw [List.length_append]
    omega
  have hnew : ∀ member ∈ members,
      member.name ∉ ([] : Members α).map Prod.fst := by simp
  have hinside :=
    named_separated hmembers hlead hending true hnew hfuel rest
  have hfull : shape.names.find? (fun name =>
      ((members.map WrittenMember.entry).lookup name).isNone) = none := by
    rw [List.find?_eq_none]
    intro name hname hmissing
    obtain ⟨member, hmember, hsame⟩ := List.mem_map.mp (hall hname)
    rw [Option.isNone_iff_eq_none, List.lookup_eq_none_iff] at hmissing
    have hne := hmissing _ (List.mem_map_of_mem hmember)
    simp [WrittenMember.entry, hsame] at hne
  rw [List.append_assoc, List.cons_append, List.append_assoc,
    List.append_assoc, List.singleton_append, record,
    bind_of_eq (next_eq hblanks (by decide) _)]
  apply (bind_of_eq (drop_cons _ _)).trans
  apply (bind_of_eq (get_eq _)).trans
  apply (bind_of_eq hinside).trans
  apply (bind_of_eq (close_cons (by decide) rest)).trans
  rw [List.nil_append, hfull]
  rfl

end JsonReader

end RecordMasking.Json
