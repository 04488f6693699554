import Mathlib.Data.List.Basic
import RecordMasking.Code.TypeExpr

/-!
# Tokens, printed and read

A printed text holds the texts of its tokens one after another, with a blank
wherever two of them could run together.  A reader takes tokens from the front of a sequence
or fails.  Lists stand in curly brackets, with commas between their items; an
item has to be read whatever follows the comma or the bracket behind it.
-/

namespace RecordMasking.Code

/-! ## Printed tokens -/

/-- How a token is spelled. -/
def Token.chars : Token → List Char
  | .word text => text.toList
  | .literal text => text.toList
  | .mark char _ => [char]
  | .opening .round => ['(']
  | .opening .square => ['[']
  | .opening .curly => ['\x7b']
  | .closing .round => [')']
  | .closing .square => [']']
  | .closing .curly => ['\x7d']

theorem Token.toList_text (token : Token) :
    token.text.toList = token.chars := by
  cases token with
  | word text => rfl
  | literal text => rfl
  | mark char joined => exact String.toList_singleton char
  | opening bracket => cases bracket <;> rfl
  | closing bracket => cases bracket <;> rfl

/-- Tokens are kept apart by blanks, except inside brackets and behind a mark
that is joined to its successor. -/
inductive Prints : Tokens → List Char → Prop
  | nil : Prints [] []
  | last (token : Token) : Prints [token] token.chars
  | apart {token next : Token} {rest : Tokens} {chars : List Char}
      (hfree : ∀ char, token ≠ .mark char true)
      (hrest : Prints (next :: rest) chars) :
      Prints (token :: next :: rest) (token.chars ++ ' ' :: chars)
  | joined {char : Char} {next : Token} {rest : Tokens} {chars : List Char}
      (hrest : Prints (next :: rest) chars) :
      Prints (.mark char true :: next :: rest) (char :: chars)
  | inside {token next : Token} {rest : Tokens} {chars : List Char}
      (hbracket : (∃ bracket, token = .opening bracket) ∨
        ∃ bracket, next = .closing bracket)
      (hrest : Prints (next :: rest) chars) :
      Prints (token :: next :: rest) (token.chars ++ chars)

theorem Token.eq_of_adjoins {token next : Token}
    (hadjoins : token.adjoins next = true) :
    (∃ char, token = .mark char true) ∨
      (∃ bracket, token = .opening bracket) ∨
      ∃ bracket, next = .closing bracket := by
  cases next with
  | closing bracket => exact .inr (.inr ⟨bracket, rfl⟩)
  | _ =>
      cases token with
      | opening bracket => exact .inr (.inl ⟨bracket, rfl⟩)
      | mark char joined =>
          cases joined with
          | true => exact .inl ⟨char, rfl⟩
          | false => exact absurd hadjoins Bool.false_ne_true
      | _ => exact absurd hadjoins Bool.false_ne_true

theorem prints_render (tokens : Tokens) :
    Prints tokens tokens.render.toList := by
  induction tokens with
  | nil => exact .nil
  | cons token rest ih =>
      cases rest with
      | nil =>
          rw [Tokens.render, Token.toList_text]
          exact .last token
      | cons next rest =>
          rw [Tokens.render, String.toList_append]
          by_cases hadjoins : token.adjoins next = true
          · rw [if_pos hadjoins, Token.toList_text]
            rcases Token.eq_of_adjoins hadjoins with ⟨char, rfl⟩ | hbracket
            · exact .joined ih
            · exact .inside hbracket ih
          · rw [if_neg hadjoins, String.toList_append, Token.toList_text,
              List.append_assoc]
            refine .apart ?_ ih
            rintro char rfl
            exact hadjoins rfl

/-! ## Printed paths -/

/-- The tokens are those of a path, whose names may have arguments. -/
def IsPath (tokens : Tokens) : Prop :=
  ∃ rooted segments, tokens = TypeExpr.tokens (.path rooted segments)

/-- Behind a name, a path goes on with its separator or with arguments. -/
def Token.GoesOn (token : Token) : Prop :=
  token = .mark ':' true ∨ token = .mark '<' false

theorem arguments_tokens_cases (arguments : Arguments) :
    arguments.tokens = [] ∨
      (∃ rest, arguments.tokens = .mark '<' false :: rest) ∨
      ∃ rest, arguments.tokens =
        Tokens.pathSeparator ++ .mark '<' false :: rest := by
  cases arguments with
  | none => exact .inl rfl
  | angled turbofish arguments trailing =>
      cases turbofish with
      | false => exact .inr (.inl ⟨_, rfl⟩)
      | true => exact .inr (.inr ⟨_, rfl⟩)

theorem goesOn_of_arguments {arguments : Arguments} {token : Token}
    {later rest : Tokens}
    (heq : arguments.tokens ++ (Tokens.pathSeparator ++ later) =
      token :: rest) : token.GoesOn := by
  rcases arguments_tokens_cases arguments with h | ⟨inner, h⟩ | ⟨inner, h⟩
  · rw [h] at heq
    exact .inl (List.cons.inj heq).1.symm
  · rw [h] at heq
    exact .inr (List.cons.inj heq).1.symm
  · rw [h] at heq
    exact .inl (List.cons.inj heq).1.symm

theorem arguments_eq_nil {arguments : Arguments} {name : String}
    {later rest : Tokens}
    (heq : arguments.tokens ++ (Tokens.pathSeparator ++ later) =
      Tokens.pathSeparator ++ .word name :: rest) :
    arguments.tokens = [] := by
  rcases arguments_tokens_cases arguments with h | ⟨inner, h⟩ | ⟨inner, h⟩
  · exact h
  · simp [h, Tokens.pathSeparator, Tokens.operator] at heq
  · simp [h, Tokens.pathSeparator, Tokens.operator] at heq

theorem segmentsTokens_cons_append (name : String) (arguments : Arguments)
    (segments : List Segment) (rest : Tokens) :
    ∃ later, segmentsTokens (.mk name arguments :: segments) ++
        (Tokens.pathSeparator ++ rest) =
          .word name :: (arguments.tokens ++ (Tokens.pathSeparator ++ later)) ∧
      (later = rest ∨
        later = segmentsTokens segments ++ (Tokens.pathSeparator ++ rest)) := by
  cases segments with
  | nil =>
      refine ⟨rest, ?_, .inl rfl⟩
      simp [segmentsTokens, Segment.tokens, Tokens.word]
  | cons next segments =>
      refine ⟨_, ?_, .inr rfl⟩
      simp [segmentsTokens, Segment.tokens, Tokens.word]

theorem exists_ofPath_eq (first : String) (names : List String) :
    ∃ rest, Tokens.ofPath (first :: names) = .word first :: rest := by
  cases names with
  | nil => exact ⟨[], rfl⟩
  | cons second names => exact ⟨_, rfl⟩

/-- A name behind a path stands behind the first name, wherever all of it can
be taken for a path of plain names. -/
theorem mem_of_segmentsTokens_eq {segments : List Segment} {first : String}
    {names : List String} {name : String} {rest others : Tokens}
    {next : Token} (hnext : ¬ next.GoesOn)
    (heq : segmentsTokens segments ++
        (Tokens.pathSeparator ++ .word name :: rest) =
      Tokens.ofPath (first :: names) ++ next :: others) : name ∈ names := by
  induction segments generalizing first names with
  | nil =>
      obtain ⟨behind, hbehind⟩ := exists_ofPath_eq first names
      simp [hbehind, segmentsTokens, Tokens.pathSeparator, Tokens.operator]
        at heq
  | cons segment segments ih =>
      obtain ⟨text, arguments⟩ := segment
      obtain ⟨later, hlater, hcases⟩ := segmentsTokens_cons_append text
        arguments segments (.word name :: rest)
      rw [hlater] at heq
      cases names with
      | nil =>
          rw [Tokens.ofPath] at heq
          exact absurd (goesOn_of_arguments (List.cons.inj heq).2) hnext
      | cons second names =>
          have hsplit : Tokens.ofPath (first :: second :: names) =
              .word first :: (Tokens.pathSeparator ++
                Tokens.ofPath (second :: names)) := rfl
          rw [hsplit, List.cons_append, List.append_assoc] at heq
          have hbehind := (List.cons.inj heq).2
          -- A separator with a name behind it leaves no place for arguments.
          obtain ⟨behind, hsecond⟩ := exists_ofPath_eq second names
          have hnone : arguments.tokens = [] := by
            rw [hsecond] at hbehind
            exact arguments_eq_nil hbehind
          rw [hnone, List.nil_append, List.append_cancel_left_eq] at hbehind
          rcases hcases with rfl | rfl
          · rw [hsecond] at hbehind
            obtain rfl := Token.word.inj (List.cons.inj hbehind).1
            exact List.mem_cons_self
          · exact List.mem_cons_of_mem _ (ih hbehind)

namespace IsPath

variable {path : Tokens} {name : String} {rest : Tokens}

theorem exists_token (hpath : IsPath path) :
    ∃ token later, path ++ (Tokens.pathSeparator ++ rest) = token :: later ∧
      (token = .mark ':' true ∨ ∃ name, token = .word name) := by
  obtain ⟨rooted, segments, rfl⟩ := hpath
  rw [TypeExpr.tokens]
  cases rooted with
  | true => exact ⟨_, _, rfl, .inl rfl⟩
  | false =>
      cases segments with
      | nil => exact ⟨_, _, rfl, .inl rfl⟩
      | cons segment segments =>
          obtain ⟨text, arguments⟩ := segment
          obtain ⟨later, hlater, _⟩ := segmentsTokens_cons_append text
            arguments segments rest
          exact ⟨.word text, _, hlater, .inr ⟨text, rfl⟩⟩

theorem mem_names (hpath : IsPath path) {first : String} {names : List String}
    {others : Tokens} {next : Token} (hnext : ¬ next.GoesOn)
    (heq : path ++ (Tokens.pathSeparator ++ .word name :: rest) =
      Tokens.ofPath (first :: names) ++ next :: others) : name ∈ names := by
  obtain ⟨rooted, segments, rfl⟩ := hpath
  rw [TypeExpr.tokens] at heq
  cases rooted with
  | false => exact mem_of_segmentsTokens_eq hnext heq
  | true =>
      obtain ⟨behind, hbehind⟩ := exists_ofPath_eq first names
      simp [hbehind, Tokens.pathSeparator, Tokens.operator] at heq

theorem mem_rooted_names (hpath : IsPath path) {first : String}
    {names : List String} {others : Tokens} {next : Token}
    (hnext : ¬ next.GoesOn)
    (heq : path ++ (Tokens.pathSeparator ++ .word name :: rest) =
      Tokens.pathSeparator ++
        (Tokens.ofPath (first :: names) ++ next :: others)) :
    name ∈ first :: names := by
  obtain ⟨rooted, segments, rfl⟩ := hpath
  rw [TypeExpr.tokens] at heq
  cases rooted with
  | true =>
      rw [if_pos rfl, List.append_assoc, List.append_cancel_left_eq] at heq
      exact List.mem_cons_of_mem _ (mem_of_segmentsTokens_eq hnext heq)
  | false =>
      cases segments with
      | nil =>
          obtain ⟨behind, hbehind⟩ := exists_ofPath_eq first names
          rw [hbehind] at heq
          obtain ⟨rfl, _⟩ : name = first ∧ rest = behind ++ next :: others := by
            simpa [segmentsTokens] using heq
          exact List.mem_cons_self
      | cons segment segments =>
          obtain ⟨text, arguments⟩ := segment
          obtain ⟨later, hlater, _⟩ := segmentsTokens_cons_append text
            arguments segments (.word name :: rest)
          rw [if_neg Bool.false_ne_true, List.nil_append, hlater] at heq
          exact absurd (List.cons.inj heq).1 (by simp)

end IsPath

/-! ## Readers -/

abbrev TokenReader := StateT Tokens Option

namespace TokenReader

variable {α β : Type}

def exactly (front : Tokens) : TokenReader Unit := fun input =>
  (input.dropPrefix? front).map fun rest => ((), rest)

/-- Whether the token stands next, which is taken then. -/
def next? (token : Token) : TokenReader Bool := fun input =>
  match input with
  | [] => some (false, [])
  | found :: rest => some (if found = token then (true, rest) else (false, input))

/-- A word that is a name, as a lone underscore is not. -/
def name : TokenReader String := fun input =>
  match input with
  | .word text :: rest => if text = "_" then none else some (text, rest)
  | _ => none

/-- Items with commas between them, up to a closing bracket; `fuel` bounds
their number. -/
def listed (item : TokenReader α) : Nat → TokenReader (List α)
  | 0 => failure
  | fuel + 1 => fun input =>
      match input with
      | .closing .curly :: _ => some ([], input)
      | _ =>
          (do
            let first ← item
            if ← next? (.mark ',' false) then
              return first :: (← listed item fuel)
            else return [first]) input

/-! ## What is read -/

theorem bind_of_eq {reader : TokenReader α} {after : α → TokenReader β}
    {input rest : Tokens} {value : α}
    (hreader : reader input = some (value, rest)) :
    (reader >>= after) input = after value rest := by
  show (reader input >>= fun found => after found.1 found.2) = _
  rw [hreader]
  rfl

theorem bind_of_none {reader : TokenReader α} {input : Tokens}
    (hreader : reader input = none) (after : α → TokenReader β) :
    (reader >>= after) input = none := by
  show (reader input >>= fun found => after found.1 found.2) = _
  rw [hreader]
  rfl

theorem orElse_of_eq {first : TokenReader α} {input : Tokens}
    {found : α × Tokens} (hfirst : first input = some found)
    (second : TokenReader α) : (first <|> second) input = some found := by
  show (first input <|> second input) = _
  rw [hfirst]
  rfl

theorem orElse_of_none {first : TokenReader α} {input : Tokens}
    (hfirst : first input = none) (second : TokenReader α) :
    (first <|> second) input = second input := by
  show (first input <|> second input) = _
  rw [hfirst]
  rfl

theorem pure_eq (value : α) (input : Tokens) :
    (pure value : TokenReader α) input = some (value, input) := rfl

theorem exactly_append (front rest : Tokens) :
    exactly front (front ++ rest) = some ((), rest) := by
  simp [exactly, List.dropPrefix?_append_of_beq]

theorem exactly_eq_none {front input : Tokens}
    (hinput : ∀ rest, input ≠ front ++ rest) : exactly front input = none := by
  unfold exactly
  cases hdrop : input.dropPrefix? front with
  | none => rfl
  | some rest =>
      obtain ⟨found, hfound, hsame⟩ := List.dropPrefix?_eq_some_iff.mp hdrop
      rw [beq_iff_eq.mp hsame] at hfound
      exact absurd hfound (hinput rest)

theorem next?_self (token : Token) (rest : Tokens) :
    next? token (token :: rest) = some (true, rest) := by
  simp [next?]

theorem next?_of_ne {token found : Token} (hne : found ≠ token)
    (rest : Tokens) :
    next? token (found :: rest) = some (false, found :: rest) := by
  simp [next?, hne]

theorem name_word {text : String} (hname : text ≠ "_") (rest : Tokens) :
    name (Tokens.word text ++ rest) = some (text, rest) := by
  simp [name, Tokens.word, hname]

/-- What ends an item of a list. -/
def IsEnd (token : Token) : Prop :=
  token = .mark ',' false ∨ token = .closing .curly

/-- The tokens of an item are read before any end of the item. -/
def ReadsItem (reader : TokenReader α) (tokens : Tokens) (value : α) : Prop :=
  ∀ next rest, IsEnd next →
    reader (tokens ++ next :: rest) = some (value, next :: rest)

/-- An item does not begin like the end of a list. -/
def BeginsItem (tokens : Tokens) : Prop :=
  ∃ token rest, tokens = token :: rest ∧ token ≠ .closing .curly

theorem listed_item {item : TokenReader α} {tokens : Tokens} {value : α}
    (hitem : ReadsItem item tokens value) (hbegins : BeginsItem tokens)
    {next : Token} (hnext : IsEnd next) (fuel : Nat) (rest : Tokens) :
    listed item (fuel + 1) (tokens ++ next :: rest) =
      (do
        if ← next? (.mark ',' false) then
          return value :: (← listed item fuel)
        else return [value]) (next :: rest) := by
  obtain ⟨token, others, rfl, hne⟩ := hbegins
  rw [listed]
  dsimp only
  split
  next heq =>
    rw [List.cons_append, List.cons.injEq] at heq
    exact absurd heq.1 hne
  next => exact bind_of_eq (hitem next rest hnext)

theorem listed_separated {item : TokenReader α} {tokensOf : α → Tokens}
    {values : List α}
    (hitems : ∀ value ∈ values, ReadsItem item (tokensOf value) value)
    (hbegin : ∀ value ∈ values, BeginsItem (tokensOf value)) {fuel : Nat}
    (hfuel : values.length < fuel) (rest : Tokens) :
    listed item fuel
        (Tokens.commaSeparated (values.map tokensOf) ++
          .closing .curly :: rest) =
      some (values, .closing .curly :: rest) := by
  induction values generalizing fuel with
  | nil =>
      obtain ⟨left, rfl⟩ := Nat.exists_eq_add_one.mpr hfuel
      rfl
  | cons value others ih =>
      obtain ⟨left, rfl⟩ := Nat.exists_eq_add_one.mpr (Nat.zero_lt_of_lt hfuel)
      rw [List.forall_mem_cons] at hitems hbegin
      have hothers := ih hitems.2 hbegin.2 (Nat.lt_of_succ_lt_succ hfuel)
      cases others with
      | nil =>
          have hend : IsEnd (.closing .curly) := .inr rfl
          exact listed_item hitems.1 hbegin.1 hend left rest
      | cons other later =>
          have hend : IsEnd (.mark ',' false) := .inl rfl
          have hsplit : Tokens.commaSeparated
              ((value :: other :: later).map tokensOf) =
                tokensOf value ++ Tokens.mark ',' ++
                  Tokens.commaSeparated ((other :: later).map tokensOf) := rfl
          rw [hsplit, List.append_assoc, List.append_assoc]
          apply (listed_item hitems.1 hbegin.1 hend left _).trans
          apply (bind_of_eq (next?_self _ _)).trans
          rw [if_pos rfl]
          exact bind_of_eq hothers

/-! ## The length of a list -/

theorem length_le_commaSeparated {parts : List Tokens}
    (hbegin : ∀ part ∈ parts, BeginsItem part) :
    parts.length ≤ (Tokens.commaSeparated parts).length := by
  fun_induction Tokens.commaSeparated parts with
  | case1 => exact Nat.le_refl _
  | case2 part =>
      obtain ⟨token, rest, rfl, _⟩ := hbegin part List.mem_cons_self
      simp
  | case3 part rest hrest ih =>
      rw [List.forall_mem_cons] at hbegin
      have hothers := ih hbegin.2
      simp only [List.length_cons, List.length_append, Tokens.mark,
        List.length_nil]
      omega

theorem length_le_of_mem {parts : List Tokens} {part : Tokens}
    (hpart : part ∈ parts) :
    part.length ≤ (Tokens.commaSeparated parts).length := by
  fun_induction Tokens.commaSeparated parts with
  | case1 => simp at hpart
  | case2 only =>
      obtain rfl := List.mem_singleton.mp hpart
      exact Nat.le_refl _
  | case3 first rest hrest ih =>
      simp only [List.length_append]
      rcases List.mem_cons.mp hpart with rfl | hlater
      · omega
      · have hothers := ih hlater
        omega

end TokenReader

end RecordMasking.Code
