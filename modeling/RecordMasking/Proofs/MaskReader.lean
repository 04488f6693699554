import RecordMasking.Proofs.TokenReader
import RecordMasking.Synthesis

/-!
# Reading the code of a mask

The tokens of a mask are read as a term again.  What is read is code: a block
that takes a record apart and puts it together, a call of the default or of
another mask, or a name.  The reader knows by which path the runtime is
called and by which one the record of a member is written.  Since a path may
have arguments of any kind, only these are taken where a path is wanted.

A term reads back from its tokens as long as none of its names is an
underscore, which stands for what is left out.
-/

namespace RecordMasking

open Code

/-- The paths that the code of masks is written with. -/
structure CodePaths where
  runtime : Tokens
  /-- How the record that a member of another one holds is written. -/
  constructor? : QualifiedName → FieldName → Option Constructor

namespace MaskReader

open TokenReader

/-! ## Members -/

def member : TokenReader FieldName := fun input =>
  match input with
  | .word text :: rest =>
      if text = "_" then none else some (.named text, rest)
  | .literal text :: rest =>
      let index := Nat.ofDigitChars 10 text.toList 0
      if toString index = text then some (.position index, rest) else none
  | _ => none

/-- A member and what is assigned to it behind a colon; without a colon a
named member stands for itself. -/
def assigned {α : Type} (itself : String → α)
    (other : FieldName → TokenReader α) : TokenReader (FieldName × α) := do
  let found ← member
  if ← next? (.mark ':' false) then
    return (found, ← other found)
  else
    match found with
    | .named text => return (found, itself text)
    | .position _ => failure

/-- A variable, or the underscore that binds nothing. -/
def binding? : TokenReader (Option String) := fun input =>
  match input with
  | .word "_" :: rest => some (none, rest)
  | _ => (some <$> name) input

def pattern : TokenReader (FieldName × Option String) :=
  assigned some fun _ => binding?

/-! ## Terms -/

/-- Two colons between the names of a path. -/
def separator : Tokens := [.mark ':' true, .mark ':' false]

/-- The default, called by its path. -/
def defaultCall : TokenReader MaskTerm := do
  exactly (separator ++ [.word "core"] ++ separator ++ [.word "default"] ++
    separator ++ [.word "Default"] ++ separator ++
    [.word "default", .opening .round, .closing .round])
  return .default

/-- A mask of the runtime, called for a variable. -/
def maskCall (runtime : Tokens) : TokenReader MaskTerm := do
  exactly (runtime ++ separator ++ [.word "Mask"] ++ separator ++
    [.word "mask", .opening .round])
  let argument ← name
  exactly [.closing .round]
  return .masked argument

/-- A block that destructures a variable before it constructs. -/
def block (constructor : Constructor) (value : FieldName → TokenReader MaskTerm)
    (fuel : Nat) : TokenReader MaskTerm := do
  exactly ([.opening .curly, .word "let"] ++ constructor.path ++
    [.opening .curly])
  let patterns ← listed pattern fuel
  exactly [.closing .curly, .mark '=' false]
  let source ← name
  exactly ([.mark ';' false] ++ constructor.path ++ [.opening .curly])
  let values ← listed (assigned .bound value) fuel
  exactly [.closing .curly, .closing .curly]
  return .rebuild source constructor patterns values

/-- A term whose record, if it builds one, is written by the given
constructor; `fuel` bounds the blocks inside one another. -/
def term (paths : CodePaths) : Nat → Option Constructor → TokenReader MaskTerm
  | 0, _ => failure
  | fuel + 1, constructor? =>
      maskCall paths.runtime <|> defaultCall <|>
        (constructor?.elim failure fun constructor =>
          block constructor
            (fun member =>
              term paths fuel (paths.constructor? constructor.type member))
            fuel) <|>
        (MaskTerm.bound <$> name)

/-! ## Implementations -/

/-- The body of the mask in an implementation for a record that is written by
`path`, with `params` behind it. -/
def implementation (paths : CodePaths) (path params : Tokens)
    (constructor : Constructor) (fuel : Nat) : TokenReader MaskTerm := do
  exactly [.mark '#' false, .opening .square, .word "automatically_derived",
    .closing .square]
  exactly ([.word "impl"] ++ params ++ paths.runtime ++ separator ++
    [.word "Mask", .word "for"] ++ path ++ params ++ [.opening .curly])
  exactly [.word "fn", .word "mask", .opening .round, .word "self",
    .closing .round, .mark '-' true, .mark '>' false, .word "Self"]
  let body ← block constructor
    (fun member =>
      term paths fuel (paths.constructor? constructor.type member))
    fuel
  exactly [.closing .curly]
  return body

/-- The body of the mask of a type, when code is nothing but its
implementation. -/
def body? (paths : CodePaths) (type : QualifiedName) (path params : Tokens)
    (code : Tokens) : Option MaskTerm :=
  match implementation paths path params ⟨type, Tokens.word "Self"⟩
      code.length code with
  | some (body, []) => some body
  | _ => none

end MaskReader

/-! ## Terms that read back -/

namespace MaskTerm

open TokenReader (BeginsItem)

/-- No name of a term is an underscore, and each block builds the record that
is wanted in its place. -/
inductive IsLegible (paths : CodePaths) : Option Constructor → MaskTerm → Prop
  | default {constructor? : Option Constructor} :
      IsLegible paths constructor? .default
  | bound {constructor? : Option Constructor} {name : String}
      (hname : name ≠ "_") : IsLegible paths constructor? (.bound name)
  | masked {constructor? : Option Constructor} {name : String}
      (hname : name ≠ "_") : IsLegible paths constructor? (.masked name)
  | rebuild {source : String} {constructor : Constructor}
      {patterns : List (FieldName × Option String)}
      {terms : List (FieldName × MaskTerm)} (hsource : source ≠ "_")
      (hpatterns : ∀ pattern ∈ patterns,
        pattern.1 ≠ .named "_" ∧ pattern.2 ≠ some "_")
      (hmembers : ∀ term ∈ terms, term.1 ≠ .named "_")
      (hterms : ∀ term ∈ terms,
        IsLegible paths (paths.constructor? constructor.type term.1) term.2) :
      IsLegible paths (some constructor)
        (.rebuild source constructor patterns terms)

theorem valuesTokens_eq_map (runtime : Tokens)
    (values : List (FieldName × MaskTerm)) :
    valuesTokens runtime values =
      values.map fun entry =>
        assignedTokens entry.1 (entry.2.tokens runtime) := by
  induction values with
  | nil => rw [valuesTokens, List.map_nil]
  | cons entry rest ih => rw [valuesTokens, ih, List.map_cons]

theorem assignedTokens_self (text : String) :
    assignedTokens (.named text) (Tokens.word text) = Tokens.word text :=
  if_pos rfl

theorem assignedTokens_of_ne {member : FieldName} {assigned : Tokens}
    (hne : ∀ text, member = .named text → assigned ≠ Tokens.word text) :
    assignedTokens member assigned =
      memberTokens member ++ Tokens.mark ':' ++ assigned := by
  cases member with
  | named text => exact if_neg (hne text rfl)
  | position index => rfl

theorem assignedTokens_cases (member : FieldName) (assigned : Tokens) :
    (∃ text, member = .named text ∧ assigned = Tokens.word text ∧
        assignedTokens member assigned = Tokens.word text) ∨
      assignedTokens member assigned =
        memberTokens member ++ Tokens.mark ':' ++ assigned := by
  by_cases hself : ∃ text, member = .named text ∧ assigned = Tokens.word text
  · obtain ⟨text, rfl, rfl⟩ := hself
    exact .inl ⟨text, rfl, rfl, assignedTokens_self text⟩
  · refine .inr (assignedTokens_of_ne fun text hmember hassigned => ?_)
    exact hself ⟨text, hmember, hassigned⟩

theorem length_le_assignedTokens (member : FieldName) (assigned : Tokens) :
    assigned.length ≤ (assignedTokens member assigned).length := by
  rcases assignedTokens_cases member assigned with ⟨text, _, hself, heq⟩ | heq
  · exact Nat.le_of_eq (by rw [heq, hself])
  · rw [heq, List.length_append]
    exact Nat.le_add_left _ _

theorem beginsItem_assignedTokens (member : FieldName) (assigned : Tokens) :
    BeginsItem (assignedTokens member assigned) := by
  rcases assignedTokens_cases member assigned with ⟨text, _, _, heq⟩ | heq
  · exact ⟨.word text, [], heq, by simp⟩
  · rw [heq]
    cases member with
    | named text => exact ⟨.word text, _, rfl, by simp⟩
    | position index => exact ⟨.literal (toString index), _, rfl, by simp⟩

theorem beginsItem_patternTokens (pattern : FieldName × Option String) :
    BeginsItem (patternTokens pattern) :=
  beginsItem_assignedTokens pattern.1 _

/-- Only a bound variable is a single word. -/
theorem eq_bound_of_tokens {runtime : Tokens} {term : MaskTerm} {text : String}
    (htokens : term.tokens runtime = Tokens.word text) : term = .bound text := by
  cases term with
  | default => simp [tokens, defaultTokens, Tokens.word, Tokens.pathSeparator,
      Tokens.operator] at htokens
  | bound name =>
      rw [tokens] at htokens
      obtain rfl : name = text := by simpa [Tokens.word] using htokens
      rfl
  | masked name =>
      have hlength := congrArg List.length htokens
      simp [tokens, maskedTokens, Tokens.word, Tokens.inBrackets,
        Tokens.pathSeparator, Tokens.operator] at hlength
      omega
  | rebuild source constructor patterns values =>
      simp [tokens, blockTokens, Tokens.inBrackets, Tokens.word] at htokens

end MaskTerm

namespace MaskReader

open TokenReader MaskTerm

/-! ### Members -/

theorem member_tokens {name : FieldName} (hname : name ≠ .named "_")
    (rest : Tokens) :
    member (memberTokens name ++ rest) = some (name, rest) := by
  cases name with
  | named text =>
      have htext : text ≠ "_" := fun heq => hname (congrArg _ heq)
      simp [member, memberTokens, Tokens.word, htext]
  | position index => simp [member, memberTokens]

theorem reads_assigned {α : Type} {itself : String → α}
    {other : FieldName → TokenReader α} {name : FieldName} {tokens : Tokens}
    {value : α} (hname : name ≠ .named "_")
    (hother : ReadsItem (other name) tokens value)
    (hitself : ∀ text, name = .named text → tokens = Tokens.word text →
      itself text = value) :
    ReadsItem (assigned itself other) (assignedTokens name tokens)
      (name, value) := by
  intro next rest hnext
  rcases assignedTokens_cases name tokens with ⟨text, rfl, htokens, heq⟩ | heq
  · rw [heq]
    have hcolon : next ≠ .mark ':' false := by
      rcases hnext with rfl | rfl
      · decide
      · decide
    apply (bind_of_eq (member_tokens hname _)).trans
    apply (bind_of_eq (next?_of_ne hcolon _)).trans
    simp [hitself text rfl htokens, pure_eq]
  · rw [heq, List.append_assoc, List.append_assoc]
    apply (bind_of_eq (member_tokens hname _)).trans
    apply (bind_of_eq (next?_self _ _)).trans
    rw [if_pos rfl]
    exact bind_of_eq (hother next rest hnext)

theorem reads_binding? {name? : Option String} (hname : name? ≠ some "_") :
    ReadsItem binding? (Tokens.word (name?.getD "_")) name? := by
  intro next rest _
  cases name? with
  | none => rfl
  | some text =>
      have htext : text ≠ "_" := fun heq => hname (congrArg some heq)
      show binding? (.word text :: next :: rest) = _
      unfold binding?
      split
      next heq =>
        rw [List.cons.injEq, Token.word.injEq] at heq
        exact absurd heq.1 htext
      next => simp [name, htext, Functor.map, StateT.map]

theorem reads_pattern {entry : FieldName × Option String}
    (hmember : entry.1 ≠ .named "_") (hvariable : entry.2 ≠ some "_") :
    ReadsItem pattern (patternTokens entry) entry := by
  apply reads_assigned hmember (reads_binding? hvariable)
  intro text hnamed htext
  cases hentry : entry.2 with
  | none =>
      rw [hentry] at htext
      obtain rfl : "_" = text := by simpa [Tokens.word] using htext
      exact absurd hnamed hmember
  | some name =>
      rw [hentry] at htext
      obtain rfl : name = text := by simpa [Tokens.word] using htext
      rfl

/-! ### Blocks -/

theorem blockTokens_append (source : String) (path patterns values : Tokens)
    (rest : Tokens) :
    blockTokens source path patterns values ++ rest =
      ([.opening .curly, .word "let"] ++ path ++ [.opening .curly]) ++
        (patterns ++ .closing .curly :: .mark '=' false ::
          (Tokens.word source ++
            (([.mark ';' false] ++ path ++ [.opening .curly]) ++
              (values ++ .closing .curly :: .closing .curly :: rest)))) := by
  simp [blockTokens, Tokens.inBrackets, Tokens.word, Tokens.mark]

theorem length_blockTokens (source : String)
    (path patterns values : Tokens) :
    patterns.length < (blockTokens source path patterns values).length ∧
      values.length < (blockTokens source path patterns values).length := by
  simp only [blockTokens, Tokens.inBrackets, List.length_append,
    List.length_cons]
  omega

theorem length_lt_rebuild {source : String} {constructor : Constructor}
    {patterns : List (FieldName × Option String)}
    {terms : List (FieldName × MaskTerm)} {entry : FieldName × MaskTerm}
    {runtime : Tokens} (hentry : entry ∈ terms) :
    (entry.2.tokens runtime).length <
      ((MaskTerm.rebuild source constructor patterns terms).tokens
        runtime).length := by
  rw [tokens, valuesTokens_eq_map]
  calc
    (entry.2.tokens runtime).length ≤
        (assignedTokens entry.1 (entry.2.tokens runtime)).length :=
      length_le_assignedTokens _ _
    _ ≤ (Tokens.commaSeparated (terms.map fun entry =>
          assignedTokens entry.1 (entry.2.tokens runtime))).length :=
      length_le_of_mem (List.mem_map_of_mem hentry)
    _ < _ := (length_blockTokens source constructor.path _ _).2

/-- A block has more tokens than members in either of its lists. -/
theorem length_lists_lt_rebuild (source : String) (constructor : Constructor)
    (patterns : List (FieldName × Option String))
    (terms : List (FieldName × MaskTerm)) (runtime : Tokens) :
    patterns.length < ((MaskTerm.rebuild source constructor patterns
        terms).tokens runtime).length ∧
      terms.length < ((MaskTerm.rebuild source constructor patterns
        terms).tokens runtime).length := by
  have hpatterns := length_le_commaSeparated (List.forall_mem_map.mpr
    fun entry (_ : entry ∈ patterns) => beginsItem_patternTokens entry)
  have hterms := length_le_commaSeparated (List.forall_mem_map.mpr
    fun entry (_ : entry ∈ terms) =>
      beginsItem_assignedTokens entry.1 (entry.2.tokens runtime))
  rw [List.length_map] at hpatterns hterms
  rw [tokens, valuesTokens_eq_map]
  have hblock := length_blockTokens source constructor.path
    (Tokens.commaSeparated (patterns.map patternTokens))
    (Tokens.commaSeparated (terms.map fun entry =>
      assignedTokens entry.1 (entry.2.tokens runtime)))
  exact ⟨Nat.lt_of_le_of_lt hpatterns hblock.1,
    Nat.lt_of_le_of_lt hterms hblock.2⟩

theorem reads_block {source : String} {constructor : Constructor}
    {patterns : List (FieldName × Option String)}
    {terms : List (FieldName × MaskTerm)} {runtime : Tokens} {fuel : Nat}
    (value : FieldName → TokenReader MaskTerm) (hsource : source ≠ "_")
    (hpatterns : ∀ pattern ∈ patterns,
      pattern.1 ≠ .named "_" ∧ pattern.2 ≠ some "_")
    (hmembers : ∀ term ∈ terms, term.1 ≠ .named "_")
    (hterms : ∀ term ∈ terms,
      ReadsItem (value term.1) (term.2.tokens runtime) term.2)
    (hfuel : ((MaskTerm.rebuild source constructor patterns terms).tokens
      runtime).length ≤ fuel) (rest : Tokens) :
    block constructor value fuel
        ((MaskTerm.rebuild source constructor patterns terms).tokens runtime ++
          rest) =
      some (.rebuild source constructor patterns terms, rest) := by
  obtain ⟨hpatternCount, htermCount⟩ :=
    length_lists_lt_rebuild source constructor patterns terms runtime
  have hpattern : ∀ entry ∈ patterns,
      ReadsItem pattern (patternTokens entry) entry := fun entry hentry =>
    reads_pattern (hpatterns entry hentry).1 (hpatterns entry hentry).2
  have hvalue : ∀ entry ∈ terms, ReadsItem (assigned .bound value)
      (assignedTokens entry.1 (entry.2.tokens runtime)) entry :=
    fun entry hentry => reads_assigned (hmembers entry hentry)
      (hterms entry hentry)
      fun text _ htokens => (eq_bound_of_tokens htokens).symm
  have hpatternList := listed_separated hpattern
    (fun entry _ => beginsItem_patternTokens entry)
    (Nat.lt_of_lt_of_le hpatternCount hfuel)
  have htermList := listed_separated hvalue
    (fun entry _ => beginsItem_assignedTokens entry.1 _)
    (Nat.lt_of_lt_of_le htermCount hfuel)
  rw [tokens, valuesTokens_eq_map, blockTokens_append]
  apply (bind_of_eq (exactly_append _ _)).trans
  apply (bind_of_eq (hpatternList _)).trans
  apply (bind_of_eq (exactly_append [.closing .curly, .mark '=' false] _)).trans
  apply (bind_of_eq (name_word hsource _)).trans
  apply (bind_of_eq (exactly_append _ _)).trans
  apply (bind_of_eq (htermList _)).trans
  exact bind_of_eq (exactly_append [.closing .curly, .closing .curly] _)

/-! ### Terms -/

theorem maskCall_of_ne {runtime input : Tokens}
    (hinput : ∀ rest, input ≠
      runtime ++ (Tokens.pathSeparator ++ .word "Mask" :: rest)) :
    maskCall runtime input = none := by
  refine bind_of_none (exactly_eq_none fun rest heq => ?_) _
  apply hinput (separator ++ .word "mask" :: .opening .round :: rest)
  rw [heq]
  simp [separator, Tokens.pathSeparator, Tokens.operator]

theorem maskCall_maskedTokens {runtime : Tokens} {argument : String}
    (hargument : argument ≠ "_") (rest : Tokens) :
    maskCall runtime (maskedTokens runtime argument ++ rest) =
      some (.masked argument, rest) := by
  have hsplit : maskedTokens runtime argument ++ rest =
      (runtime ++ separator ++ [.word "Mask"] ++ separator ++
        [.word "mask", .opening .round]) ++
          (Tokens.word argument ++ ([.closing .round] ++ rest)) := by
    simp [maskedTokens, Tokens.inBrackets, Tokens.ofPath, Tokens.word,
      Tokens.pathSeparator, Tokens.operator, separator]
  rw [hsplit]
  apply (bind_of_eq (exactly_append _ _)).trans
  apply (bind_of_eq (name_word hargument _)).trans
  exact bind_of_eq (exactly_append _ _)

theorem maskCall_defaultTokens {runtime : Tokens} (hruntime : IsPath runtime)
    (rest : Tokens) : maskCall runtime (defaultTokens ++ rest) = none := by
  refine maskCall_of_ne fun later heq => ?_
  have hround : ¬ Token.GoesOn (.opening .round) := by simp [Token.GoesOn]
  have hsplit : defaultTokens ++ rest = Tokens.pathSeparator ++
      (Tokens.ofPath ["core", "default", "Default", "default"] ++
        .opening .round :: .closing .round :: rest) := by
    simp [defaultTokens, Tokens.inBrackets]
  have hmem := hruntime.mem_rooted_names hround (heq.symm.trans hsplit)
  simp at hmem

theorem maskCall_word {runtime : Tokens} (hruntime : IsPath runtime)
    {next : Token} (hnext : IsEnd next) (name : String) (rest : Tokens) :
    maskCall runtime (Tokens.word name ++ next :: rest) = none := by
  refine maskCall_of_ne fun later heq => ?_
  have hend : ¬ next.GoesOn := by
    rcases hnext with rfl | rfl
    · simp [Token.GoesOn]
    · simp [Token.GoesOn]
  have hmem : "Mask" ∈ [] := hruntime.mem_names hend heq.symm
  simp at hmem

theorem maskCall_opening {runtime : Tokens} (hruntime : IsPath runtime)
    (rest : Tokens) : maskCall runtime (.opening .curly :: rest) = none := by
  refine maskCall_of_ne fun later heq => ?_
  obtain ⟨token, others, htoken, hcases⟩ := hruntime.exists_token
  rw [htoken] at heq
  rcases hcases with rfl | ⟨name, rfl⟩
  · simp at heq
  · simp at heq

theorem defaultCall_defaultTokens (rest : Tokens) :
    defaultCall (defaultTokens ++ rest) = some (.default, rest) := by
  have hsplit : defaultTokens =
      separator ++ [.word "core"] ++ separator ++ [.word "default"] ++
        separator ++ [.word "Default"] ++ separator ++
        [.word "default", .opening .round, .closing .round] := rfl
  rw [hsplit]
  exact bind_of_eq (exactly_append _ _)

theorem defaultCall_of_ne {token : Token} (hne : token ≠ .mark ':' true)
    (rest : Tokens) : defaultCall (token :: rest) = none := by
  refine bind_of_none (exactly_eq_none fun later heq => ?_) _
  exact hne (List.cons.inj heq).1

theorem block_of_ne {constructor : Constructor}
    {value : FieldName → TokenReader MaskTerm} {fuel : Nat} {token : Token}
    (hne : token ≠ .opening .curly) (rest : Tokens) :
    block constructor value fuel (token :: rest) = none := by
  refine bind_of_none (exactly_eq_none fun later heq => ?_) _
  exact hne (List.cons.inj heq).1

theorem term_succ (paths : CodePaths) (fuel : Nat)
    (constructor? : Option Constructor) :
    term paths (fuel + 1) constructor? =
      (maskCall paths.runtime <|> defaultCall <|>
        (constructor?.elim failure fun constructor =>
          block constructor
            (fun member =>
              term paths fuel (paths.constructor? constructor.type member))
            fuel) <|>
        (MaskTerm.bound <$> name)) := rfl

theorem bound_name {text : String} (hname : text ≠ "_") (rest : Tokens) :
    (MaskTerm.bound <$> name) (Tokens.word text ++ rest) =
      some (.bound text, rest) := by
  show (name (Tokens.word text ++ rest) >>= fun found =>
    pure (MaskTerm.bound found.1, found.2)) = _
  rw [name_word hname]
  rfl

/-- A term is read back from its tokens.  The path of the runtime never runs
on into a default, a lone name or a block, so each alternative of the reader
fails on the terms of those behind it. -/
theorem reads_term {paths : CodePaths} (hruntime : IsPath paths.runtime)
    {constructor? : Option Constructor} {found : MaskTerm}
    (hlegible : found.IsLegible paths constructor?) {fuel : Nat}
    (hfuel : (found.tokens paths.runtime).length < fuel) :
    ReadsItem (term paths fuel constructor?) (found.tokens paths.runtime)
      found := by
  -- The values of a block are shorter than the block, and so is their bound.
  induction hlegible generalizing fuel with
  | default =>
      intro next rest _
      obtain ⟨left, rfl⟩ := Nat.exists_eq_add_one.mpr (Nat.zero_lt_of_lt hfuel)
      rw [tokens, term_succ]
      apply (orElse_of_none (maskCall_defaultTokens hruntime _) _).trans
      exact orElse_of_eq (defaultCall_defaultTokens _) _
  | masked hname =>
      intro next rest _
      obtain ⟨left, rfl⟩ := Nat.exists_eq_add_one.mpr (Nat.zero_lt_of_lt hfuel)
      rw [tokens, term_succ]
      exact orElse_of_eq (maskCall_maskedTokens hname _) _
  | @bound constructor? name hname =>
      intro next rest hnext
      obtain ⟨left, rfl⟩ := Nat.exists_eq_add_one.mpr (Nat.zero_lt_of_lt hfuel)
      have hblock : (constructor?.elim failure fun constructor =>
          block constructor
            (fun member =>
              term paths left (paths.constructor? constructor.type member))
            left) (.word name :: next :: rest) = none := by
        cases constructor? with
        | none => rfl
        | some constructor => exact block_of_ne (by simp) _
      rw [tokens, term_succ]
      apply (orElse_of_none (maskCall_word hruntime hnext _ _) _).trans
      apply (orElse_of_none (defaultCall_of_ne (by simp) _) _).trans
      apply (orElse_of_none hblock _).trans
      exact bound_name hname _
  | @rebuild source constructor patterns terms hsource hpatterns hmembers _
      ih =>
      intro next rest _
      obtain ⟨left, rfl⟩ := Nat.exists_eq_add_one.mpr (Nat.zero_lt_of_lt hfuel)
      have hleft := Nat.le_of_lt_succ hfuel
      have hvalues : ∀ entry ∈ terms,
          ReadsItem (term paths left
              (paths.constructor? constructor.type entry.1))
            (entry.2.tokens paths.runtime) entry.2 := fun entry hentry =>
        ih entry hentry (Nat.lt_of_lt_of_le (length_lt_rebuild hentry) hleft)
      have hread := reads_block (fun member =>
          term paths left (paths.constructor? constructor.type member))
        hsource hpatterns hmembers hvalues hleft (next :: rest)
      have hopening : ∃ others,
          (MaskTerm.rebuild source constructor patterns terms).tokens
            paths.runtime ++ next :: rest = .opening .curly :: others := by
        rw [tokens]
        exact ⟨_, rfl⟩
      obtain ⟨others, hothers⟩ := hopening
      rw [hothers] at hread ⊢
      rw [term_succ]
      apply (orElse_of_none (maskCall_opening hruntime _) _).trans
      apply (orElse_of_none (defaultCall_of_ne (by simp) _) _).trans
      exact orElse_of_eq hread _

/-! ### Implementations -/

theorem implementationTokens_eq (runtime path params body : Tokens) :
    implementationTokens runtime path params body =
      [.mark '#' false, .opening .square, .word "automatically_derived",
        .closing .square] ++
      (([.word "impl"] ++ params ++ runtime ++ separator ++
        [.word "Mask", .word "for"] ++ path ++ params ++ [.opening .curly]) ++
      ([.word "fn", .word "mask", .opening .round, .word "self",
        .closing .round, .mark '-' true, .mark '>' false, .word "Self"] ++
      (body ++ [.closing .curly]))) := by
  simp [implementationTokens, Tokens.inBrackets, Tokens.word, Tokens.mark,
    Tokens.operator, Tokens.pathSeparator, separator]

theorem implementation_tokens {paths : CodePaths}
    (hruntime : IsPath paths.runtime) {source : String}
    {constructor : Constructor} {patterns : List (FieldName × Option String)}
    {terms : List (FieldName × MaskTerm)} {found : MaskTerm}
    (hfound : found = .rebuild source constructor patterns terms)
    (hlegible : found.IsLegible paths (some constructor))
    (path params : Tokens) {fuel : Nat}
    (hfuel : (found.tokens paths.runtime).length ≤ fuel) :
    implementation paths path params constructor fuel
        (implementationTokens paths.runtime path params
          (found.tokens paths.runtime)) = some (found, []) := by
  subst hfound
  cases hlegible with
  | rebuild hsource hpatterns hmembers hterms =>
      have hvalues : ∀ entry ∈ terms,
          ReadsItem (term paths fuel
              (paths.constructor? constructor.type entry.1))
            (entry.2.tokens paths.runtime) entry.2 := fun entry hentry =>
        reads_term hruntime (hterms entry hentry)
          (Nat.lt_of_lt_of_le (length_lt_rebuild hentry) hfuel)
      have hbody := reads_block (fun member =>
          term paths fuel (paths.constructor? constructor.type member))
        hsource hpatterns hmembers hvalues hfuel [.closing .curly]
      rw [implementationTokens_eq]
      apply (bind_of_eq (exactly_append _ _)).trans
      apply (bind_of_eq (exactly_append _ _)).trans
      apply (bind_of_eq (exactly_append _ _)).trans
      apply (bind_of_eq hbody).trans
      exact bind_of_eq (exactly_append [.closing .curly] [])

/-- An implementation is read back from its tokens when it has a legible
body. -/
theorem body?_implementationTokens {paths : CodePaths}
    (hruntime : IsPath paths.runtime) {type : QualifiedName} {source : String}
    {patterns : List (FieldName × Option String)}
    {terms : List (FieldName × MaskTerm)} {found : MaskTerm}
    (hfound : found = .rebuild source ⟨type, Tokens.word "Self"⟩ patterns terms)
    (hlegible : found.IsLegible paths (some ⟨type, Tokens.word "Self"⟩))
    (path params : Tokens) :
    body? paths type path params
        (implementationTokens paths.runtime path params
          (found.tokens paths.runtime)) = some found := by
  have hlength : (found.tokens paths.runtime).length ≤
      (implementationTokens paths.runtime path params
        (found.tokens paths.runtime)).length := by
    rw [implementationTokens_eq]
    simp only [List.length_append]
    omega
  unfold body?
  rw [implementation_tokens hruntime hfound hlegible path params hlength]

end MaskReader

end RecordMasking
