import RecordMasking.Json.Text

/-!
# Spellings of strings

Inside of a string a character is spelled plainly, by a backslash and a mark,
or by the hexadecimal digits of its code point; a code point beyond sixteen
bits takes two groups of digits, which share its bits.  A text has a spelling
for each choice made at each of its characters, and all of them are read as
the text again.
-/

namespace RecordMasking.Json

/-! ## Digits -/

/-- A hexadecimal digit of the given value, of either case. -/
def IsHexDigit (value : Nat) (digit : Char) : Prop :=
  "0123456789abcdef".toList[value]? = some digit ∨
    "0123456789ABCDEF".toList[value]? = some digit

instance (value : Nat) (digit : Char) : Decidable (IsHexDigit value digit) :=
  inferInstanceAs (Decidable (_ ∨ _))

theorem hexValue?_of_isHexDigit {value : Nat} {digit : Char}
    (hdigit : IsHexDigit value digit) : hexValue? digit = some value := by
  have hall : ∀ n < 16,
      "0123456789abcdef".toList[n]?.bind hexValue? = some n ∧
        "0123456789ABCDEF".toList[n]?.bind hexValue? = some n := by
    decide
  rcases hdigit with hlower | hupper
  · have hvalue := (hall value (List.getElem?_eq_some_iff.mp hlower).1).1
    rwa [hlower] at hvalue
  · have hvalue := (hall value (List.getElem?_eq_some_iff.mp hupper).1).2
    rwa [hupper] at hvalue

/-- Four hexadecimal digits, the highest one first. -/
inductive SpellsUnit : Nat → List Char → Prop
  | digits {v w x y : Nat} {a b c d : Char} (ha : IsHexDigit v a)
      (hb : IsHexDigit w b) (hc : IsHexDigit x c) (hd : IsHexDigit y d) :
      SpellsUnit (((v * 16 + w) * 16 + x) * 16 + y) [a, b, c, d]

theorem SpellsUnit.takeUnit_eq {unit : Nat} {digits : List Char}
    (hunit : SpellsUnit unit digits) (rest : List Char) :
    takeUnit (digits ++ rest) = .ok (unit, rest) := by
  cases hunit with
  | @digits v w x y a b c d ha hb hc hd =>
      have hvalue : unit? a b c d =
          some ((v * 16 + w) * 256 + (x * 16 + y)) := by
        simp [unit?, hexValue?_of_isHexDigit ha, hexValue?_of_isHexDigit hb,
          hexValue?_of_isHexDigit hc, hexValue?_of_isHexDigit hd]
      have hsame : (v * 16 + w) * 256 + (x * 16 + y) =
          ((v * 16 + w) * 16 + x) * 16 + y := by omega
      simp [takeUnit, hvalue, hsame]

/-! ## Characters -/

/-- The marks behind a backslash, with the characters they stand for. -/
def escapes : List (Char × Char) :=
  [('"', '"'), ('\\', '\\'), ('/', '/'), ('b', '\x08'), ('f', '\x0c'),
    ('n', '\n'), ('r', '\r'), ('t', '\t')]

inductive SpellsChar (c : Char) : List Char → Prop
  | plain (hquote : c ≠ '"') (hslash : c ≠ '\\') (hvisible : 32 ≤ c.toNat) :
      SpellsChar c [c]
  | short {mark : Char} (hmark : (mark, c) ∈ escapes) :
      SpellsChar c ['\\', mark]
  | unit {digits : List Char} (hdigits : SpellsUnit c.toNat digits) :
      SpellsChar c ('\\' :: 'u' :: digits)
  /-- Ten bits each are added to the lowest unit of its kind. -/
  | pair {high low : Nat} {digits more : List Char}
      (hhigh : high < 1024) (hlow : low < 1024)
      (hcode : c.toNat = 65536 + high * 1024 + low)
      (hdigits : SpellsUnit (0xd800 + high) digits)
      (hmore : SpellsUnit (0xdc00 + low) more) :
      SpellsChar c ('\\' :: 'u' :: digits ++ '\\' :: 'u' :: more)

theorem not_isLeading_toNat (c : Char) : isLeading c.toNat = false := by
  have hvalid : c.toNat < 0xd800 ∨ 0xdfff < c.toNat ∧ c.toNat < 0x110000 :=
    c.valid
  simp [isLeading]
  omega

theorem not_isTrailing_toNat (c : Char) : isTrailing c.toNat = false := by
  have hvalid : c.toNat < 0xd800 ∨ 0xdfff < c.toNat ∧ c.toNat < 0x110000 :=
    c.valid
  simp [isTrailing]
  omega

namespace SpellsChar

variable {c : Char} {spelling : List Char}

theorem length_pos (hchar : SpellsChar c spelling) : 0 < spelling.length := by
  cases hchar <;> simp

theorem takeEscape_short {mark : Char} (hmark : (mark, c) ∈ escapes)
    (rest : List Char) : takeEscape (mark :: rest) = .ok (c, rest) := by
  have hall : ∀ entry ∈ escapes,
      entry.1 ≠ 'u' ∧ escape? entry.1 = some entry.2 := by
    decide
  obtain ⟨hunit, hmeaning⟩ := hall _ hmark
  rw [takeEscape]
  · rw [hmeaning]
  · exact hunit

theorem takeEscape_unit {digits : List Char}
    (hdigits : SpellsUnit c.toNat digits) (rest : List Char) :
    takeEscape ('u' :: (digits ++ rest)) = .ok (c, rest) := by
  simp [takeEscape, hdigits.takeUnit_eq, not_isLeading_toNat,
    not_isTrailing_toNat]

theorem takeEscape_pair {high low : Nat} {digits more : List Char}
    (hhigh : high < 1024) (hlow : low < 1024)
    (hcode : c.toNat = 65536 + high * 1024 + low)
    (hdigits : SpellsUnit (0xd800 + high) digits)
    (hmore : SpellsUnit (0xdc00 + low) more) (rest : List Char) :
    takeEscape ('u' :: (digits ++ '\\' :: 'u' :: (more ++ rest))) =
      .ok (c, rest) := by
  have hleading : isLeading (0xd800 + high) = true := by
    simp [isLeading]
    omega
  have hfirst : isTrailing (0xd800 + high) = false := by
    simp [isTrailing]
    omega
  have hsecond : isTrailing (0xdc00 + low) = true := by
    simp [isTrailing]
    omega
  have hjoined : pairChar (0xd800 + high) (0xdc00 + low) = c := by
    have hsum : (0xd800 + high - 0xd800) * 1024 + (0xdc00 + low - 0xdc00) +
        0x10000 = c.toNat := by omega
    rw [pairChar, hsum, Char.ofNat_toNat]
  simp [takeEscape, takeTrailing, hdigits.takeUnit_eq, hmore.takeUnit_eq,
    hleading, hfirst, hsecond, hjoined]

theorem takeChars_eq (hchar : SpellsChar c spelling) (fuel : Nat)
    (rest : List Char) :
    takeChars (fuel + 1) (spelling ++ rest) =
      (takeChars fuel rest).map fun found => (c :: found.1, found.2) := by
  have hescape : ∀ marks : List Char,
      takeEscape (marks ++ rest) = .ok (c, rest) →
        takeChars (fuel + 1) ('\\' :: marks ++ rest) =
          (takeChars fuel rest).map fun found => (c :: found.1, found.2) := by
    intro marks hmarks
    rw [List.cons_append, takeChars, if_neg (by decide), if_pos rfl, hmarks]
    dsimp only [bind, Except.bind]
    cases takeChars fuel rest <;> rfl
  cases hchar with
  | plain hquote hslash hvisible =>
      rw [List.singleton_append, takeChars, if_neg hquote, if_neg hslash,
        if_neg (Nat.not_lt.mpr hvisible)]
      cases takeChars fuel rest <;> rfl
  | @short mark hmark => exact hescape [mark] (takeEscape_short hmark rest)
  | unit hdigits => exact hescape _ (takeEscape_unit hdigits rest)
  | pair hhigh hlow hcode hdigits hmore =>
      apply hescape ('u' :: (_ ++ '\\' :: 'u' :: _))
      have hread := takeEscape_pair hhigh hlow hcode hdigits hmore rest
      simpa using hread

end SpellsChar

/-! ## Strings -/

inductive Spells : List Char → List Char → Prop
  | nil : Spells [] []
  | cons {c : Char} {text spelling rest : List Char}
      (hchar : SpellsChar c spelling) (hrest : Spells text rest) :
      Spells (c :: text) (spelling ++ rest)

namespace Spells

variable {text spelling : List Char}

theorem plain {text : List Char}
    (hplain : text.all fun c => c ≠ '"' ∧ c ≠ '\\' ∧ 32 ≤ c.toNat) :
    Spells text text := by
  induction text with
  | nil => exact .nil
  | cons c text ih =>
      rw [List.all_cons, Bool.and_eq_true, decide_eq_true_iff] at hplain
      obtain ⟨⟨hquote, hslash, hvisible⟩, hrest⟩ := hplain
      exact .cons (.plain hquote hslash hvisible) (ih hrest)

theorem append {others more : List Char} (hfirst : Spells text spelling)
    (hsecond : Spells others more) :
    Spells (text ++ others) (spelling ++ more) := by
  induction hfirst with
  | nil => exact hsecond
  | cons hchar _ ih =>
      rw [List.append_assoc]
      exact .cons hchar ih

theorem length_le (hspells : Spells text spelling) :
    text.length ≤ spelling.length := by
  induction hspells with
  | nil => simp
  | cons hchar _ ih =>
      have hpos := hchar.length_pos
      simp only [List.length_cons, List.length_append]
      omega

theorem takeChars_eq (hspells : Spells text spelling) {fuel : Nat}
    (hfuel : text.length < fuel) (rest : List Char) :
    takeChars fuel (spelling ++ '"' :: rest) = .ok (text, rest) := by
  induction hspells generalizing fuel with
  | nil =>
      obtain ⟨left, rfl⟩ := Nat.exists_eq_add_one.mpr hfuel
      rw [List.nil_append, takeChars, if_pos rfl]
  | cons hchar _ ih =>
      obtain ⟨left, rfl⟩ := Nat.exists_eq_add_one.mpr (Nat.zero_lt_of_lt hfuel)
      have hleft : _ < left := Nat.lt_of_succ_lt_succ hfuel
      rw [List.append_assoc, hchar.takeChars_eq, ih hleft]
      rfl

/-- A string is read to its closing quote and is the text that is spelled. -/
theorem takeText_eq {text : String} {spelling : List Char}
    (hspells : Spells text.toList spelling) (rest : List Char) :
    takeText (spelling ++ '"' :: rest) = .ok (text, rest) := by
  have hlength := hspells.length_le
  have hfuel : text.toList.length <
      (spelling ++ '"' :: rest).length + 1 := by
    rw [List.length_append]
    omega
  rw [takeText, hspells.takeChars_eq hfuel]
  simp [bind, Except.bind, pure, Except.pure]

end Spells

end RecordMasking.Json
