import RecordMasking.Proofs.SpelledText

/-!
# Strings of JSON as they are written

A character is written plainly, by a short escape, or by the four digits of
its code point.  Each of these is one of its spellings, so what is written for
a string spells the string.
-/

namespace RecordMasking.Json

theorem isHexDigit_hexDigit {digit : Nat} (hdigit : digit < 16) :
    IsHexDigit digit (hexDigit digit) := by
  have hall : ∀ n < 16, IsHexDigit n (hexDigit n) := by decide
  exact hall digit hdigit

theorem mem_escapes_of_escape? {mark c : Char} (hmark : escape? mark = some c) :
    (mark, c) ∈ escapes := by
  revert hmark
  fun_cases escape? mark <;> simp_all [escapes, eq_comm]

/-! ## Characters -/

/-- The ways in which a character is written inside of a string. -/
inductive Spelling (c : Char) : List Char → Prop
  | short {mark : Char} (hmark : escape? mark = some c) (hunit : mark ≠ 'u') :
      Spelling c ['\\', mark]
  | code (hcontrol : c.toNat < 32) :
      Spelling c ['\\', 'u', '0', '0', hexDigit (c.toNat / 16),
        hexDigit (c.toNat % 16)]
  | plain (hquote : c ≠ '"') (hslash : c ≠ '\\') (hvisible : ¬ c.toNat < 32) :
      Spelling c [c]

theorem spelling_writeChar (c : Char) : Spelling c (writeChar c) := by
  fun_cases writeChar c with
  | case8 _ _ _ _ _ _ _ hcontrol => exact .code hcontrol
  | case9 hquote hslash _ _ _ _ _ hvisible =>
      exact .plain hquote hslash hvisible
  | _ => exact .short (by subst c; rfl) (by decide)

theorem Spelling.spells {c : Char} {written : List Char}
    (hspelling : Spelling c written) : SpellsChar c written := by
  cases hspelling with
  | short hmark _ => exact .short (mem_escapes_of_escape? hmark)
  | code hcontrol =>
      have hzero : IsHexDigit 0 '0' := by decide
      have hhigh : IsHexDigit (c.toNat / 16) (hexDigit (c.toNat / 16)) :=
        isHexDigit_hexDigit (by omega)
      have hlow : IsHexDigit (c.toNat % 16) (hexDigit (c.toNat % 16)) :=
        isHexDigit_hexDigit (by omega)
      have hdigits := SpellsUnit.digits hzero hzero hhigh hlow
      have hcode : ((0 * 16 + 0) * 16 + c.toNat / 16) * 16 + c.toNat % 16 =
          c.toNat := by omega
      rw [hcode] at hdigits
      exact .unit hdigits
  | plain hquote hslash hvisible =>
      exact .plain hquote hslash (Nat.not_lt.mp hvisible)

/-! ## Strings -/

theorem spells_flatMap_writeChar (text : List Char) :
    Spells text (text.flatMap writeChar) := by
  induction text with
  | nil => exact .nil
  | cons c others ih => exact .cons (spelling_writeChar c).spells ih

theorem toList_writeText (text : String) :
    (writeText text).toList =
      '"' :: (text.toList.flatMap writeChar ++ ['"']) := by
  simp [writeText]

end RecordMasking.Json
