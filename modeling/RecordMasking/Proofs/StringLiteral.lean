import RecordMasking.Code.Lexer
import RecordMasking.Code.Quoted

/-!
# What a string literal means

A literal is read character by character: an escape stands for one character,
a backslash at the end of a line for nothing, and everything else for itself.
Whatever the text, its literal means that text, and takes up one line.
-/

namespace RecordMasking.Code

open Lexer

/-! ## Reading a literal -/

/-- The characters that are written by a backslash and one more character. -/
def simpleEscape? : Char → Option Char
  | 'n' => some '\n'
  | 'r' => some '\r'
  | 't' => some '\t'
  | '0' => some '\x00'
  | '\\' => some '\\'
  | '\'' => some '\''
  | '"' => some '"'
  | _ => none

/-- The character that two digits stand for. -/
def shortCode? (high low : Char) : Option Char :=
  match hexValue? high, hexValue? low with
  | some h, some l => if h < 8 then some (Char.ofNat (16 * h + l)) else none
  | _, _ => none

/-- The character whose code point is written up to a closing brace, after
so many digits of the given value, and what is behind it. -/
def longCode? (digits value : Nat) :
    List Char → Option (Char × List Char)
  | [] => none
  | c :: rest =>
      match hexValue? c with
      | some digit =>
          if digits = 6 then none
          else longCode? (digits + 1) (16 * value + digit) rest
      | none =>
          if digits = 0 then none
          else if c = '_' then longCode? digits value rest
          else if c = '\x7d' ∧ value.isValidChar then
            some (Char.ofNat value, rest)
          else none

/-- The first character of the text of a literal, and what is behind it. -/
def meantChar? : List Char → Option (Char × List Char)
  | [] => none
  | '\r' :: '\n' :: rest => some ('\n', rest)
  | '\r' :: _ => none
  | '\\' :: 'x' :: high :: low :: rest =>
      (shortCode? high low).map fun c => (c, rest)
  | '\\' :: 'u' :: '\x7b' :: rest => longCode? 0 0 rest
  | '\\' :: c :: rest => (simpleEscape? c).map fun meant => (meant, rest)
  | '\\' :: [] => none
  | c :: rest => some (c, rest)

/-- Blanks that a backslash at the end of a line takes with it. -/
def isLeadingBlank (c : Char) : Bool :=
  c = ' ' || c = '\t' || c = '\n' || c = '\r'

/-- The text of a literal whose opening quote has been read, and what is
behind its closing quote. -/
def meantText? (text : List Char) : Option (List Char × List Char) :=
  match text with
  | '"' :: rest => some ([], rest)
  | '\\' :: '\n' :: rest => meantText? (rest.dropWhile isLeadingBlank)
  | text =>
      match meantChar? text with
      | none => none
      | some (c, rest) =>
          if rest.length < text.length then
            (meantText? rest).map fun meant => (c :: meant.1, meant.2)
          else none
termination_by text.length
decreasing_by
  · have hdrop := (List.dropWhile_sublist isLeadingBlank (l := rest)).length_le
    simp only [List.length_cons]
    omega
  · assumption

/-- The text that the literal in front stands for, and what is behind it. -/
def meaning? : List Char → Option (String × List Char)
  | '"' :: rest =>
      (meantText? rest).map fun meant => (String.ofList meant.1, meant.2)
  | _ => none

/-! ## Code points -/

/-- The value of digits behind others. -/
def digitsValue (value : Nat) (digits : List Char) : Nat :=
  digits.foldl (fun value c => 16 * value + (hexValue? c).getD 0) value

theorem hexValue?_digitChar {digit : Nat} (hdigit : digit < 16) :
    hexValue? digit.digitChar = some digit := by
  have hall : ∀ n < 16, hexValue? (Nat.digitChar n) = some n := by decide
  exact hall digit hdigit

theorem hexDigits_eq (n : Nat) :
    hexDigits n = if n < 16 then [n.digitChar]
      else hexDigits (n / 16) ++ [(n % 16).digitChar] :=
  Nat.toDigits_eq_if (by decide)

theorem isSome_hexValue? {n : Nat} :
    ∀ c ∈ hexDigits n, (hexValue? c).isSome := by
  induction n using Nat.strongRecOn with
  | ind n ih =>
      rw [hexDigits_eq]
      split
      next hn =>
        rw [List.forall_mem_singleton, hexValue?_digitChar hn]
        rfl
      next hn =>
        rw [List.forall_mem_append, List.forall_mem_singleton,
          hexValue?_digitChar (Nat.mod_lt _ (by decide))]
        exact ⟨ih (n / 16) (by omega), rfl⟩

theorem digitsValue_hexDigits (n : Nat) : digitsValue 0 (hexDigits n) = n := by
  induction n using Nat.strongRecOn with
  | ind n ih =>
      have hlast := hexValue?_digitChar (Nat.mod_lt n (by decide : 16 > 0))
      rw [hexDigits_eq]
      split
      next hn => simp [digitsValue, hexValue?_digitChar hn]
      next hn =>
        have hbefore := ih (n / 16) (by omega)
        unfold digitsValue at hbefore ⊢
        rw [List.foldl_append, hbefore, List.foldl_cons, List.foldl_nil,
          hlast, Option.getD_some]
        omega

theorem longCode?_append {digits : List Char}
    (hdigits : ∀ c ∈ digits, (hexValue? c).isSome) {count : Nat}
    (hcount : count + digits.length ≤ 6) (value : Nat) (rest : List Char) :
    longCode? count value (digits ++ rest) =
      longCode? (count + digits.length) (digitsValue value digits) rest := by
  induction digits generalizing count value with
  | nil => rfl
  | cons c others ih =>
      obtain ⟨hc, hothers⟩ := List.forall_mem_cons.mp hdigits
      obtain ⟨digit, hdigit⟩ := Option.isSome_iff_exists.mp hc
      rw [List.length_cons] at hcount
      have hroom : count ≠ 6 := by omega
      have hnext := ih hothers (by omega : count + 1 + others.length ≤ 6)
        (16 * value + digit)
      simp only [List.cons_append, longCode?, hdigit, if_neg hroom, hnext,
        List.length_cons, digitsValue, List.foldl_cons, Option.getD_some]
      congr 1
      omega

theorem longCode?_hexDigits (c : Char) (rest : List Char) :
    longCode? 0 0 (hexDigits c.toNat ++ '\x7d' :: rest) = some (c, rest) := by
  have hvalid : c.toNat.isValidChar := c.valid
  have hbound : c.toNat < 16 ^ 6 := by
    rcases hvalid with hlow | ⟨_, hhigh⟩
    · omega
    · omega
  have hlength : (hexDigits c.toNat).length ≤ 6 :=
    (Nat.length_toDigits_le_iff (by decide) (by decide)).mpr hbound
  have hsome : 0 + (hexDigits c.toNat).length ≠ 0 := by
    have hpositive : 0 < (hexDigits c.toNat).length := Nat.length_toDigits_pos
    omega
  have hbrace : hexValue? '\x7d' = none := by decide
  rw [longCode?_append isSome_hexValue? (by omega), digitsValue_hexDigits]
  simp only [longCode?, hbrace, if_neg hsome]
  rw [if_neg (by decide), if_pos ⟨trivial, hvalid⟩, Char.ofNat_toNat]

/-! ## Characters inside a literal -/

/-- The ways in which a character is written inside a literal. -/
inductive Escaped (c : Char) : List Char → Prop
  | plain (hquote : c ≠ '"') (hslash : c ≠ '\\') (hbreak : c ≠ '\n')
      (hreturn : c ≠ '\r') : Escaped c [c]
  | simple {mark : Char} (hmark : simpleEscape? mark = some c) :
      Escaped c ['\\', mark]
  | nul (hc : c = '\x00') : Escaped c ['\\', 'x', '0', '0']
  | code : Escaped c
      ('\\' :: 'u' :: '\x7b' :: (hexDigits c.toNat ++ ['\x7d']))

theorem escaped_escapeChar (next : Option Char) (c : Char) :
    Escaped c (escapeChar next c) := by
  fun_cases escapeChar next c with
  | case1 hc => exact .nul hc
  | case9 => exact .code
  | case10 _ _ hquote hslash hbreak hreturn =>
      exact .plain hquote hslash hbreak hreturn
  | _ => exact .simple (by subst c; rfl)

namespace Escaped

variable {c : Char} {written : List Char}

theorem meantChar?_eq (hescaped : Escaped c written) (rest : List Char) :
    meantChar? (written ++ rest) = some (c, rest) := by
  cases hescaped with
  | plain _ hslash _ hreturn =>
      rw [List.singleton_append]
      unfold meantChar?
      split
      all_goals simp_all
  | simple hmark =>
      unfold simpleEscape? at hmark
      split at hmark
      all_goals cases hmark
      all_goals rfl
  | nul hc =>
      rw [hc]
      rfl
  | code => simp [meantChar?, longCode?_hexDigits]

/-- Neither the closing quote nor the end of a line. -/
theorem goesOn (hescaped : Escaped c written) (rest behind : List Char) :
    written ++ rest ≠ '"' :: behind ∧
      written ++ rest ≠ '\\' :: '\n' :: behind := by
  cases hescaped with
  | plain hquote hslash _ _ => simp [hquote, hslash]
  | @simple mark hmark =>
      refine ⟨by simp, fun hsame => ?_⟩
      obtain ⟨rfl, _⟩ : mark = '\n' ∧ rest = behind := by simpa using hsame
      cases hmark
  | nul => simp
  | code => simp

theorem length_pos (hescaped : Escaped c written) : 0 < written.length := by
  cases hescaped <;> simp

theorem meantText?_eq (hescaped : Escaped c written) (rest : List Char) :
    meantText? (written ++ rest) =
      (meantText? rest).map fun meant => (c :: meant.1, meant.2) := by
  have hlength : rest.length < (written ++ rest).length := by
    have hwritten := hescaped.length_pos
    rw [List.length_append]
    omega
  rw [meantText?.eq_3, hescaped.meantChar?_eq rest]
  · exact if_pos hlength
  · exact fun behind => (hescaped.goesOn rest behind).1
  · exact fun behind => (hescaped.goesOn rest behind).2

theorem break_not_mem (hescaped : Escaped c written) : '\n' ∉ written := by
  cases hescaped with
  | plain _ _ hbreak _ => simpa using Ne.symm hbreak
  | @simple mark hmark =>
      intro hmem
      obtain rfl : '\n' = mark := by simpa using hmem
      cases hmark
  | nul => decide
  | code =>
      have hdigit : '\n' ∉ hexDigits c.toNat := fun hmem => by
        simpa [hexValue?] using isSome_hexValue? _ hmem
      simp [hdigit]

end Escaped

/-! ## A literal means its text -/

theorem meantText?_escapeText (text rest : List Char) :
    meantText? (escapeText text ++ '"' :: rest) = some (text, rest) := by
  induction text with
  | nil => rw [escapeText, List.nil_append, meantText?]
  | cons c others ih =>
      rw [escapeText, List.append_assoc,
        (escaped_escapeChar others.head? c).meantText?_eq, ih]
      rfl

/-- The literal that is written for a text means that text. -/
theorem meaning?_quoted (text : String) (rest : List Char) :
    meaning? ((quoted text).toList ++ rest) = some (text, rest) := by
  have hwritten : (quoted text).toList ++ rest =
      '"' :: (escapeText text.toList ++ '"' :: rest) := by
    simp [quoted]
  rw [hwritten, meaning?, meantText?_escapeText]
  simp

example : meaning? "\"a\\n\\u\x7b1\x7d\");".toList =
    some ("a\n\x01", ");".toList) := by cbv

theorem break_not_mem_escapeText (text : List Char) :
    '\n' ∉ escapeText text := by
  induction text with
  | nil => exact List.not_mem_nil
  | cons c others ih =>
      rw [escapeText, List.mem_append, not_or]
      exact ⟨(escaped_escapeChar others.head? c).break_not_mem, ih⟩

/-- A literal takes up one line. -/
theorem break_not_mem_quoted (text : String) :
    '\n' ∉ (quoted text).toList := by
  have hbreak := break_not_mem_escapeText text.toList
  simp [quoted, hbreak]

end RecordMasking.Code
