import Mathlib.Data.List.Induction
import RecordMasking.Proofs.Splitting

/-!
# The text of a field path

A segment of a dotted text is a position when it is the numeral of a number
of 64 bits, and a name otherwise.  The names that read back are those that no
dot divides and that are not such numerals.  Reading only ever gives names of
this kind, so a path that was read once is read again from its text.
-/

namespace RecordMasking

/-! ## Numerals -/

/-- The decimal digits of a number, maybe behind zeros and a plus sign. -/
def IsNumeral (text : List Char) (value : Nat) : Prop :=
  ∃ sign zeros, (sign = [] ∨ sign = ['+']) ∧
    text = sign ++ (List.replicate zeros '0' ++ Nat.toDigits 10 value)

theorem digitsValue_append (lead digits : List Char) :
    digitsValue (lead ++ digits) =
      Nat.ofDigitChars 10 digits (digitsValue lead) :=
  Nat.ofDigitChars_append 0

theorem digitsValue_padded (zeros value : Nat) :
    digitsValue (List.replicate zeros '0' ++ Nat.toDigits 10 value) =
      value := by
  have hzeros : digitsValue (List.replicate zeros '0') = 0 :=
    Nat.ofDigitChars_replicate_zero.trans (Nat.mul_zero _)
  rw [digitsValue_append, hzeros, Nat.ofDigitChars_ten_toDigits]

theorem isDigit_of_mem_padded {zeros value : Nat} {c : Char}
    (hc : c ∈ List.replicate zeros '0' ++ Nat.toDigits 10 value) :
    c.isDigit = true := by
  rcases List.mem_append.mp hc with hzero | hdigit
  · rw [List.eq_of_mem_replicate hzero]
    rfl
  · exact Nat.isDigit_of_mem_toDigits (by decide) (by decide) hdigit

/-- The value of one more digit. -/
theorem digitsValue_concat {digit : Char} (lead : List Char) :
    digitsValue (lead ++ [digit]) =
      10 * digitsValue lead + (digit.toNat - '0'.toNat) := by
  rw [digitsValue_append]
  rfl

theorem digitChar_of_isDigit {digit : Char} (hdigit : digit.isDigit = true) :
    digit.toNat - '0'.toNat < 10 ∧
      Nat.digitChar (digit.toNat - '0'.toNat) = digit := by
  have hrange := Char.isDigit_iff_toNat.mp hdigit
  have hzero : '0'.toNat = 48 := rfl
  have hnine : '9'.toNat = 57 := rfl
  have hsmall : digit.toNat - '0'.toNat < 10 := by omega
  have hback : (Nat.digitChar (digit.toNat - '0'.toNat)).toNat =
      digit.toNat := by
    rw [Nat.toNat_digitChar_of_lt_ten hsmall]
    omega
  exact ⟨hsmall, Char.toNat_inj.mp hback⟩

/-- Digits are those of their value behind some zeros. -/
theorem exists_padded {digits : List Char} (hsome : digits ≠ [])
    (hdigits : ∀ c ∈ digits, c.isDigit = true) :
    ∃ zeros, digits = List.replicate zeros '0' ++
      Nat.toDigits 10 (digitsValue digits) := by
  induction digits using List.reverseRecOn with
  | nil => exact absurd rfl hsome
  | append_singleton lead digit ih =>
      have hdigit := hdigits digit (by simp)
      obtain ⟨hsmall, hdigitChar⟩ := digitChar_of_isDigit hdigit
      have hsingle :
          Nat.toDigits 10 (digit.toNat - '0'.toNat) = [digit] := by
        rw [Nat.toDigits_of_lt_base hsmall, hdigitChar]
      rw [digitsValue_concat]
      by_cases hlead : lead = []
      · subst hlead
        refine ⟨0, ?_⟩
        have hvalue : digitsValue [] = 0 := rfl
        rw [hvalue, Nat.mul_zero, Nat.zero_add, hsingle]
        rfl
      · obtain ⟨zeros, hzeros⟩ := ih hlead fun c hc =>
          hdigits c (List.mem_append_left _ hc)
        -- The single digit of zero is one more of the zeros in front.
        by_cases hvalue : digitsValue lead = 0
        · refine ⟨zeros + 1, ?_⟩
          rw [hvalue, Nat.toDigits_zero, ← List.replicate_succ'] at hzeros
          rw [hvalue, Nat.mul_zero, Nat.zero_add, hsingle]
          exact congrArg (· ++ [digit]) hzeros
        · refine ⟨zeros, ?_⟩
          have hpositive : 0 < digitsValue lead := Nat.pos_of_ne_zero hvalue
          rw [← Nat.toDigits_append_toDigits (by decide) hpositive hsmall,
            hsingle, ← List.append_assoc, ← hzeros]

/-- What follows the sign. -/
def unsigned (text : List Char) : List Char :=
  match text with
  | '+' :: rest => rest
  | _ => text

theorem exists_sign (text : List Char) :
    ∃ sign, (sign = [] ∨ sign = ['+']) ∧ text = sign ++ unsigned text := by
  unfold unsigned
  split
  next rest => exact ⟨['+'], .inr rfl, rfl⟩
  next => exact ⟨[], .inl rfl, rfl⟩

theorem unsigned_append {sign digits : List Char}
    (hsign : sign = [] ∨ sign = ['+'])
    (hdigits : ∀ c ∈ digits, c.isDigit = true) :
    unsigned (sign ++ digits) = digits := by
  rcases hsign with rfl | rfl
  · unfold unsigned
    split
    next rest heq =>
      have hplus : '+' ∈ digits := by
        rw [List.nil_append] at heq
        exact heq ▸ List.mem_cons_self
      exact absurd (hdigits '+' hplus) (by decide)
    next => rfl
  · rfl

theorem position?_eq (text : List Char) :
    position? text =
      if (unsigned text).isEmpty || !(unsigned text).all Char.isDigit then none
      else if digitsValue (unsigned text) < positionBound then
        some (digitsValue (unsigned text))
      else none :=
  rfl

/-- The texts that are read as positions, with the positions they are. -/
theorem position?_eq_some_iff {text : List Char} {value : Nat} :
    position? text = some value ↔
      value < positionBound ∧ IsNumeral text value := by
  rw [position?_eq]
  constructor
  · intro hvalue
    split at hvalue
    next => simp at hvalue
    next hdigits =>
      split at hvalue
      next hbound =>
        obtain rfl := Option.some.inj hvalue
        rw [Bool.or_eq_true, not_or, Bool.not_eq_true', Bool.not_eq_false,
          List.isEmpty_iff, List.all_eq_true] at hdigits
        obtain ⟨zeros, hzeros⟩ := exists_padded hdigits.1 hdigits.2
        obtain ⟨sign, hsign, htext⟩ := exists_sign text
        rw [hzeros] at htext
        exact ⟨hbound, sign, zeros, hsign, htext⟩
      next => simp at hvalue
  · rintro ⟨hbound, sign, zeros, hsign, rfl⟩
    have hall : (List.replicate zeros '0' ++
        Nat.toDigits 10 value).all Char.isDigit = true :=
      List.all_eq_true.mpr fun c hc => isDigit_of_mem_padded hc
    have hsome : (List.replicate zeros '0' ++
        Nat.toDigits 10 value).isEmpty = false := by
      simp [Nat.toDigits_ne_nil]
    rw [unsigned_append hsign fun c hc => isDigit_of_mem_padded hc,
      digitsValue_padded, hall, hsome, if_pos hbound]
    rfl

/-! ## Names that read back -/

namespace FieldName

/-- A name that no dot divides and that is not the numeral of a position, or
a position of 64 bits. -/
def IsPlain : FieldName → Prop
  | .named text => text ≠ "" ∧ '.' ∉ text.toList ∧
      ∀ value < positionBound, ¬ IsNumeral text.toList value
  | .position index => index < positionBound

theorem toList_display_position (index : Nat) :
    (display (.position index)).toList = Nat.toDigits 10 index :=
  Nat.toList_repr

theorem position?_display {index : Nat} (hindex : index < positionBound) :
    position? (display (.position index)).toList = some index := by
  have hnumeral : IsNumeral (Nat.toDigits 10 index) index :=
    ⟨[], 0, .inl rfl, rfl⟩
  rw [toList_display_position]
  exact position?_eq_some_iff.mpr ⟨hindex, hnumeral⟩

theorem ofText_display {name : FieldName} (hname : name.IsPlain) :
    ofText name.display.toList = name := by
  unfold ofText
  cases name with
  | named text =>
      obtain ⟨_, _, hnumeral⟩ := hname
      have hnone : position? text.toList = none := by
        rw [Option.eq_none_iff_forall_ne_some]
        intro value hvalue
        obtain ⟨hbound, htext⟩ := position?_eq_some_iff.mp hvalue
        exact hnumeral value hbound htext
      rw [display, hnone]
      simp
  | position index => rw [position?_display hname]

theorem isPlain_ofText {text : List Char} (hsome : text ≠ [])
    (hdot : '.' ∉ text) : (ofText text).IsPlain := by
  unfold ofText
  split
  next index hindex => exact (position?_eq_some_iff.mp hindex).1
  next hnone =>
    have hnumeral : ∀ value < positionBound,
        ¬ IsNumeral (String.ofList text).toList value := by
      intro value hbound htext
      rw [String.toList_ofList] at htext
      rw [position?_eq_some_iff.mpr ⟨hbound, htext⟩] at hnone
      simp at hnone
    refine ⟨?_, ?_, hnumeral⟩
    · rw [Ne, ← String.toList_eq_nil_iff, String.toList_ofList]
      exact hsome
    · rw [String.toList_ofList]
      exact hdot

theorem dot_not_mem_display {name : FieldName} (hname : name.IsPlain) :
    '.' ∉ name.display.toList := by
  cases name with
  | named text => exact hname.2.1
  | position index =>
      intro hdot
      rw [toList_display_position] at hdot
      have hdigit := Nat.isDigit_of_mem_toDigits (by decide) (by decide) hdot
      simp at hdigit

theorem display_ne_empty {name : FieldName} (hname : name.IsPlain) :
    name.display.toList ≠ [] := by
  cases name with
  | named text => exact fun hnil => hname.1 (String.toList_eq_nil_iff.mp hnil)
  | position index =>
      rw [toList_display_position]
      exact Nat.toDigits_ne_nil

end FieldName

/-! ## Paths -/

namespace FieldPath

theorem isPlain_of_mem_parse {text : String} {name : FieldName}
    (hname : name ∈ parse text) : name.IsPlain := by
  unfold parse at hname
  obtain ⟨piece, hpiece, rfl⟩ := List.mem_map.mp hname
  obtain ⟨hsplit, hsome⟩ := List.mem_filter.mp hpiece
  have hfilled : piece ≠ [] := by simpa using hsome
  exact FieldName.isPlain_ofText hfilled (mem_splitAt hsplit)

theorem parse_display {path : FieldPath}
    (hpath : ∀ name ∈ path, name.IsPlain) : parse (display path) = path := by
  cases path with
  | nil => rfl
  | cons first rest =>
      have hdots : ∀ text ∈ (first :: rest).map FieldName.display,
          '.' ∉ text.toList := by
        intro text htext
        obtain ⟨name, hname, rfl⟩ := List.mem_map.mp htext
        exact FieldName.dot_not_mem_display (hpath name hname)
      have hpieces : splitAt '.' (display (first :: rest)).toList =
          ((first :: rest).map FieldName.display).map String.toList :=
        splitAt_intercalate rfl hdots
      have hfilled : ∀ piece ∈ ((first :: rest).map
          FieldName.display).map String.toList, (!piece.isEmpty) = true := by
        intro piece hpiece
        rw [List.map_map] at hpiece
        obtain ⟨name, hname, rfl⟩ := List.mem_map.mp hpiece
        simpa using FieldName.display_ne_empty (hpath name hname)
      have hread : ∀ name ∈ first :: rest,
          FieldName.ofText name.display.toList = name := fun name hname =>
        FieldName.ofText_display (hpath name hname)
      unfold parse
      rw [hpieces, List.filter_eq_self.mpr hfilled, List.map_map,
        List.map_map]
      exact (List.map_congr_left hread).trans (List.map_id _)

theorem parse_display_parse (text : String) :
    parse (display (parse text)) = parse text :=
  parse_display fun _ hname => isPlain_of_mem_parse hname

theorem parse_display_iff {path : FieldPath} :
    parse (display path) = path ↔ ∀ name ∈ path, name.IsPlain := by
  constructor
  · intro hread name hname
    rw [← hread] at hname
    exact isPlain_of_mem_parse hname
  · exact parse_display

end FieldPath

end RecordMasking
