import RecordMasking.FieldPath

/-!
# Splitting what was joined

A text is split at the occurrences of one character, or at those of two
characters in a row.  Texts that do not hold the first of these characters can
be joined by them, and splitting gives them back.
-/

namespace RecordMasking

theorem mem_intercalate {separator : String} {names : List String}
    {c : Char} (hc : c ∈ (separator.intercalate names).toList) :
    c ∈ separator.toList ∨ ∃ name ∈ names, c ∈ name.toList := by
  induction names with
  | nil => simp at hc
  | cons first rest ih =>
      cases rest with
      | nil =>
          rw [String.intercalate_singleton] at hc
          exact .inr ⟨first, List.mem_cons_self, hc⟩
      | cons second others =>
          rw [String.intercalate_cons_cons, String.toList_append,
            String.toList_append, List.mem_append, List.mem_append] at hc
          rcases hc with (hfirst | hseparator) | hrest
          · exact .inr ⟨first, List.mem_cons_self, hfirst⟩
          · exact .inl hseparator
          · exact (ih hrest).imp_right fun ⟨name, hname, hmem⟩ =>
              ⟨name, List.mem_cons_of_mem _ hname, hmem⟩

/-! ## Splitting at a character -/

section Mark

variable {mark : Char}

theorem splitAt_eq_splitOn (text : List Char) :
    splitAt mark text = text.splitOn mark := by
  induction text with
  | nil => rfl
  | cons c rest ih =>
      rw [splitAt, ih, List.splitOn_cons_eq_if_modifyHead]
      by_cases hc : c = mark
      · rw [if_pos hc, if_pos (beq_iff_eq.mpr hc)]
      · rw [if_neg hc, if_neg (by simpa using hc)]
        cases hsplit : rest.splitOn mark with
        | nil => exact absurd hsplit (List.splitOn_ne_nil _ _)
        | cons piece others => rfl

theorem splitAt_of_not_mem {text : List Char} (hmark : mark ∉ text) :
    splitAt mark text = [text] := by
  rw [splitAt_eq_splitOn, List.splitOn_eq_singleton hmark]

theorem splitAt_append_mark {text : List Char} (hmark : mark ∉ text)
    (behind : List Char) :
    splitAt mark (text ++ mark :: behind) = text :: splitAt mark behind := by
  rw [splitAt_eq_splitOn, splitAt_eq_splitOn,
    List.splitOn_append_cons_self_of_not_mem hmark]

theorem splitAt_ne_nil (text : List Char) : splitAt mark text ≠ [] := by
  rw [splitAt_eq_splitOn]
  exact List.splitOn_ne_nil mark text

theorem splitAt_intercalate {separator : String}
    (hseparator : separator.toList = [mark]) {first : String}
    {rest : List String}
    (hmark : ∀ name ∈ first :: rest, mark ∉ name.toList) :
    splitAt mark (separator.intercalate (first :: rest)).toList =
      (first :: rest).map String.toList := by
  have hpieces : ∀ piece ∈ (first :: rest).map String.toList,
      mark ∉ piece := by
    intro piece hpiece
    obtain ⟨name, hname, rfl⟩ := List.mem_map.mp hpiece
    exact hmark name hname
  rw [splitAt_eq_splitOn, String.toList_intercalate, hseparator]
  exact List.splitOn_intercalate mark hpieces (List.cons_ne_nil _ _)

theorem mem_splitAt {text piece : List Char}
    (hpiece : piece ∈ splitAt mark text) : mark ∉ piece := by
  induction text generalizing piece with
  | nil =>
      rw [List.mem_singleton.mp hpiece]
      exact List.not_mem_nil
  | cons c rest ih =>
      unfold splitAt at hpiece
      split at hpiece
      next =>
        rcases List.mem_cons.mp hpiece with rfl | hrest
        · exact List.not_mem_nil
        · exact ih hrest
      next hc =>
        split at hpiece
        next hnil =>
          rw [List.mem_singleton.mp hpiece, List.mem_singleton]
          exact Ne.symm hc
        next first others hsplit =>
          rcases List.mem_cons.mp hpiece with rfl | hothers
          · rw [List.mem_cons, not_or]
            exact ⟨Ne.symm hc, ih (hsplit ▸ List.mem_cons_self)⟩
          · exact ih (hsplit ▸ List.mem_cons_of_mem _ hothers)

end Mark

/-! ## Splitting at two characters -/

/-- The stretches of a text between the occurrences of two characters in a
row, which are found from the left. -/
def splitAtPair (one next : Char) : List Char → List (List Char)
  | [] => [[]]
  | [c] => [[c]]
  | c :: d :: rest =>
      if c = one ∧ d = next then [] :: splitAtPair one next rest
      else
        match splitAtPair one next (d :: rest) with
        | [] => [[c]]
        | piece :: others => (c :: piece) :: others

section Pair

variable {one next : Char}

theorem splitAtPair_cons {c : Char} {rest : List Char}
    (hpair : ∀ others, c = one → rest = next :: others → False) :
    splitAtPair one next (c :: rest) =
      match splitAtPair one next rest with
      | [] => [[c]]
      | piece :: others => (c :: piece) :: others := by
  cases rest with
  | nil => rfl
  | cons d others =>
      have hchars : ¬ (c = one ∧ d = next) := by
        rintro ⟨hc, rfl⟩
        exact hpair others hc rfl
      rw [splitAtPair, if_neg hchars]

theorem splitAtPair_of_not_mem {text : List Char} (hone : one ∉ text) :
    splitAtPair one next text = [text] := by
  induction text with
  | nil => rfl
  | cons c rest ih =>
      rw [List.mem_cons, not_or] at hone
      rw [splitAtPair_cons fun _ hc _ => hone.1 hc.symm, ih hone.2]

theorem splitAtPair_append {text : List Char} (hone : one ∉ text)
    (behind : List Char) :
    splitAtPair one next (text ++ one :: next :: behind) =
      text :: splitAtPair one next behind := by
  induction text with
  | nil => rw [List.nil_append, splitAtPair, if_pos ⟨rfl, rfl⟩]
  | cons c rest ih =>
      rw [List.mem_cons, not_or] at hone
      rw [List.cons_append, splitAtPair_cons fun _ hc _ => hone.1 hc.symm, ih hone.2]

theorem splitAtPair_intercalate {separator : String}
    (hseparator : separator.toList = [one, next]) {first : String}
    {rest : List String}
    (hone : ∀ name ∈ first :: rest, one ∉ name.toList) :
    splitAtPair one next (separator.intercalate (first :: rest)).toList =
      (first :: rest).map String.toList := by
  induction rest generalizing first with
  | nil =>
      obtain ⟨hfirst, _⟩ := List.forall_mem_cons.mp hone
      rw [String.intercalate_singleton, splitAtPair_of_not_mem hfirst]
      rfl
  | cons second others ih =>
      obtain ⟨hfirst, hrest⟩ := List.forall_mem_cons.mp hone
      have hbehind := ih hrest
      rw [String.intercalate_cons_cons, String.toList_append,
        String.toList_append, hseparator, List.append_assoc,
        List.cons_append, List.singleton_append, splitAtPair_append hfirst,
        hbehind]
      rfl

/-- No character is lost, except for those of the pair. -/
theorem exists_mem_splitAtPair {text : List Char} {c : Char} (hc : c ∈ text)
    (hone : c ≠ one) (hnext : c ≠ next) :
    ∃ piece ∈ splitAtPair one next text, c ∈ piece := by
  induction text using splitAtPair.induct one next with
  | case1 => simp at hc
  | case2 d =>
      exact ⟨[d], List.mem_singleton_self _, hc⟩
  | case3 a b rest hpair ih =>
      have hrest : c ∈ rest := by
        rcases List.mem_cons.mp hc with rfl | hbehind
        · exact absurd hpair.1 hone
        · rcases List.mem_cons.mp hbehind with rfl | hrest
          · exact absurd hpair.2 hnext
          · exact hrest
      rw [splitAtPair, if_pos hpair]
      exact (ih hrest).imp fun piece hpiece =>
        ⟨List.mem_cons_of_mem _ hpiece.1, hpiece.2⟩
  | case4 a b rest hpair hnil ih =>
      rcases List.mem_cons.mp hc with rfl | hbehind
      · rw [splitAtPair, if_neg hpair, hnil]
        exact ⟨[c], List.mem_cons_self, List.mem_cons_self⟩
      · have hpieces := ih hbehind
        simp [hnil] at hpieces
  | case5 a b rest hpair piece others hsplit ih =>
      rw [splitAtPair, if_neg hpair, hsplit]
      rcases List.mem_cons.mp hc with rfl | hbehind
      · exact ⟨c :: piece, List.mem_cons_self, List.mem_cons_self⟩
      · obtain ⟨holder, hholder, hmem⟩ := ih hbehind
        rw [hsplit] at hholder
        rcases List.mem_cons.mp hholder with rfl | hothers
        · exact ⟨a :: holder, List.mem_cons_self,
            List.mem_cons_of_mem _ hmem⟩
        · exact ⟨holder, List.mem_cons_of_mem _ hothers, hmem⟩

end Pair

end RecordMasking
