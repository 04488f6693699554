import Mathlib.Data.List.Nodup
import Mathlib.Data.List.Perm.Subperm
import RecordMasking.Decimal.Digits
import RecordMasking.Output.Tree

/-!
# Entries of an output tree

What is found at a place after an entry has been set or removed, and that a
directory always has a free name for a temporary file: the names to choose
from outnumber the entries.  A tree without links stays one when directories
and files are put into it.
-/

namespace RecordMasking

namespace Place

/-- The two places that every tree has. -/
def IsStart (place : Place) : Prop := place = [] ∨ place = root

theorem not_isStart_append {directory : Place} {name : String}
    (hname : name ≠ "/") : ¬ IsStart (directory ++ [name]) := by
  rintro (hnil | hroot)
  · simp at hnil
  · have hlast := congrArg List.getLast? hroot
    rw [List.getLast?_concat] at hlast
    have heq : name = "/" := by simpa [root] using hlast
    exact hname heq

end Place

namespace Entry

def isLink : Entry → Bool
  | .link _ => true
  | _ => false

end Entry

namespace OutputTree

variable {tree : OutputTree}

theorem entry?_of_isStart {place : Place} (hstart : place.IsStart) :
    tree.entry? place = some .directory := by
  unfold entry?
  exact if_pos hstart

theorem entry?_of_not_isStart {place : Place} (hplace : ¬ place.IsStart) :
    tree.entry? place =
      (tree.entries.find? fun entry => entry.1 == place).map Prod.snd := by
  unfold entry?
  exact if_neg hplace

theorem not_isStart_of_vacant {place : Place}
    (hvacant : tree.entry? place = none) : ¬ place.IsStart := by
  intro hstart
  rw [entry?_of_isStart hstart] at hvacant
  simp at hvacant

theorem entry?_eq_none_iff {place : Place} (hplace : ¬ place.IsStart) :
    tree.entry? place = none ↔ ∀ entry ∈ tree.entries, entry.1 ≠ place := by
  rw [entry?_of_not_isStart hplace]
  simp

/-! ## Setting and removing -/

theorem entry?_remove_self {place : Place} (hplace : ¬ place.IsStart) :
    entry? (tree.remove place) place = none := by
  rw [entry?_eq_none_iff hplace]
  intro entry hentry
  have hkept := (List.mem_filter.mp hentry).2
  simpa using hkept

theorem entry?_remove_of_ne {place other : Place} (hne : other ≠ place) :
    entry? (tree.remove place) other = tree.entry? other := by
  by_cases hstart : other.IsStart
  · rw [entry?_of_isStart hstart, entry?_of_isStart hstart]
  · rw [entry?_of_not_isStart hstart, entry?_of_not_isStart hstart, remove,
      List.find?_filter]
    congr 2
    funext entry
    by_cases heq : entry.1 = other
    · simp [heq, hne]
    · simp [heq]

theorem remove_of_vacant {place : Place}
    (hvacant : tree.entry? place = none) : tree.remove place = tree := by
  have hother :=
    (entry?_eq_none_iff (not_isStart_of_vacant hvacant)).mp hvacant
  have hentries : tree.entries.filter (fun entry => entry.1 != place) =
      tree.entries := by
    rw [List.filter_eq_self]
    intro entry hentry
    simpa using hother entry hentry
  unfold remove
  rw [hentries]

theorem entry?_set_self {place : Place} (hplace : ¬ place.IsStart)
    (entry : Entry) : entry? (tree.set place entry) place = some entry := by
  have hnone : entry? (tree.remove place) place = none :=
    entry?_remove_self hplace
  rw [entry?_of_not_isStart hplace, Option.map_eq_none_iff] at hnone
  rw [entry?_of_not_isStart hplace, set, List.find?_append, hnone]
  simp

theorem entry?_set_of_ne {place other : Place} (hne : other ≠ place)
    (entry : Entry) :
    entry? (tree.set place entry) other = tree.entry? other := by
  have hremoved : entry? (tree.remove place) other = tree.entry? other :=
    entry?_remove_of_ne hne
  rw [← hremoved]
  by_cases hstart : other.IsStart
  · rw [entry?_of_isStart hstart, entry?_of_isStart hstart]
  · rw [entry?_of_not_isStart hstart, entry?_of_not_isStart hstart, set,
      List.find?_append]
    have hlast : [(place, entry)].find? (fun entry => entry.1 == other) =
        none := by
      simpa using Ne.symm hne
    rw [hlast, Option.or_none]

theorem remove_set {place : Place} (hvacant : tree.entry? place = none)
    (entry : Entry) : (tree.set place entry).remove place = tree := by
  have hsame := remove_of_vacant hvacant
  unfold set
  rw [hsame]
  unfold remove at hsame ⊢
  rw [List.filter_append]
  simpa using hsame

/-! ## Trees without links -/

/-- No entry is a link. -/
def LinkFree (tree : OutputTree) : Prop :=
  ∀ entry ∈ tree.entries, entry.2.isLink = false

instance (tree : OutputTree) : Decidable tree.LinkFree :=
  inferInstanceAs (Decidable (∀ entry ∈ tree.entries, _))

theorem LinkFree.entry?_ne_link (hlinks : tree.LinkFree) (place : Place)
    (target : OutputPath) : tree.entry? place ≠ some (.link target) := by
  intro hlink
  by_cases hstart : place.IsStart
  · simp [entry?_of_isStart hstart] at hlink
  · rw [entry?_of_not_isStart hstart] at hlink
    obtain ⟨entry, hfound, hentry⟩ := Option.map_eq_some_iff.mp hlink
    have hkind := hlinks entry (List.mem_of_find?_eq_some hfound)
    simp [hentry, Entry.isLink] at hkind

theorem LinkFree.set (hlinks : tree.LinkFree) {entry : Entry}
    (hentry : entry.isLink = false) (place : Place) :
    (tree.set place entry).LinkFree := by
  intro other hother
  rcases List.mem_append.mp hother with hold | hnew
  · exact hlinks other (List.mem_filter.mp hold).1
  · obtain rfl := List.mem_singleton.mp hnew
    exact hentry

/-! ## Names for temporary files -/

def temporaryName (n : Nat) : String := ".tmp" ++ toString n

theorem temporaryName_inj {m n : Nat}
    (heq : temporaryName m = temporaryName n) : m = n := by
  unfold temporaryName at heq
  exact toString_nat_inj ((String.append_right_inj _).mp heq)

theorem temporaryName_ne_slash (n : Nat) : temporaryName n ≠ "/" := by
  intro heq
  have hhead := congrArg (fun text : String => text.toList.head?) heq
  simp [temporaryName] at hhead

theorem nodup_temporaryPlaces (directory : Place) (count : Nat) :
    ((List.range count).map fun n =>
      directory ++ [temporaryName n]).Nodup := by
  refine List.Nodup.map ?_ List.nodup_range
  intro m n heq
  have hname : temporaryName m = temporaryName n := by simpa using heq
  exact temporaryName_inj hname

/-- Not all names to choose from are taken. -/
theorem exists_vacant_temporary (tree : OutputTree) (directory : Place) :
    ∃ n ∈ List.range (tree.entries.length + 1),
      tree.entry? (directory ++ [temporaryName n]) = none := by
  by_contra hall
  push Not at hall
  have hsubset : ((List.range (tree.entries.length + 1)).map fun n =>
      directory ++ [temporaryName n]) ⊆ tree.entries.map Prod.fst := by
    intro place hplace
    obtain ⟨n, hn, rfl⟩ := List.mem_map.mp hplace
    have htaken := hall n hn
    rw [Ne, entry?_eq_none_iff (Place.not_isStart_append
      (temporaryName_ne_slash n))] at htaken
    push Not at htaken
    obtain ⟨entry, hentry, heq⟩ := htaken
    exact List.mem_map.mpr ⟨entry, hentry, heq⟩
  have hlength := (List.subperm_of_subset
    (nodup_temporaryPlaces directory _) hsubset).length_le
  simp only [List.length_map, List.length_range] at hlength
  omega

theorem freshName_spec (tree : OutputTree) (directory : Place) :
    ∃ n, tree.freshName directory = temporaryName n ∧
      tree.entry? (directory ++ [tree.freshName directory]) = none := by
  obtain ⟨n, hn, hvacant⟩ := exists_vacant_temporary tree directory
  have hsome : (((List.range (tree.entries.length + 1)).map
      fun n => ".tmp" ++ toString n).find? fun name =>
        (tree.entry? (directory ++ [name])).isNone).isSome := by
    rw [List.find?_isSome]
    refine ⟨temporaryName n, List.mem_map_of_mem hn, ?_⟩
    rw [hvacant]
    rfl
  obtain ⟨name, hname⟩ := Option.isSome_iff_exists.mp hsome
  obtain ⟨m, _, rfl⟩ := List.mem_map.mp (List.mem_of_find?_eq_some hname)
  have hfree := List.find?_some hname
  have hfresh : tree.freshName directory = ".tmp" ++ toString m := by
    simp only [freshName, hname, Option.getD_some]
  refine ⟨m, hfresh, ?_⟩
  rw [hfresh]
  simpa using hfree

end OutputTree

end RecordMasking
