import Mathlib.Tactic.Tauto
import RecordMasking.SortedNames

/-!
# Names in order

Sorting a list of names keeps the names and puts them in strictly increasing
order.
-/

namespace RecordMasking

theorem mem_insertName {name other : String} {names : List String} :
    other ∈ insertName name names ↔ other = name ∨ other ∈ names := by
  induction names with
  | nil => simp [insertName]
  | cons head rest ih =>
      unfold insertName
      split
      next => simp
      next =>
        split
        next heq => simp [heq]
        next => simp [ih, or_left_comm]

theorem pairwise_insertName (name : String) {names : List String}
    (hnames : names.Pairwise (· < ·)) :
    (insertName name names).Pairwise (· < ·) := by
  induction names with
  | nil => exact List.pairwise_singleton _ _
  | cons head rest ih =>
      obtain ⟨hhead, hrest⟩ := List.pairwise_cons.mp hnames
      unfold insertName
      split
      next hbefore =>
        refine List.pairwise_cons.mpr ⟨?_, hnames⟩
        refine List.forall_mem_cons.mpr ⟨hbefore, fun other hother => ?_⟩
        exact String.lt_trans hbefore (hhead other hother)
      next hnot =>
        split
        next => exact hnames
        next hne =>
          have hafter : head < name := String.not_le.mp fun hle =>
            hne (String.le_antisymm hle (String.not_lt.mp hnot))
          refine List.pairwise_cons.mpr ⟨fun other hother => ?_, ih hrest⟩
          rcases mem_insertName.mp hother with rfl | hold
          · exact hafter
          · exact hhead other hold

theorem mem_foldl_insertName {name : String} {names sorted : List String} :
    name ∈ names.foldl (fun sorted name => insertName name sorted) sorted ↔
      name ∈ names ∨ name ∈ sorted := by
  induction names generalizing sorted with
  | nil => simp
  | cons head rest ih =>
      rw [List.foldl_cons, ih, mem_insertName, List.mem_cons]
      exact ⟨by tauto, by tauto⟩

theorem mem_sortedNames {name : String} {names : List String} :
    name ∈ sortedNames names ↔ name ∈ names := by
  unfold sortedNames
  simp [mem_foldl_insertName]

theorem pairwise_sortedNames (names : List String) :
    (sortedNames names).Pairwise (· < ·) := by
  unfold sortedNames
  refine List.foldlRecOn names _ .nil fun sorted hsorted name _ => ?_
  exact pairwise_insertName name hsorted

end RecordMasking
