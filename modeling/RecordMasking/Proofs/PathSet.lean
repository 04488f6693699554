import Mathlib.Data.List.Nodup
import RecordMasking.FieldPath

/-!
# Sets of paths

Insertion keeps every path once and in its first place, so that a list
without repetitions is collected as it stands.  Restricting a set to a field
keeps what is strictly below the field.
-/

namespace RecordMasking

namespace PathSet

theorem toList_insert_of_not_mem {paths : PathSet} {path : FieldPath}
    (hnew : path ∉ paths.toList) :
    (paths.insert path).toList = paths.toList ++ [path] := by
  simp [insert, contains, hnew]

theorem insert_of_mem {paths : PathSet} {path : FieldPath}
    (hold : path ∈ paths.toList) : paths.insert path = paths := by
  simp [insert, contains, hold]

@[simp] theorem mem_insert {paths : PathSet} {path other : FieldPath} :
    other ∈ (paths.insert path).toList ↔
      other ∈ paths.toList ∨ other = path := by
  by_cases hmem : path ∈ paths.toList
  · rw [insert_of_mem hmem]
    constructor
    · exact Or.inl
    · rintro (hother | rfl)
      · exact hother
      · exact hmem
  · simp [toList_insert_of_not_mem hmem]

theorem nodup_insert {paths : PathSet} (hpaths : paths.toList.Nodup)
    (path : FieldPath) : (paths.insert path).toList.Nodup := by
  by_cases hmem : path ∈ paths.toList
  · rwa [insert_of_mem hmem]
  · rw [toList_insert_of_not_mem hmem]
    exact List.nodup_append.mpr
      ⟨hpaths, List.nodup_singleton path, by
        rintro other hother _ hnew rfl
        exact hmem (by simpa using List.mem_singleton.mp hnew ▸ hother)⟩

theorem mem_foldl_insert {start : PathSet} {paths : List FieldPath}
    {path : FieldPath} :
    path ∈ (paths.foldl insert start).toList ↔
      path ∈ start.toList ∨ path ∈ paths := by
  induction paths generalizing start with
  | nil => simp
  | cons head rest ih =>
      rw [List.foldl_cons, ih, mem_insert, List.mem_cons, or_assoc]

@[simp] theorem mem_ofList {paths : List FieldPath} {path : FieldPath} :
    path ∈ (ofList paths).toList ↔ path ∈ paths := by
  simp [ofList, mem_foldl_insert, empty]

theorem nodup_foldl_insert {start : PathSet} (hstart : start.toList.Nodup)
    (paths : List FieldPath) : (paths.foldl insert start).toList.Nodup := by
  induction paths generalizing start with
  | nil => exact hstart
  | cons head rest ih => exact ih (nodup_insert hstart head)

theorem nodup_ofList (paths : List FieldPath) :
    (ofList paths).toList.Nodup :=
  nodup_foldl_insert List.nodup_nil paths

theorem toList_foldl_insert_of_nodup {start : PathSet}
    {paths : List FieldPath} (hall : (start.toList ++ paths).Nodup) :
    (paths.foldl insert start).toList = start.toList ++ paths := by
  induction paths generalizing start with
  | nil => simp
  | cons head rest ih =>
      have hnew : head ∉ start.toList := by
        intro hold
        exact (List.nodup_append.mp hall).2.2 head hold head (by simp) rfl
      have hinsert := toList_insert_of_not_mem hnew
      rw [List.foldl_cons, ih (by simpa [hinsert] using hall), hinsert]
      simp

theorem toList_ofList_of_nodup {paths : List FieldPath}
    (hpaths : paths.Nodup) : (ofList paths).toList = paths := by
  have hall : (empty.toList ++ paths).Nodup := by simpa [empty] using hpaths
  simpa [ofList, empty] using toList_foldl_insert_of_nodup hall

theorem isEmpty_eq_false_iff {paths : PathSet} :
    paths.isEmpty = false ↔ ∃ path, path ∈ paths.toList := by
  unfold isEmpty
  rw [List.isEmpty_eq_false_iff_exists_mem]

theorem eq_empty_of_isEmpty {paths : PathSet}
    (hempty : paths.isEmpty = true) : paths = empty := by
  cases paths
  simpa [isEmpty, empty] using hempty

theorem below?_eq_some_iff {field : FieldName} {path rest : FieldPath} :
    FieldPath.below? field path = some rest ↔
      rest ≠ [] ∧ path = field :: rest := by
  unfold FieldPath.below?
  split
  next head next others =>
    constructor
    · intro hsome
      split at hsome
      next hhead =>
        obtain rfl := Option.some.inj hsome
        exact ⟨by simp, by rw [hhead]⟩
      next => simp at hsome
    · rintro ⟨_, heq⟩
      obtain ⟨rfl, rfl⟩ := List.cons.inj heq
      simp
  next hshort =>
    refine iff_of_false (by simp) ?_
    rintro ⟨hrest, rfl⟩
    obtain ⟨next, others, rfl⟩ := List.exists_cons_of_ne_nil hrest
    exact hshort field next others rfl

theorem mem_below {paths : PathSet} {field : FieldName} {rest : FieldPath} :
    rest ∈ (paths.below field).toList ↔
      rest ≠ [] ∧ field :: rest ∈ paths.toList := by
  simp only [below, List.mem_filterMap, below?_eq_some_iff]
  constructor
  · rintro ⟨path, hpath, hrest, rfl⟩
    exact ⟨hrest, hpath⟩
  · rintro ⟨hrest, hpath⟩
    exact ⟨_, hpath, hrest, rfl⟩

theorem nodup_below {paths : PathSet} (hpaths : paths.toList.Nodup)
    (field : FieldName) : (paths.below field).toList.Nodup := by
  refine hpaths.filterMap ?_
  intro path other rest hpath hother
  rw [Option.mem_def, below?_eq_some_iff] at hpath hother
  rw [hpath.2, hother.2]

end PathSet

end RecordMasking
