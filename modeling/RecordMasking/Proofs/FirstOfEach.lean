import Mathlib.Data.List.Nodup

/-!
# The first of each key

Of several items with one key the first one counts.  What counts in a list
grows at the end as the list does: an item behind the list is one more unless
its key is there before it.
-/

namespace RecordMasking

variable {α κ : Type} [DecidableEq κ]

/-- The first item of each key, in the order of the list. -/
def firstOfEach (key : α → κ) : List α → List α
  | [] => []
  | item :: rest =>
      item :: (firstOfEach key rest).filter fun other => key other ≠ key item

variable {key : α → κ} {items : List α}

theorem firstOfEach_sublist (key : α → κ) (items : List α) :
    (firstOfEach key items).Sublist items := by
  induction items with
  | nil => exact .slnil
  | cons item rest ih => exact (List.filter_sublist.trans ih).cons_cons item

theorem mem_keys_firstOfEach {name : κ} :
    name ∈ (firstOfEach key items).map key ↔ name ∈ items.map key := by
  induction items with
  | nil => rfl
  | cons item rest ih =>
      by_cases hname : name = key item
      · simp [firstOfEach, hname]
      · have hkept : name ∈ ((firstOfEach key rest).filter fun other =>
            key other ≠ key item).map key ↔
              name ∈ (firstOfEach key rest).map key := by
          simp only [List.mem_map, List.mem_filter, decide_eq_true_eq]
          constructor
          · rintro ⟨other, ⟨hother, _⟩, rfl⟩
            exact ⟨other, hother, rfl⟩
          · rintro ⟨other, hother, rfl⟩
            exact ⟨other, ⟨hother, hname⟩, rfl⟩
        rw [firstOfEach, List.map_cons, List.mem_cons, hkept, ih,
          List.map_cons, List.mem_cons]

theorem nodup_keys_firstOfEach (key : α → κ) (items : List α) :
    ((firstOfEach key items).map key).Nodup := by
  induction items with
  | nil => exact List.nodup_nil
  | cons item rest ih =>
      rw [firstOfEach, List.map_cons, List.nodup_cons]
      refine ⟨?_, ih.sublist (List.filter_sublist.map key)⟩
      intro hkey
      obtain ⟨other, hother, hsame⟩ := List.mem_map.mp hkey
      simpa [hsame] using (List.mem_filter.mp hother).2

theorem firstOfEach_concat_of_not_mem {item : α}
    (hitem : key item ∉ items.map key) :
    firstOfEach key (items ++ [item]) = firstOfEach key items ++ [item] := by
  induction items with
  | nil => rfl
  | cons first rest ih =>
      rw [List.map_cons, List.mem_cons, not_or] at hitem
      rw [List.cons_append, firstOfEach, firstOfEach, ih hitem.2,
        List.filter_append, List.cons_append]
      simp [hitem.1]

theorem firstOfEach_concat_of_mem {item : α}
    (hitem : key item ∈ items.map key) :
    firstOfEach key (items ++ [item]) = firstOfEach key items := by
  induction items with
  | nil => simp at hitem
  | cons first rest ih =>
      rw [List.cons_append, firstOfEach, firstOfEach]
      by_cases hlater : key item ∈ rest.map key
      · rw [ih hlater]
      · have hfirst : key item = key first := by simpa [hlater] using hitem
        rw [firstOfEach_concat_of_not_mem hlater, List.filter_append]
        simp [hfirst]

theorem firstOfEach_eq_self (hdistinct : (items.map key).Nodup) :
    firstOfEach key items = items := by
  induction items with
  | nil => rfl
  | cons item rest ih =>
      rw [List.map_cons, List.nodup_cons] at hdistinct
      rw [firstOfEach, ih hdistinct.2, List.filter_eq_self.mpr]
      intro other hother
      have hne : key other ≠ key item := fun hsame =>
        hdistinct.1 (hsame ▸ List.mem_map_of_mem hother)
      exact decide_eq_true hne

/-- Looking at the items through a view that keeps their keys. -/
theorem map_firstOfEach {β : Type} {view : α → β} {keyOfView : β → κ}
    (hkey : ∀ item, keyOfView (view item) = key item) (items : List α) :
    (firstOfEach key items).map view =
      firstOfEach keyOfView (items.map view) := by
  induction items with
  | nil => rfl
  | cons item rest ih =>
      rw [firstOfEach, List.map_cons, List.map_cons, firstOfEach, ← ih,
        List.filter_map]
      simp [Function.comp_def, hkey]

end RecordMasking
