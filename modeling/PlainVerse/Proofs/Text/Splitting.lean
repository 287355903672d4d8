import Mathlib.Data.List.Basic

/-!
# Splitting and joining

The pieces of a split list do not contain what it is split at, and everything in them comes from the
list. Joining the pieces with another separator puts it in the place of every element that the list
was split at.
-/
namespace PlainVerse

theorem not_mem_of_mem_splitOn {α : Type} [BEq α] [LawfulBEq α] {a : α} {xs piece : List α}
    (mem : piece ∈ xs.splitOn a) : a ∉ piece := by
  induction xs generalizing piece with
  | nil =>
      obtain rfl : piece = [] := by simpa using mem
      exact List.not_mem_nil
  | cons x xs ih =>
      rw [List.splitOn_cons_eq_if_modifyHead] at mem
      split at mem
      · rcases List.mem_cons.1 mem with rfl | later
        · exact List.not_mem_nil
        · exact ih later
      · rename_i other
        obtain ⟨first, rest, split⟩ := List.exists_cons_of_ne_nil (List.splitOn_ne_nil a xs)
        rw [split] at ih
        rw [split, List.modifyHead_cons, List.mem_cons] at mem
        rcases mem with rfl | later
        · have here : a ∉ first := ih List.mem_cons_self
          intro inside
          rcases List.mem_cons.1 inside with rfl | later
          · exact other (beq_self_eq_true a)
          · exact here later
        · exact ih (List.mem_cons_of_mem _ later)

theorem subset_intercalate {α : Type} {separator piece : List α} {pieces : List (List α)}
    (mem : piece ∈ pieces) : piece ⊆ separator.intercalate pieces := by
  induction pieces with
  | nil => cases mem
  | cons first rest ih =>
      cases rest with
      | nil =>
          obtain rfl := List.mem_singleton.1 mem
          simp
      | cons next rest =>
          rw [List.intercalate_cons_cons]
          rcases List.mem_cons.1 mem with rfl | later
          · exact List.subset_append_of_subset_left _ (List.subset_append_left _ _)
          · exact List.subset_append_of_subset_right _ (ih later)

theorem subset_of_mem_splitOn {α : Type} [BEq α] [LawfulBEq α] {a : α} {xs piece : List α}
    (mem : piece ∈ xs.splitOn a) : piece ⊆ xs := by
  have inside : piece ⊆ [a].intercalate (xs.splitOn a) := subset_intercalate mem
  rwa [List.intercalate_splitOn] at inside

theorem intercalate_cons {α : Type} (separator first : List α) (rest : List (List α)) :
    separator.intercalate (first :: rest) = first ++ rest.flatMap (separator ++ ·) := by
  induction rest generalizing first with
  | nil => simp
  | cons second rest ih =>
      rw [List.intercalate_cons_cons, ih second, List.flatMap_cons]
      simp only [List.append_assoc]

theorem intercalate_splitOn_eq_flatMap {α : Type} [DecidableEq α] (separator : List α) (a : α)
    (xs : List α) :
    separator.intercalate (xs.splitOn a) = xs.flatMap fun x => if x = a then separator else [x] := by
  induction xs with
  | nil => simp
  | cons x xs ih =>
      obtain ⟨first, rest, split⟩ := List.exists_cons_of_ne_nil (List.splitOn_ne_nil a xs)
      rw [split, intercalate_cons] at ih
      rw [List.splitOn_cons_eq_if_modifyHead, List.flatMap_cons, ← ih, split]
      by_cases same : x = a
      · rw [if_pos same, if_pos (beq_iff_eq.2 same), intercalate_cons, List.flatMap_cons,
          List.append_assoc, List.nil_append]
      · rw [if_neg same, if_neg (mt beq_iff_eq.1 same), List.modifyHead_cons, intercalate_cons]
        rfl

end PlainVerse
