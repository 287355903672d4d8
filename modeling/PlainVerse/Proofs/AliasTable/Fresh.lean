import PlainVerse.AliasTable
import PlainVerse.Proofs.Text.Number
import Mathlib.Data.List.Nodup
import Mathlib.Data.List.Perm.Basic
import Mathlib.Order.Bounds.Basic

/-!
# The next free name

The candidates of one base are all different, so of more candidates than there are defined names
one is free. The search for it stops at the least index after the counter whose name is not defined.
The counter of the base moves to that index, and nothing else changes.
-/
namespace PlainVerse.AliasTable

theorem toList_candidate (base : String) (index : Nat) :
    (candidate base index).toList =
      base.toList ++ (if index = 1 then [] else Text.decimal index) := by
  unfold candidate
  split
  · simp
  · rw [String.toList_append, String.toList_ofList]

theorem candidate_injective {base : String} {i j : Nat}
    (h : candidate base i = candidate base j) : i = j := by
  have suffixes := congrArg String.toList h
  rw [toList_candidate, toList_candidate, List.append_cancel_left_eq] at suffixes
  by_cases first : i = 1
  · by_cases second : j = 1
    · rw [first, second]
    · rw [if_pos first, if_neg second] at suffixes
      exact absurd suffixes.symm Nat.toDigits_ne_nil
  · by_cases second : j = 1
    · rw [if_neg first, if_pos second] at suffixes
      exact absurd suffixes Nat.toDigits_ne_nil
    · rw [if_neg first, if_neg second] at suffixes
      exact Text.decimal_injective suffixes

/-- As many candidates in a row as there are names, and one more, are not all among the names. -/
theorem exists_candidate_not_mem (names : List String) (base : String) (index : Nat) :
    ∃ k ≤ names.length, candidate base (index + k) ∉ names := by
  by_contra none
  have taken : ∀ k ≤ names.length, candidate base (index + k) ∈ names := by
    intro k small
    by_contra free
    exact none ⟨k, small, free⟩
  let row := (List.range (names.length + 1)).map fun k => candidate base (index + k)
  have distinct : row.Nodup := by
    refine List.Nodup.map_on ?_ List.nodup_range
    intro i _ j _ same
    exact Nat.add_left_cancel (candidate_injective same)
  have inside : row ⊆ names := by
    intro name mem
    obtain ⟨k, range, rfl⟩ := List.mem_map.1 mem
    exact taken k (Nat.le_of_lt_succ (List.mem_range.1 range))
  have size := (List.subperm_of_subset distinct inside).length_le
  rw [List.length_map, List.length_range] at size
  omega

/-- Every candidate that the search passes over is defined, and it stops at one that is not, unless
it has run out of tries. -/
theorem firstFree_eq (defined : List String) (base : String) (tries index : Nat) :
    ∃ passed ≤ tries, firstFree defined base tries index = index + passed ∧
      (∀ k < passed, candidate base (index + k) ∈ defined) ∧
      (candidate base (index + passed) ∈ defined → passed = tries) := by
  induction tries generalizing index with
  | zero =>
      exact ⟨0, Nat.le_refl 0, rfl, fun k small => absurd small (Nat.not_lt_zero k), fun _ => rfl⟩
  | succ tries ih =>
      by_cases taken : candidate base index ∈ defined
      · obtain ⟨passed, small, found, before, stop⟩ := ih (index + 1)
        have shift : ∀ k, index + (k + 1) = index + 1 + k := by
          intro k
          omega
        refine ⟨passed + 1, by omega, ?_, ?_, ?_⟩
        · rw [firstFree, if_pos taken, found]
          omega
        · intro k bound
          cases k with
          | zero => exact taken
          | succ k =>
              rw [shift]
              exact before k (by omega)
        · intro still
          rw [shift] at still
          rw [stop still]
      · refine ⟨0, Nat.zero_le _, ?_, fun k small => absurd small (Nat.not_lt_zero k), ?_⟩
        · rw [firstFree, if_neg taken, Nat.add_zero]
        · intro still
          exact absurd still taken

/-- The index of the name that is generated next. -/
def nextIndex (table : AliasTable) (base : String) : Nat :=
  firstFree table.defined base table.defined.length (table.counter base + 1)

/-- The indices after a counter whose names are not defined. -/
def freeAfter (defined : List String) (base : String) (counter : Nat) : Set Nat :=
  {index | counter < index ∧ candidate base index ∉ defined}

theorem isLeast_succ {defined : List String} {base : String} {counter : Nat}
    (free : candidate base (counter + 1) ∉ defined) :
    IsLeast (freeAfter defined base counter) (counter + 1) := by
  refine ⟨⟨Nat.lt_succ_self counter, free⟩, ?_⟩
  rintro index ⟨after, -⟩
  exact after

section
variable (table : AliasTable) (base : String)

theorem fresh_eq : table.fresh base =
    (candidate base (table.nextIndex base),
      { table with
        counter := fun other =>
          if other = base then table.nextIndex base else table.counter other }) :=
  rfl

/-- The search never runs out of tries before a free name, since one candidate more than there are
defined names is enough. -/
theorem isLeast_nextIndex :
    IsLeast (freeAfter table.defined base (table.counter base)) (table.nextIndex base) := by
  obtain ⟨passed, -, found, before, stop⟩ :=
    firstFree_eq table.defined base table.defined.length (table.counter base + 1)
  have not_passed : ∀ k, candidate base (table.counter base + 1 + k) ∉ table.defined →
      passed ≤ k := by
    intro k free
    by_contra early
    exact free (before k (Nat.lt_of_not_le early))
  rw [nextIndex, found]
  refine ⟨⟨by omega, ?_⟩, ?_⟩
  · intro taken
    obtain ⟨k, small, free⟩ :=
      exists_candidate_not_mem table.defined base (table.counter base + 1)
    have exhausted := stop taken
    have early := not_passed k free
    have last : k = passed := by omega
    exact free (last ▸ taken)
  · rintro index ⟨after, free⟩
    obtain ⟨k, rfl⟩ := Nat.exists_eq_add_of_lt after
    rw [Nat.add_right_comm] at free
    have early := not_passed k free
    omega

theorem nextIndex_le : table.nextIndex base ≤ table.counter base + (table.defined.length + 1) := by
  obtain ⟨passed, few, found, -, -⟩ :=
    firstFree_eq table.defined base table.defined.length (table.counter base + 1)
  rw [nextIndex, found]
  omega

theorem counter_lt_nextIndex : table.counter base < table.nextIndex base :=
  (isLeast_nextIndex table base).1.1

theorem fresh_not_mem_defined : (table.fresh base).1 ∉ table.defined :=
  (isLeast_nextIndex table base).1.2

/-- The search stops at once if the next candidate is free. -/
theorem nextIndex_of_not_mem (free : candidate base (table.counter base + 1) ∉ table.defined) :
    table.nextIndex base = table.counter base + 1 :=
  (isLeast_nextIndex table base).unique (isLeast_succ free)

theorem fresh_defined : (table.fresh base).2.defined = table.defined := rfl

theorem fresh_last : (table.fresh base).2.last = table.last := rfl

theorem fresh_counter_self : (table.fresh base).2.counter base = table.nextIndex base :=
  if_pos rfl

theorem fresh_counter_of_ne {other : String} (h : other ≠ base) :
    (table.fresh base).2.counter other = table.counter other :=
  if_neg h

theorem counter_le_fresh (other : String) :
    table.counter other ≤ (table.fresh base).2.counter other := by
  by_cases same : other = base
  · subst same
    rw [fresh_counter_self]
    exact Nat.le_of_lt (counter_lt_nextIndex table other)
  · rw [fresh_counter_of_ne table base same]

end
end PlainVerse.AliasTable
