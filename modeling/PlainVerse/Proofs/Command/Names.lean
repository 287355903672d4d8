import PlainVerse.AliasTable
import PlainVerse.Command.Clause
import PlainVerse.Plan
import Mathlib.Data.List.TakeWhile

/-!
# Names in commands

A name that a clause gives is a run of word characters, and a name that is generated from such a
run is one as well. The mark of literals has a colon in it, which is no word character, so no name
can be taken for a literal.
-/
namespace PlainVerse

open Text

namespace Command

def IsName (name : String) : Prop := ∀ c ∈ name.toList, isWord c = true

instance (name : String) : Decidable (IsName name) :=
  List.decidableBAll (isWord · = true) name.toList

theorem isWord_of_isDigit {c : Char} (h : c.isDigit = true) : isWord c = true := by
  have range : 48 ≤ c.toNat ∧ c.toNat ≤ 57 := Char.isDigit_iff_toNat.1 h
  have digits : ∀ n, 48 ≤ n → n ≤ 57 → wordCodePoints.contains n = true := by decide +kernel
  exact digits c.toNat range.1 range.2

theorem isName_candidate {base : String} (h : IsName base) (index : Nat) :
    IsName (AliasTable.candidate base index) := by
  unfold AliasTable.candidate
  split
  · exact h
  · intro c hc
    rw [String.toList_append, String.toList_ofList, List.mem_append] at hc
    rcases hc with hc | hc
    · exact h c hc
    · exact isWord_of_isDigit (Nat.isDigit_of_mem_toDigits (by decide) (by decide) hc)

theorem isName_fresh {base : String} (h : IsName base) (table : AliasTable) :
    IsName (table.fresh base).1 :=
  isName_candidate h _

theorem not_isLiteral {name : String} (h : IsName name) : Plan.isLiteral name = false := by
  by_contra literal
  rw [Bool.not_eq_false, Plan.isLiteral, List.isPrefixOf_iff_prefix] at literal
  have colon : ':' ∈ name.toList := literal.subset (by decide)
  exact absurd (h ':' colon) (by decide +kernel)

theorem isName_of_name? {text word rest : List Char} (h : name? text = some (word, rest)) :
    IsName (String.ofList word) := by
  simp only [name?, Option.bind_eq_bind, Option.bind_eq_some_iff] at h
  obtain ⟨a, -, b, -, hrun⟩ := h
  unfold run? at hrun
  split at hrun
  · simp at hrun
  · simp only [Option.some.injEq, Prod.mk.injEq] at hrun
    intro c hc
    rw [String.toList_ofList, ← hrun.1] at hc
    exact List.mem_takeWhile_imp hc

theorem isName_of_compressClause? {text rest : List Char} {clause : CompressClause} {name : String}
    (h : compressClause? text = some (clause, rest)) (given : clause.name = some name) :
    IsName name := by
  simp only [compressClause?, Option.bind_eq_bind, Option.bind_eq_some_iff, Option.some.injEq] at h
  obtain ⟨a, -, b, -, ⟨p, c⟩, -, he⟩ := h
  simp only [Prod.mk.injEq] at he
  rw [← he.1] at given
  obtain ⟨word, found, rfl⟩ := Option.map_eq_some_iff.1 given
  unfold optional at found
  split at found
  · rename_i hname
    rw [Option.some.inj found] at hname
    exact isName_of_name? hname
  · simp at found

/-- Whatever stands around a clause, the name it gives is a run of word characters. -/
theorem isName_of_mem_compressClausesIn (text : List Char) {clause : CompressClause}
    {name : String} (mem : clause ∈ compressClausesIn text) (given : clause.name = some name) :
    IsName name := by
  fun_induction compressClausesIn text with
  | case1 text first rest found ih =>
      rcases List.mem_cons.1 mem with rfl | later
      · exact isName_of_compressClause? found given
      · exact ih later
  | case2 => simp at mem
  | case3 _ _ _ ih => exact ih mem

end Command
end PlainVerse
