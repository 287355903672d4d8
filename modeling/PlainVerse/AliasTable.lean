import PlainVerse.Text.Decimal

/-!
# Names of results

An alias table records which names are defined, and generates names that are not. Generated names
come from a base: first the base itself, then the base with 2, 3 and so on. Each base has a
counter, so that no name is generated twice, and names that are defined are passed over.
-/
namespace PlainVerse

/-- The defined names in the order of their first definition, the name that was defined last, and
for every base the index of the last name generated from it. -/
structure AliasTable where
  defined : List String
  last : Option String
  counter : String → Nat

namespace AliasTable

def empty : AliasTable := ⟨[], none, fun _ => 0⟩

/-- The name with a given index. -/
def candidate (base : String) (index : Nat) : String :=
  if index = 1 then base else base ++ String.ofList (Text.decimal index)

/-- The first of the indices from `index` on whose name is not defined, trying at most `tries` of
them. Of more names than are defined one is free. -/
def firstFree (defined : List String) (base : String) : (tries index : Nat) → Nat
  | 0, index => index
  | tries + 1, index =>
      if candidate base index ∈ defined then firstFree defined base tries (index + 1) else index

/-- Generates a name, which is not defined thereby. -/
def fresh (table : AliasTable) (base : String) : String × AliasTable :=
  let index := firstFree table.defined base table.defined.length (table.counter base + 1)
  (candidate base index,
    { table with counter := fun other => if other = base then index else table.counter other })

def define (table : AliasTable) (name : String) : AliasTable :=
  { table with
    defined := if name ∈ table.defined then table.defined else table.defined ++ [name]
    last := some name }

theorem mem_define {table : AliasTable} {name other : String} :
    other ∈ (table.define name).defined ↔ other ∈ table.defined ∨ other = name := by
  by_cases known : name ∈ table.defined
  · simp only [define, known, if_true]
    constructor
    · exact Or.inl
    · rintro (h | rfl)
      · exact h
      · exact known
  · simp [define, known]

def isDefined (table : AliasTable) (name : String) : Bool := name ∈ table.defined

end AliasTable
end PlainVerse
