import PlainVerse.Plan
import Mathlib.Data.List.Basic

/-!
# Where references dangle

What the audit of a plan reports about an entry depends only on the names that the entries before
it put out. Hence a plan that grows at its end keeps the reports it had, and gets one for every
reference of the new entry to a name that is not among the outputs so far.
-/
namespace PlainVerse.Plan

/-- The names that entries put out. -/
def outputs (entries : List Entry) : List String := entries.filterMap Entry.out

@[simp] theorem outputs_append (first second : List Entry) :
    outputs (first ++ second) = outputs first ++ outputs second :=
  List.filterMap_append

theorem mem_outputs {entries : List Entry} {name : String} :
    name ∈ outputs entries ↔ ∃ entry ∈ entries, entry.out = some name :=
  List.mem_filterMap

/-- What is reported about the entry with a given index when the names in `bound` are known. -/
def unbound (index : Nat) (bound : List String) (entry : Entry) : List Dangling :=
  (entry.references.filter fun input => !bound.contains input.2).map fun input =>
    ⟨index, input.1, input.2⟩

theorem danglingFrom_cons (index : Nat) (bound : List String) (entry : Entry)
    (rest : List Entry) :
    danglingFrom index bound (entry :: rest) =
      unbound index bound entry ++ danglingFrom (index + 1) (entry.out.toList ++ bound) rest :=
  rfl

/-- Only which names are known matters, not their order. -/
theorem unbound_congr {index : Nat} {bound other : List String} (entry : Entry)
    (h : ∀ name, name ∈ bound ↔ name ∈ other) :
    unbound index bound entry = unbound index other entry := by
  have same : ∀ name, bound.contains name = other.contains name := by
    intro name
    simp only [List.contains_eq_mem, h name]
  simp only [unbound, same]

theorem unbound_eq_nil {index : Nat} {bound : List String} {entry : Entry}
    (h : ∀ input ∈ entry.inputs.entries, isLiteral input.2 = false → input.2 ∈ bound) :
    unbound index bound entry = [] := by
  have none_left : entry.references.filter (fun input => !bound.contains input.2) = [] := by
    rw [List.filter_eq_nil_iff]
    intro input hinput
    obtain ⟨mem, plain⟩ := List.mem_filter.1 hinput
    have known := h input mem (by simpa using plain)
    simp [known]
  rw [unbound, none_left, List.map_nil]

/-- The last entry is audited against the outputs of all entries before it. -/
theorem danglingFrom_concat (index : Nat) (bound : List String) (entries : List Entry)
    (entry : Entry) :
    danglingFrom index bound (entries ++ [entry]) =
      danglingFrom index bound entries ++
        unbound (index + entries.length) (bound ++ outputs entries) entry := by
  induction entries generalizing index bound with
  | nil => simp [danglingFrom_cons, danglingFrom, outputs]
  | cons first rest ih =>
      have known : ∀ name, name ∈ (first.out.toList ++ bound) ++ outputs rest ↔
          name ∈ bound ++ outputs (first :: rest) := by
        intro name
        cases hout : first.out <;> simp [outputs, hout, or_left_comm]
      rw [List.cons_append, danglingFrom_cons, danglingFrom_cons, ih, unbound_congr entry known,
        List.append_assoc, List.length_cons, Nat.add_right_comm, Nat.add_assoc]

end PlainVerse.Plan
