import PlainVerse.Proofs.Gene.Conservation
import Mathlib.Algebra.BigOperators.Group.List.Lemmas

/-!
# The estimate counts the operations

The operations of a gene and its estimate say the same thing twice, and each operation that is added
changes both. However many are added, the estimate names the operations in the order of their first
occurrence, with the number of their occurrences modulo the size of a word. As long as the whole
list of operations is shorter than that, the counts are exact and add up to its length.
-/
namespace PlainVerse.Gene

open Poem

/-- The estimate lists the distinct operations, in the order in which they first occur. With fewer
operations than a word can count, it has the number of occurrences of each, and these add up to the
number of all operations. -/
structure Estimated (gene : Gene) : Prop where
  keys : gene.estimate.keys = gene.ops.eraseDups
  counts : gene.ops.length < UInt32.size → ∀ op,
    (gene.estimate.get? op).map UInt32.toNat =
      if op ∈ gene.ops then some (gene.ops.count op) else none
  total : gene.ops.length < UInt32.size →
    (gene.estimate.entries.map fun entry => entry.2.toNat).foldr (· + ·) 0 = gene.ops.length

/-- What is true of the estimate after any number of operations: the counts may have wrapped. -/
structure Tallies (gene : Gene) : Prop where
  keys : gene.estimate.keys = gene.ops.eraseDups
  get : ∀ op, gene.estimate.get? op =
    if op ∈ gene.ops then some (UInt32.ofNat (gene.ops.count op)) else none

theorem pushOp_ops (gene : Gene) (op : String) : (gene.pushOp op).ops = gene.ops ++ [op] := rfl

theorem pushOp_estimate (gene : Gene) (op : String) :
    (gene.pushOp op).estimate =
      gene.estimate.insert op ((gene.estimate.get? op).getD 0 + 1) := rfl

theorem eraseDups_concat (ops : List String) (op : String) :
    (ops ++ [op]).eraseDups = if op ∈ ops then ops.eraseDups else ops.eraseDups ++ [op] := by
  rw [List.eraseDups_append]
  by_cases known : op ∈ ops
  · simp [List.removeAll, known]
  · simp [List.removeAll, known, List.eraseDups_cons]

namespace Tallies
variable {gene : Gene}

theorem of_no_ops (ops : gene.ops = []) (estimate : gene.estimate = .empty) : gene.Tallies where
  keys := by
    rw [ops, estimate]
    rfl
  get := by
    intro op
    rw [ops, estimate]
    rfl

/-- The count that an addition starts from, whether or not the operation is a new one. -/
theorem getD_eq (tallies : gene.Tallies) (op : String) :
    (gene.estimate.get? op).getD 0 = UInt32.ofNat (gene.ops.count op) := by
  rw [tallies.get]
  by_cases known : op ∈ gene.ops
  · simp [known]
  · simp [known, List.count_eq_zero_of_not_mem known]

theorem pushOp (tallies : gene.Tallies) (op : String) : (gene.pushOp op).Tallies where
  keys := by
    rw [pushOp_estimate, pushOp_ops, OrderedMap.keys_insert, tallies.keys, eraseDups_concat]
    simp only [List.mem_eraseDups]
  get := by
    intro other
    rw [pushOp_estimate, pushOp_ops, OrderedMap.get?_insert, tallies.getD_eq]
    by_cases same : other = op
    · subst same
      simp [UInt32.ofNat_add]
    · have unchanged : (gene.ops ++ [op]).count other = gene.ops.count other := by
        rw [List.count_append, List.count_singleton, if_neg (by simpa using Ne.symm same),
          Nat.add_zero]
      simp [same, unchanged, tallies.get]

theorem foldl (tallies : gene.Tallies) (ops : List String) :
    (ops.foldl Gene.pushOp gene).Tallies := by
  induction ops generalizing gene with
  | nil => exact tallies
  | cons op rest ih => exact ih (tallies.pushOp op)

theorem toNat_of_mem (tallies : gene.Tallies) (fits : gene.ops.length < UInt32.size)
    {entry : String × UInt32} (mem : entry ∈ gene.estimate.entries) :
    entry.2.toNat = gene.ops.count entry.1 := by
  have found := gene.estimate.get?_eq_some_iff_mem.2 mem
  rw [tallies.get, Option.ite_none_right_eq_some] at found
  rw [← Option.some.inj found.2]
  exact UInt32.toNat_ofNat_of_lt' (Nat.lt_of_le_of_lt List.count_le_length fits)

/-- Both lists of distinct operations have the same members, if in another order. -/
theorem keys_perm_dedup (tallies : gene.Tallies) : gene.estimate.keys.Perm gene.ops.dedup := by
  have distinct : gene.estimate.keys.Nodup := gene.estimate.distinct
  rw [List.perm_ext_iff_of_nodup distinct (List.nodup_dedup _)]
  intro op
  rw [tallies.keys, List.mem_eraseDups, List.mem_dedup]

theorem estimated (tallies : gene.Tallies) : gene.Estimated where
  keys := tallies.keys
  counts := by
    intro fits op
    have small : gene.ops.count op < UInt32.size := Nat.lt_of_le_of_lt List.count_le_length fits
    rw [tallies.get]
    by_cases known : op ∈ gene.ops
    · simp [known, UInt32.toNat_ofNat_of_lt' small]
    · simp [known]
  total := by
    intro fits
    have counts : gene.estimate.entries.map (fun entry => entry.2.toNat) =
        gene.estimate.keys.map fun op => gene.ops.count op := by
      rw [OrderedMap.keys, List.map_map]
      exact List.map_congr_left fun entry mem => tallies.toNat_of_mem fits mem
    rw [← List.sum_eq_foldr]
    calc (gene.estimate.entries.map fun entry => entry.2.toNat).sum
        = (gene.estimate.keys.map fun op => gene.ops.count op).sum := by rw [counts]
      _ = (gene.ops.dedup.map fun op => gene.ops.count op).sum :=
          (tallies.keys_perm_dedup.map _).sum_eq
      _ = gene.ops.length := List.sum_map_count_dedup_eq_length gene.ops

end Tallies

theorem tallies_declared (decl : GeneDecl) : (declared decl).Tallies :=
  Tallies.pushOp (.of_no_ops rfl rfl) emitOp

theorem tallies_fallback (name : String) (cmd : Option String) (statements : List Summary) :
    (fallback name cmd statements).Tallies :=
  Tallies.pushOp (.of_no_ops rfl rfl) emitOp

/-- Every gene of a statement tallies. Taking in summaries changes neither its operations nor its
estimate. -/
theorem IsGeneOf.tallies {statement : Statement} {gene : Gene} (isGene : IsGeneOf statement gene) :
    gene.Tallies := by
  cases isGene with
  | declared line decl members =>
      have filled := (tallies_declared decl).foldl (members.filterMap opOf?)
      exact ⟨filled.keys, filled.get⟩
  | trigger line condition children =>
      exact Tallies.pushOp (Tallies.pushOp (.of_no_ops rfl rfl) listenOp) emitOp
  | emit line topic payload => exact Tallies.pushOp (.of_no_ops rfl rfl) emitOp
  | tool line path args => exact Tallies.pushOp (.of_no_ops rfl rfl) (toolOp path)

theorem tallies_of_mem_bundling {options : Options} {statements : List Statement} {gene : Gene}
    (mem : gene ∈ bundling options statements) : gene.Tallies := by
  rcases List.mem_append.1 mem with own | default
  · obtain ⟨place, -, made⟩ := List.mem_filterMap.1 own
    exact (isGeneOf_geneAt? made).tallies
  · rw [List.mem_ite_nil_right, List.mem_singleton] at default
    rw [default.2]
    exact tallies_fallback _ _ _

/-- The estimate of every gene of a document counts its operations, and so does the estimate of a
declared gene to which any operations are added, in any order: those operations follow its own. -/
theorem estimates_exact (program : Program) (options : Options) :
    (∀ gene ∈ (Document.ofProgram program options).genes, gene.Estimated) ∧
      ∀ (decl : GeneDecl) (pushed : List String),
        (pushed.foldl pushOp (declared decl)).ops = emitOp :: pushed ∧
          (pushed.foldl pushOp (declared decl)).Estimated := by
  constructor
  · intro gene mem
    rw [Document.ofProgram, genes_foldl] at mem
    exact (tallies_of_mem_bundling mem).estimated
  · intro decl pushed
    have tallies := (tallies_declared decl).foldl pushed
    exact ⟨foldl_pushOp_ops pushed (declared decl), tallies.estimated⟩

/-- An operation of the gene's own is counted with those that are added. -/
example (decl : GeneDecl) :
    (["tool:a.b", emitOp].foldl pushOp (declared decl)).estimate.entries =
      [(emitOp, 2), ("tool:a.b", 1)] := rfl

end PlainVerse.Gene
