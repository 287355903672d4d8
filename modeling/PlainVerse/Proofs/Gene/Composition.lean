import PlainVerse.Poem.Directive
import PlainVerse.Proofs.Gene.Lowering

/-!
# Programs that are joined at a declaration

A declaration in the middle of a program closes the open gene just as the end of the program does,
and nothing waits behind it. From there on the run is the run of a program of its own: it has the
genes before the declaration in front of its own genes, and never looks at them.
-/
namespace PlainVerse.Gene

open Poem

namespace Bundle

/-- A bundle behind genes that are done. -/
def behind (front : List Gene) (bundle : Bundle) : Bundle :=
  { bundle with closed := front ++ bundle.closed }

variable (front : List Gene) (bundle : Bundle)

theorem behind_close : (bundle.behind front).close = bundle.close.behind front := by
  obtain ⟨closed, current, waiting⟩ := bundle
  cases current with
  | none => rfl
  | some openGene => simp [close, behind]

theorem behind_addGene (gene : Gene) :
    (bundle.behind front).addGene gene = (bundle.addGene gene).behind front := by
  obtain ⟨closed, current, waiting⟩ := bundle
  cases current with
  | none => simp [addGene, behind]
  | some openGene => rfl

theorem behind_attach (statement : Statement) (op : String) (alone : Gene) :
    (bundle.behind front).attach statement op alone =
      (bundle.attach statement op alone).behind front := by
  obtain ⟨closed, current, waiting⟩ := bundle
  cases current with
  | none => exact behind_addGene front ⟨closed, none, waiting⟩ alone
  | some openGene => rfl

/-- One statement: the genes in front stay as they are. -/
theorem behind_add (statement : Statement) :
    (bundle.behind front).add statement = (bundle.add statement).behind front := by
  cases statement with
  | gene line decl =>
      calc (bundle.behind front).add (.gene line decl)
          = { bundle.close.behind front with current := some ⟨declared decl, []⟩ } := by
            rw [add, behind_close]
        _ = (bundle.add (.gene line decl)).behind front := rfl
  | trigger line condition children => exact behind_addGene front bundle _
  | emit line topic payload => exact behind_attach front bundle _ _ _
  | invoke line path args => exact behind_attach front bundle _ _ _
  | name | remember | text => rfl

theorem behind_foldl (statements : List Statement) :
    statements.foldl add (bundle.behind front) = (statements.foldl add bundle).behind front := by
  induction statements generalizing bundle with
  | nil => rfl
  | cons statement rest ih => rw [List.foldl_cons, behind_add, ih, List.foldl_cons]

variable {front bundle}

/-- A program that has declared a gene gets no default gene. -/
theorem genes_of_open (opened : bundle.current.isSome) (options : Options) :
    bundle.genes options = bundle.close.closed := by
  obtain ⟨closed, current, waiting⟩ := bundle
  obtain ⟨openGene, rfl⟩ := Option.isSome_iff_exists.1 opened
  simp [genes, close]

theorem genes_behind (opened : bundle.current.isSome) (options : Options) :
    (bundle.behind front).genes options = front ++ bundle.genes options := by
  have still : (bundle.behind front).current.isSome := opened
  rw [genes_of_open still, genes_of_open opened, behind_close]
  rfl

/-- A declaration does what the end of the program would do, and begins anew behind it. -/
theorem add_gene_of_open (opened : bundle.current.isSome) (options : Options) (line : Nat)
    (decl : GeneDecl) :
    bundle.add (.gene line decl) =
      (empty.add (.gene line decl)).behind (bundle.genes options) := by
  rw [genes_of_open opened]
  obtain ⟨closed, current, waiting⟩ := bundle
  obtain ⟨openGene, rfl⟩ := Option.isSome_iff_exists.1 opened
  simp [add, close, behind, empty]

theorem isSome_current_foldl {statements : List Statement} {line : Nat} {decl : GeneDecl}
    (mem : .gene line decl ∈ statements) : (statements.foldl add empty).current.isSome := by
  have begun := (keeps_empty.foldl statements).begun
  rw [List.nil_append] at begun
  rw [begun, List.any_eq_true]
  exact ⟨_, mem, rfl⟩

end Bundle

/-- If a gene is declared in one program and another program begins with a declaration, then the
genes of the two programs in a row are the genes of the first and then those of the second. The
levels add up. The declaration that the second program begins with closes the first. -/
theorem document_append (first second : Program) (options : Options)
    (declares : ∃ line decl, .gene line decl ∈ first.statements)
    (begins : ∃ line decl rest, second.statements = .gene line decl :: rest)
    (name : Option String) (source : String) :
    let joined := Document.ofProgram ⟨first.statements ++ second.statements, name, source⟩ options
    joined.genes =
        (Document.ofProgram first options).genes ++ (Document.ofProgram second options).genes ∧
      joined.level =
        (Document.ofProgram first options).level + (Document.ofProgram second options).level := by
  obtain ⟨line, decl, mem⟩ := declares
  obtain ⟨line', decl', rest, split⟩ := begins
  constructor
  · have run : (first.statements ++ second.statements).foldl Bundle.add .empty =
        (second.statements.foldl Bundle.add .empty).behind
          (Document.ofProgram first options).genes := by
      rw [List.foldl_append, split, List.foldl_cons,
        Bundle.add_gene_of_open (Bundle.isSome_current_foldl mem) options, Bundle.behind_foldl]
      rfl
    have opened : (second.statements.foldl Bundle.add .empty).current.isSome :=
      Bundle.isSome_current_foldl (split ▸ List.mem_cons_self)
    calc ((first.statements ++ second.statements).foldl Bundle.add .empty).genes options
        = ((second.statements.foldl Bundle.add .empty).behind
            (Document.ofProgram first options).genes).genes options := by rw [run]
      _ = (Document.ofProgram first options).genes ++
            (second.statements.foldl Bundle.add .empty).genes options :=
          Bundle.genes_behind opened options
  · show Program.totalScore _ = Program.totalScore _ + Program.totalScore _
    rw [Program.totalScore, List.map_append, List.sum_append]
    rfl

/-- The first program ends with an open gene and a statement that waits for it, and the second one
has a trigger between its gene and what the gene takes in. -/
theorem document_append_open_gene :
    let first : Program := ⟨[.text 1 "a" 1, .gene 2 (.ofName "g"), .emit 3 "t" none,
      .remember 4 "k" "v"], none, ""⟩
    let second : Program := ⟨[.gene 1 (.ofName "h"), .trigger 2 "c" [], .text 3 "b" 2], none, ""⟩
    let joined := Document.ofProgram ⟨first.statements ++ second.statements, none, ""⟩ {}
    (∃ line decl, .gene line decl ∈ first.statements) ∧
      (∃ line decl rest, second.statements = .gene line decl :: rest) ∧
      joined.genes.map (fun gene => gene.statements.map Summary.line) = [[1, 3, 4], [3], []] ∧
      joined.genes =
        (Document.ofProgram first {}).genes ++ (Document.ofProgram second {}).genes ∧
      joined.level = 3 := by
  intro first second joined
  have declares : ∃ line decl, .gene line decl ∈ first.statements :=
    ⟨2, .ofName "g", by simp [first]⟩
  have begins : ∃ line decl rest, second.statements = .gene line decl :: rest := ⟨_, _, _, rfl⟩
  have parts := document_append first second {} declares begins none ""
  exact ⟨declares, begins, rfl, parts.1, parts.2⟩

end PlainVerse.Gene
