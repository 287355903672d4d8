import PlainVerse.Proofs.Gene.Bundling

/-!
# The run meets the bundling

Adding statements one after the other ends with the genes that the bundling describes. While a
gene is open, the rest of the run completes it with what follows up to the next declaration; before
the first declaration, the summaries of the loose statements wait. No summary is lost or doubled on
the way.
-/
namespace PlainVerse.Gene

open Poem

/-- How a statement takes part in bundling. -/
inductive Role : Statement → Prop
  | declaration (line : Nat) (decl : GeneDecl) : Role (.gene line decl)
  | trigger (line : Nat) (condition : String) (children : List Statement) :
      Role (.trigger line condition children)
  | operation {statement : Statement} (op : String) (alone : Gene)
      (opOf : opOf? statement = some op)
      (solid : isLoose statement = false) (undeclared : isDeclaration statement = false)
      (lone : alone.statements = [])
      (add : ∀ bundle : Bundle, bundle.add statement = bundle.attach statement op alone)
      (gene : ∀ statements n, geneAt? statements n statement =
        if (statements.take n).any isDeclaration then none else some alone) :
      Role statement
  | loose {statement : Statement}
      (opOf : opOf? statement = none)
      (loose : isLoose statement = true) (undeclared : isDeclaration statement = false)
      (add : ∀ bundle : Bundle, bundle.add statement = bundle.wait statement)
      (gene : ∀ statements n, geneAt? statements n statement = none) :
      Role statement

theorem role (statement : Statement) : Role statement := by
  cases statement with
  | gene line decl => exact .declaration line decl
  | trigger line condition children => exact .trigger line condition children
  | emit line topic payload =>
      exact .operation emitOp (emit topic payload) rfl rfl rfl rfl (fun _ => rfl) fun _ _ => rfl
  | invoke line path args =>
      exact .operation (toolOp path) (tool path args) rfl rfl rfl rfl (fun _ => rfl) fun _ _ => rfl
  | name line given => exact .loose rfl rfl rfl (fun _ => rfl) fun _ _ => rfl
  | remember line key value => exact .loose rfl rfl rfl (fun _ => rfl) fun _ _ => rfl
  | text line words score => exact .loose rfl rfl rfl (fun _ => rfl) fun _ _ => rfl

theorem foldl_pushOp_ops (ops : List String) (gene : Gene) :
    (ops.foldl pushOp gene).ops = gene.ops ++ ops := by
  induction ops generalizing gene with
  | nil => rw [List.foldl_nil, List.append_nil]
  | cons op rest ih =>
      rw [List.foldl_cons, ih]
      simp [pushOp]

/-- A gene once it has taken in the summaries that wait and then some statements. -/
def takeIn (gene : Gene) (waiting : List Summary) (members : List Statement) : Gene :=
  { (members.filterMap opOf?).foldl pushOp gene with
    statements := gene.statements ++ waiting ++ members.map .ofStatement }

theorem takeIn_nil (gene : Gene) (waiting : List Summary) :
    takeIn gene waiting [] = { gene with statements := gene.statements ++ waiting } := by
  simp [takeIn]

theorem takeIn_loose {statement : Statement} (h : opOf? statement = none) (gene : Gene)
    (waiting : List Summary) (members : List Statement) :
    takeIn gene (waiting ++ [.ofStatement statement]) members =
      takeIn gene waiting (statement :: members) := by
  simp [takeIn, h]

theorem takeIn_operation {statement : Statement} {op : String} (h : opOf? statement = some op)
    (gene : Gene) (waiting : List Summary) (members : List Statement) :
    takeIn (gene.pushOp op) (waiting ++ [.ofStatement statement]) members =
      takeIn gene waiting (statement :: members) := by
  simp [takeIn, h, pushOp]

/-- Loose statements add nothing but their summaries. -/
theorem takeIn_declared (decl : GeneDecl) (before members : List Statement) :
    takeIn (declared decl) ((before.filter isLoose).map .ofStatement) members =
      filled decl (before.filter isLoose ++ members) := by
  have no_ops : (before.filter isLoose).filterMap opOf? = [] := by
    rw [List.filterMap_eq_nil_iff]
    intro statement mem
    have loose := (List.mem_filter.1 mem).2
    cases role statement with
    | declaration line decl => cases loose
    | trigger line condition children => cases loose
    | operation op alone opOf solid => rw [solid] at loose; cases loose
    | loose opOf => exact opOf
  rw [filled, takeIn, List.filterMap_append, no_ops, List.map_append]
  rfl

/-- The genes that the statements `rest` of a program make, where `before` stands before them. -/
def genesFrom (statements before rest : List Statement) : List Gene :=
  (rest.zipIdx before.length).filterMap fun place => geneAt? statements place.2 place.1

theorem genesFrom_cons (statements before rest : List Statement) (statement : Statement) :
    genesFrom statements before (statement :: rest) =
      (geneAt? statements before.length statement).toList ++
        genesFrom statements (before ++ [statement]) rest := by
  rw [genesFrom, genesFrom, List.zipIdx_cons, List.filterMap_cons, List.length_append,
    List.length_singleton]
  cases geneAt? statements before.length statement <;> rfl

theorem follow_keep {statement : Statement} (solid : isDeclaration statement = false)
    (taken : isAttachable statement = true) (rest : List Statement) :
    follow (statement :: rest) = statement :: follow rest := by
  simp [follow, solid, taken]

theorem follow_trigger (line : Nat) (condition : String) (children rest : List Statement) :
    follow (.trigger line condition children :: rest) = follow rest :=
  rfl

/-- While a gene is open, the rest of the run completes it and adds the genes behind it. The open
gene, its followers and what waits all change from step to step. -/
theorem close_foldl_open (before rest : List Statement)
    (begun : before.any isDeclaration = true) (closed : List Gene) (gene : Gene)
    (followers : List Gene) (waiting : List Summary) :
    (rest.foldl Bundle.add ⟨closed, some ⟨gene, followers⟩, waiting⟩).close =
      ⟨closed ++ takeIn gene waiting (follow rest) ::
        (followers ++ genesFrom (before ++ rest) before rest), none, []⟩ := by
  induction rest generalizing before closed gene followers waiting with
  | nil =>
      rw [List.foldl_nil, show follow [] = [] from rfl, takeIn_nil]
      simp [Bundle.close, genesFrom]
  | cons statement rest ih =>
      have still : (before ++ [statement]).any isDeclaration = true := by simp [begun]
      have split : before ++ statement :: rest = (before ++ [statement]) ++ rest := by simp
      have early : (before ++ statement :: rest).take before.length = before := by simp
      rw [List.foldl_cons, genesFrom_cons]
      cases role statement with
      | declaration line decl =>
          have ended : (Bundle.mk closed (some ⟨gene, followers⟩) waiting).add (.gene line decl) =
              ⟨closed ++ takeIn gene waiting [] :: followers, some ⟨declared decl, []⟩, []⟩ := by
            rw [takeIn_nil]
            rfl
          have made : geneAt? (before ++ .gene line decl :: rest) before.length
              (.gene line decl) = some (takeIn (declared decl) [] (follow rest)) := by
            rw [geneAt?, members_declaration rfl, if_pos begun]
            rfl
          rw [ended, ih _ still, made, follow_declaration rfl, split]
          simp
      | trigger line condition children =>
          have added : (Bundle.mk closed (some ⟨gene, followers⟩) waiting).add
              (.trigger line condition children) =
              ⟨closed, some ⟨gene, followers ++ [trigger condition children]⟩, waiting⟩ := rfl
          rw [added, ih _ still, follow_trigger, geneAt?, split]
          simp
      | operation op alone opOf solid undeclared lone add made =>
          have attached : (Bundle.mk closed (some ⟨gene, followers⟩) waiting).attach statement op
              alone = ⟨closed, some ⟨gene.pushOp op, followers⟩,
                waiting ++ [.ofStatement statement]⟩ := rfl
          have taken : isAttachable statement = true := by simp [isAttachable, opOf]
          rw [add, attached, ih _ still, takeIn_operation opOf, follow_keep undeclared taken, made,
            early, if_pos begun, split]
          rfl
      | loose opOf loose undeclared add made =>
          have waits : (Bundle.mk closed (some ⟨gene, followers⟩) waiting).wait statement =
              ⟨closed, some ⟨gene, followers⟩, waiting ++ [.ofStatement statement]⟩ := rfl
          have taken : isAttachable statement = true := by simp [isAttachable, loose]
          rw [add, waits, ih _ still, takeIn_loose opOf, follow_keep undeclared taken, made, split]
          rfl

/-- Before the first declaration, the summaries of the loose statements wait for it. -/
theorem close_foldl_closed (before rest : List Statement)
    (undeclared : before.any isDeclaration = false) (closed : List Gene) :
    (rest.foldl Bundle.add
        ⟨closed, none, (before.filter isLoose).map .ofStatement⟩).close =
      ⟨closed ++ genesFrom (before ++ rest) before rest, none,
        if rest.any isDeclaration then []
        else ((before ++ rest).filter isLoose).map .ofStatement⟩ := by
  induction rest generalizing before closed with
  | nil => simp [Bundle.close, genesFrom]
  | cons statement rest ih =>
      have split : before ++ statement :: rest = (before ++ [statement]) ++ rest := by simp
      have early : (before ++ statement :: rest).take before.length = before := by simp
      rw [List.foldl_cons, genesFrom_cons]
      cases role statement with
      | declaration line decl =>
          have begun : (before ++ [Statement.gene line decl]).any isDeclaration = true := by
            simp [isDeclaration]
          have made : geneAt? (before ++ .gene line decl :: rest) before.length
              (.gene line decl) = some (takeIn (declared decl)
                ((before.filter isLoose).map .ofStatement) (follow rest)) := by
            rw [geneAt?, members_declaration rfl, takeIn_declared, undeclared]
            rfl
          have opened : (Bundle.mk closed none ((before.filter isLoose).map .ofStatement)).add
              (.gene line decl) =
              ⟨closed, some ⟨declared decl, []⟩, (before.filter isLoose).map .ofStatement⟩ := rfl
          rw [opened, close_foldl_open _ _ begun, made, split]
          simp [isDeclaration]
      | trigger line condition children =>
          have still : (before ++ [Statement.trigger line condition children]).any isDeclaration =
              false := by simp [undeclared, isDeclaration]
          have next := ih _ still (closed ++ [trigger condition children])
          rw [← split, List.filter_append, show [Statement.trigger line condition
            children].filter isLoose = [] from rfl, List.append_nil] at next
          exact next.trans (by simp [geneAt?, isDeclaration])
      | operation op alone opOf solid plain lone add made =>
          have still : (before ++ [statement]).any isDeclaration = false := by
            simp [undeclared, plain]
          have next := ih _ still (closed ++ [alone])
          rw [← split, List.filter_append, List.filter_singleton, solid, cond_false,
            List.append_nil] at next
          rw [add, made, early, undeclared]
          exact next.trans (by simp [plain])
      | loose opOf loose plain add made =>
          have still : (before ++ [statement]).any isDeclaration = false := by
            simp [undeclared, plain]
          have next := ih _ still closed
          rw [← split, List.filter_append, List.filter_singleton, loose, cond_true,
            List.map_append] at next
          rw [add, made]
          exact next.trans (by simp [plain])

theorem genesFrom_ne_nil {statements : List Statement} {n : Nat} {statement : Statement}
    {gene : Gene} (here : statements[n]? = some statement)
    (made : geneAt? statements n statement = some gene) :
    genesFrom statements [] statements ≠ [] := by
  apply List.ne_nil_of_mem (a := gene)
  exact List.mem_filterMap.2 ⟨(statement, n), List.mk_mem_zipIdx_iff_getElem?.2 here, made⟩

theorem genesFrom_ne_nil_of_declared {statements : List Statement}
    (begun : statements.any isDeclaration = true) : genesFrom statements [] statements ≠ [] := by
  obtain ⟨statement, mem, declares⟩ := List.any_eq_true.1 begun
  obtain ⟨n, here⟩ := List.getElem?_of_mem mem
  cases statement with
  | gene line decl => exact genesFrom_ne_nil here rfl
  | _ => cases declares

/-- Without declarations, a first statement that is not loose makes a gene. -/
theorem genesFrom_ne_nil_of_solid {statement : Statement} (rest : List Statement)
    (plain : isDeclaration statement = false) (solid : isLoose statement = false) :
    genesFrom (statement :: rest) [] (statement :: rest) ≠ [] := by
  cases role statement with
  | declaration line decl => cases plain
  | trigger line condition children => exact genesFrom_ne_nil (n := 0) rfl rfl
  | operation op alone opOf solid plain lone add made =>
      exact genesFrom_ne_nil (n := 0) rfl (made _ 0)
  | loose opOf loose => rw [solid] at loose; cases loose

/-- The run of a whole program ends with the genes of its bundling. -/
theorem genes_foldl (options : Options) (statements : List Statement) :
    (statements.foldl Bundle.add .empty).genes options = bundling options statements := by
  have done := close_foldl_closed [] statements rfl []
  simp only [List.filter_nil, List.map_nil, List.nil_append] at done
  rw [Bundle.genes, Bundle.empty, done, bundling, needsFallback,
    show statements.zipIdx.filterMap _ = genesFrom statements [] statements from rfl]
  cases begun : statements.any isDeclaration with
  | true => simp [genesFrom_ne_nil_of_declared begun]
  | false =>
      rw [members_none begun]
      cases loose : statements.any isLoose with
      | true =>
          have waiting : statements.filter isLoose ≠ [] := by
            simpa [List.filter_eq_nil_iff] using loose
          simp [waiting]
      | false =>
          have waiting : statements.filter isLoose = [] := by
            simpa [List.filter_eq_nil_iff] using loose
          cases statements with
          | nil => rfl
          | cons statement rest =>
              simp only [List.any_cons, Bool.or_eq_false_iff] at begun loose
              simp [waiting, genesFrom_ne_nil_of_solid rest begun.1 loose.1]

theorem takenIn_concat (before : List Statement) (statement : Statement) :
    takenIn (before ++ [statement]) =
      takenIn before ++ if isLoose statement ||
        ((opOf? statement).isSome && before.any isDeclaration) then [statement] else [] := by
  have same : ∀ place ∈ before.zipIdx, isTakenIn (before ++ [statement]) place.2 place.1 =
      isTakenIn before place.2 place.1 := by
    rintro ⟨other, n⟩ mem
    have lt : n < before.length := by simpa using List.snd_lt_of_mem_zipIdx mem
    rw [isTakenIn, isTakenIn, List.take_append_of_le_length (Nat.le_of_lt lt)]
  rw [takenIn, List.zipIdx_append, List.filter_append, List.filter_congr same, List.map_append]
  simp only [takenIn, isTakenIn, List.zipIdx_singleton, Nat.zero_add, List.filter_singleton,
    List.take_left]
  cases isLoose statement || ((opOf? statement).isSome && before.any isDeclaration) <;> rfl

namespace Bundle

/-- All summaries in a bundle, once its open gene is closed. -/
def contents (bundle : Bundle) : List Summary :=
  bundle.close.closed.flatMap Gene.statements ++ bundle.close.waiting

/-- The genes after an open one hold no summaries. -/
def LoneFollowers (bundle : Bundle) : Prop :=
  ∀ openGene ∈ bundle.current, ∀ gene ∈ openGene.followers, gene.statements = []

/-- What the bundle of the statements `before` keeps. -/
structure Keeps (before : List Statement) (bundle : Bundle) : Prop where
  begun : bundle.current.isSome = before.any isDeclaration
  lone : bundle.LoneFollowers
  held : bundle.contents = (takenIn before).map .ofStatement

theorem contents_wait {bundle : Bundle} (lone : bundle.LoneFollowers) (statement : Statement) :
    (bundle.wait statement).contents = bundle.contents ++ [.ofStatement statement] := by
  obtain ⟨closed, current, waiting⟩ := bundle
  cases current with
  | none => simp [contents, close, wait]
  | some openGene =>
      have none : openGene.followers.flatMap Gene.statements = [] :=
        List.flatMap_eq_nil_iff.2 (lone openGene rfl)
      simp [contents, close, wait, none]

theorem contents_addGene (bundle : Bundle) {gene : Gene} (lone : gene.statements = []) :
    (bundle.addGene gene).contents = bundle.contents := by
  obtain ⟨closed, current, waiting⟩ := bundle
  cases current with
  | none => simp [contents, close, addGene, lone]
  | some openGene => simp [contents, close, addGene, lone]

theorem loneFollowers_addGene {bundle : Bundle} (followers : bundle.LoneFollowers) {gene : Gene}
    (lone : gene.statements = []) : (bundle.addGene gene).LoneFollowers := by
  obtain ⟨closed, current, waiting⟩ := bundle
  cases current with
  | none => exact followers
  | some openGene =>
      intro found here other mem
      obtain rfl : OpenGene.mk openGene.gene (openGene.followers ++ [gene]) = found :=
        Option.some.inj here
      rcases List.mem_append.1 mem with old | new
      · exact followers openGene rfl other old
      · rw [List.mem_singleton.1 new, lone]

theorem isSome_addGene (bundle : Bundle) (gene : Gene) :
    (bundle.addGene gene).current.isSome = bundle.current.isSome := by
  obtain ⟨closed, current, waiting⟩ := bundle
  cases current <;> rfl

/-- A declaration closes the open gene and opens an empty one. -/
theorem contents_declaration (bundle : Bundle) (line : Nat) (decl : GeneDecl) :
    (bundle.add (.gene line decl)).contents = bundle.contents := by
  have bare : (declared decl).statements = [] := rfl
  simp [contents, add, close, bare]

/-- A signal or a tool is taken in by the open gene. Without one it is a gene of its own. -/
theorem Keeps.attach {before : List Statement} {bundle : Bundle} (keeps : Keeps before bundle)
    {statement : Statement} {op : String} {alone : Gene} (opOf : opOf? statement = some op)
    (solid : isLoose statement = false) (plain : isDeclaration statement = false)
    (bare : alone.statements = []) :
    Keeps (before ++ [statement]) (bundle.attach statement op alone) := by
  obtain ⟨begun, lone, held⟩ := keeps
  obtain ⟨closed, current, waiting⟩ := bundle
  cases current with
  | none =>
      have undeclared : before.any isDeclaration = false := begun.symm
      refine ⟨?_, loneFollowers_addGene lone bare, ?_⟩
      · simp [Bundle.attach, addGene, undeclared, plain]
      · rw [Bundle.attach, contents_addGene _ bare, held, takenIn_concat]
        simp [solid, undeclared]
  | some openGene =>
      have declared : before.any isDeclaration = true := begun.symm
      have followers : LoneFollowers
          ⟨closed, some ⟨openGene.gene.pushOp op, openGene.followers⟩, waiting⟩ := by
        intro found here
        obtain rfl : OpenGene.mk (openGene.gene.pushOp op) openGene.followers = found :=
          Option.some.inj here
        exact lone openGene rfl
      have pushed : contents
          ⟨closed, some ⟨openGene.gene.pushOp op, openGene.followers⟩, waiting⟩ =
          contents ⟨closed, some openGene, waiting⟩ := by
        simp [contents, close, pushOp]
      refine ⟨?_, followers, ?_⟩
      · simp [Bundle.attach, wait, declared]
      · rw [Bundle.attach, contents_wait followers, pushed, held, takenIn_concat]
        simp [opOf, declared]

/-- One statement: its summary is added at the end if it is taken in. -/
theorem Keeps.add {before : List Statement} {bundle : Bundle} (keeps : Keeps before bundle)
    (statement : Statement) : Keeps (before ++ [statement]) (bundle.add statement) := by
  cases role statement with
  | declaration line decl =>
      refine ⟨?_, ?_, ?_⟩
      · simp [Bundle.add, isDeclaration]
      · intro found here other mem
        obtain rfl : OpenGene.mk (declared decl) [] = found := Option.some.inj here
        cases mem
      · rw [contents_declaration, keeps.held, takenIn_concat]
        simp [isLoose, opOf?]
  | trigger line condition children =>
      have bare : (trigger condition children).statements = [] := rfl
      refine ⟨?_, loneFollowers_addGene keeps.lone bare, ?_⟩
      · simpa [Bundle.add, isSome_addGene, isDeclaration] using keeps.begun
      · rw [Bundle.add, contents_addGene bundle bare, keeps.held, takenIn_concat]
        simp [isLoose, opOf?]
  | operation op alone opOf solid plain bare add made =>
      rw [add]
      exact keeps.attach opOf solid plain bare
  | loose opOf loose plain add made =>
      rw [add]
      refine ⟨?_, keeps.lone, ?_⟩
      · simpa [wait, plain] using keeps.begun
      · rw [contents_wait keeps.lone, keeps.held, takenIn_concat]
        simp [loose]

theorem Keeps.foldl {before : List Statement} {bundle : Bundle} (keeps : Keeps before bundle)
    (rest : List Statement) : Keeps (before ++ rest) (rest.foldl Bundle.add bundle) := by
  induction rest generalizing before bundle with
  | nil => rwa [List.append_nil]
  | cons statement rest ih => simpa using ih (keeps.add statement)

theorem keeps_empty : Keeps [] empty :=
  ⟨rfl, fun _ here => (nomatch here), rfl⟩

/-- The default gene takes what still waits. -/
theorem flatMap_genes (bundle : Bundle) (options : Options) :
    (bundle.genes options).flatMap Gene.statements = bundle.contents := by
  rw [genes, contents]
  split
  case isTrue h => simp [fallback, pushOp]
  case isFalse h =>
    have none : bundle.close.waiting = [] := by
      simp only [Bool.or_eq_true, not_or, Bool.not_eq_true', Bool.not_eq_false,
        List.isEmpty_iff] at h
      exact h.1
    rw [none, List.append_nil]

end Bundle

/-- Lowering a program of any statements gives the genes of its bundling, and the checked accesses
through the index never fail. All that is taken in stands in exactly one gene, in the order of the
source. A declared gene has its own operation and then those of its signals and tools. -/
theorem lowering_eq_bundling (program : Program) (options : Options) :
    let document := Document.ofProgram program options
    Cursor.run? options program.statements = some document.genes ∧
      document.genes = bundling options program.statements ∧
      document.genes.flatMap Gene.statements =
        (takenIn program.statements).map Summary.ofStatement ∧
      ∀ decl members,
        (filled decl members).ops = emitOp :: members.filterMap opOf? ∧
          (filled decl members).statements = members.map Summary.ofStatement := by
  have keeps := Bundle.keeps_empty.foldl program.statements
  refine ⟨Cursor.run?_eq options _, genes_foldl options _, ?_, ?_⟩
  · exact (Bundle.flatMap_genes _ options).trans keeps.held
  · intro decl members
    exact ⟨foldl_pushOp_ops _ (declared decl), rfl⟩

end PlainVerse.Gene
