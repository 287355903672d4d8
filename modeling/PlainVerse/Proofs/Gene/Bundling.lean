import PlainVerse.Proofs.Gene.Cursor

/-!
# What each gene takes in

Bundling is described without a state. A statement that is taken in belongs to the nearest
declaration before it, or else to the first declaration of the program, or else to the default
gene. A declared gene is its declaration with the operations and summaries of all statements that
belong to it, in the order of the source. Triggers, and signals and tools before the first
declaration, are genes of their own.
-/
namespace PlainVerse.Gene

open Poem

def isDeclaration : Statement → Bool
  | .gene .. => true
  | _ => false

/-- Names, memories and text are taken in wherever they stand. -/
def isLoose : Statement → Bool
  | .name .. | .remember .. | .text .. => true
  | _ => false

/-- The operation that a signal or a tool adds to the gene it belongs to. -/
def opOf? : Statement → Option String
  | .emit .. => some emitOp
  | .invoke _ path _ => some (toolOp path)
  | _ => none

/-- The positions of the declarations. -/
def declarations (statements : List Statement) : List Nat :=
  (statements.zipIdx.filter fun place => isDeclaration place.1).map Prod.snd

/-- The position of the declaration that a statement at position `n` belongs to. -/
def owner? (statements : List Statement) (n : Nat) : Option Nat :=
  (declarations (statements.take n)).getLast? <|> (declarations statements).head?

/-- Whether a statement at position `n` is taken in. Signals and tools need a declaration before
them. -/
def isTakenIn (statements : List Statement) (n : Nat) (statement : Statement) : Bool :=
  isLoose statement ||
    ((opOf? statement).isSome && (statements.take n).any isDeclaration)

def takenIn (statements : List Statement) : List Statement :=
  (statements.zipIdx.filter fun place => isTakenIn statements place.2 place.1).map Prod.fst

/-- The statements that belong to the declaration at a position, or to none. -/
def members (statements : List Statement) (owner : Option Nat) : List Statement :=
  (statements.zipIdx.filter fun place =>
    isTakenIn statements place.2 place.1 && decide (owner? statements place.2 = owner)).map
    Prod.fst

/-- A declared gene with all that belongs to it. -/
def filled (decl : GeneDecl) (members : List Statement) : Gene :=
  { (members.filterMap opOf?).foldl pushOp (declared decl) with
    statements := members.map .ofStatement }

/-- The gene that a statement at position `n` makes. -/
def geneAt? (statements : List Statement) (n : Nat) : Statement → Option Gene
  | .gene _ decl => some (filled decl (members statements (some n)))
  | .trigger _ condition children => some (trigger condition children)
  | .emit _ topic payload =>
      if (statements.take n).any isDeclaration then none else some (emit topic payload)
  | .invoke _ path args =>
      if (statements.take n).any isDeclaration then none else some (tool path args)
  | .name .. | .remember .. | .text .. => none

/-- Whether a default gene is needed: nothing is declared, and there are loose statements or no
statements at all. -/
def needsFallback (statements : List Statement) : Bool :=
  !statements.any isDeclaration && (statements.any isLoose || statements.isEmpty)

def bundling (options : Options) (statements : List Statement) : List Gene :=
  statements.zipIdx.filterMap (fun place => geneAt? statements place.2 place.1) ++
    if needsFallback statements then
      [fallback options.name options.cmd ((members statements none).map .ofStatement)]
    else []

theorem declarations_eq_nil {statements : List Statement} :
    declarations statements = [] ↔ statements.any isDeclaration = false := by
  rw [declarations, List.map_eq_nil_iff, List.filter_eq_nil_iff, List.any_eq_false]
  constructor
  · intro h statement mem
    obtain ⟨n, hn⟩ := List.getElem?_of_mem mem
    exact h (statement, n) (List.mk_mem_zipIdx_iff_getElem?.2 hn)
  · rintro h ⟨statement, n⟩ mem
    exact h statement (List.fst_mem_of_mem_zipIdx mem)

theorem lt_of_mem_declarations {statements : List Statement} {n : Nat}
    (h : n ∈ declarations statements) : n < statements.length := by
  obtain ⟨place, mem, rfl⟩ := List.mem_map.1 h
  simpa using List.snd_lt_of_mem_zipIdx (List.mem_filter.1 mem).1

theorem any_take_eq_false {statements : List Statement}
    (none : statements.any isDeclaration = false) (n : Nat) :
    (statements.take n).any isDeclaration = false := by
  rw [List.any_eq_false] at none ⊢
  intro statement mem
  exact none statement (List.mem_of_mem_take mem)

theorem declarations_append (first second : List Statement) :
    declarations (first ++ second) =
      declarations first ++ (declarations second).map (first.length + ·) := by
  simp only [declarations, List.zipIdx_append, List.filter_append, List.map_append]
  congr 1
  rw [Nat.zero_add, List.zipIdx_eq_map_add, List.filter_map, List.map_map, List.map_map]
  rfl

theorem declarations_declaration {statement : Statement} (h : isDeclaration statement = true)
    (rest : List Statement) :
    declarations (statement :: rest) = 0 :: (declarations rest).map (1 + ·) := by
  have split := declarations_append [statement] rest
  simpa [declarations, h] using split

section
variable {before after : List Statement} {declaration : Statement}

theorem declarations_split (h : isDeclaration declaration = true) :
    declarations (before ++ declaration :: after) =
      declarations before ++ before.length :: (declarations after).map (before.length + 1 + ·) := by
  rw [declarations_append, declarations_declaration h, List.map_cons, List.map_map, Nat.add_zero]
  simp only [Function.comp_def, Nat.add_assoc]

/-- What stands before a declaration belongs to it exactly if it is the first one. -/
theorem owner?_before (h : isDeclaration declaration = true) {n : Nat} (le : n ≤ before.length) :
    owner? (before ++ declaration :: after) n = some before.length ↔
      before.any isDeclaration = false := by
  have early : (before ++ declaration :: after).take n = before.take n :=
    List.take_append_of_le_length le
  rw [owner?, early, declarations_split h, ← declarations_eq_nil]
  constructor
  · intro owner
    by_contra other
    obtain ⟨first, rest, split⟩ := List.exists_cons_of_ne_nil other
    cases last : (declarations (before.take n)).getLast? with
    | some j =>
        rw [last] at owner
        obtain rfl : j = before.length := Option.some.inj owner
        have := lt_of_mem_declarations (List.mem_of_getLast? last)
        rw [List.length_take] at this
        omega
    | none =>
        rw [last, split] at owner
        obtain rfl : first = before.length := Option.some.inj owner
        have := lt_of_mem_declarations (split ▸ List.mem_cons_self : before.length ∈ _)
        omega
  · intro none
    have early_none := any_take_eq_false (declarations_eq_nil.1 none) n
    rw [declarations_eq_nil.2 early_none, none]
    rfl

/-- What stands after a declaration belongs to it as long as no other one comes in between. -/
theorem owner?_after (h : isDeclaration declaration = true) (k : Nat) :
    owner? (before ++ declaration :: after) (before.length + 1 + k) = some before.length ↔
      (after.take k).any isDeclaration = false := by
  have late : (before ++ declaration :: after).take (before.length + 1 + k) =
      before ++ declaration :: after.take k := by
    rw [Nat.add_assoc, List.take_length_add_append, Nat.add_comm 1 k, List.take_succ_cons]
  rw [owner?, late, declarations_split h, ← declarations_eq_nil]
  rcases List.eq_nil_or_concat (declarations (after.take k)) with none | ⟨rest, last, some⟩
  · simp [none]
  · simp [some, List.getLast?_cons]
    omega

end

/-- Whether a statement behind a declaration is taken in. -/
def isAttachable (statement : Statement) : Bool :=
  isLoose statement || (opOf? statement).isSome

/-- What a declaration takes in from the statements behind it. -/
def follow (after : List Statement) : List Statement :=
  (after.takeWhile (!isDeclaration ·)).filter isAttachable

theorem not_isAttachable {statement : Statement} (h : isDeclaration statement = true) :
    isAttachable statement = false := by
  cases statement <;> first | rfl | cases h

theorem follow_declaration {statement : Statement} (h : isDeclaration statement = true)
    (rest : List Statement) : follow (statement :: rest) = [] := by
  simp [follow, h]

theorem filter_zipIdx_fst (p : Statement → Bool) (statements : List Statement) (start : Nat) :
    ((statements.zipIdx start).filter fun place => p place.1).map Prod.fst =
      statements.filter p := by
  rw [← List.zipIdx_map_fst start statements, List.filter_map, List.zipIdx_map_fst]
  rfl

/-- Keeping a position only if no declaration stands between `start` and it cuts the list at the
first declaration. -/
theorem filter_zipIdx_follow (after : List Statement) (start : Nat) :
    ((after.zipIdx start).filter fun place =>
        isAttachable place.1 && !(after.take (place.2 - start)).any isDeclaration).map Prod.fst =
      follow after := by
  induction after generalizing start with
  | nil => rfl
  | cons statement rest ih =>
      have shift : ∀ place ∈ rest.zipIdx (start + 1),
          (isAttachable place.1 &&
              !((statement :: rest).take (place.2 - start)).any isDeclaration) =
            (!isDeclaration statement && (isAttachable place.1 &&
              !(rest.take (place.2 - (start + 1))).any isDeclaration)) := by
        rintro ⟨other, n⟩ mem
        have le : start + 1 ≤ n := List.le_snd_of_mem_zipIdx mem
        have step : n - start = n - (start + 1) + 1 := by omega
        rw [step, List.take_succ_cons, List.any_cons]
        cases isDeclaration statement <;> simp
      rw [List.zipIdx_cons, List.filter_cons, List.filter_congr shift, Nat.sub_self]
      by_cases h : isDeclaration statement = true
      · simp [follow_declaration h, not_isAttachable h, h]
      · have keep := ih (start + 1)
        simp only [follow] at keep ⊢
        by_cases taken : isAttachable statement = true
        · simp [h, taken, keep]
        · simp [h, taken, keep]

section
variable {before after : List Statement} {declaration : Statement}

theorem members_before (h : isDeclaration declaration = true) :
    (before.zipIdx.filter fun place =>
        isTakenIn (before ++ declaration :: after) place.2 place.1 &&
          decide (owner? (before ++ declaration :: after) place.2 = some before.length)).map
        Prod.fst =
      if before.any isDeclaration then [] else before.filter isLoose := by
  have same : ∀ place ∈ before.zipIdx,
      (isTakenIn (before ++ declaration :: after) place.2 place.1 &&
          decide (owner? (before ++ declaration :: after) place.2 = some before.length)) =
        (isLoose place.1 && !before.any isDeclaration) := by
    rintro ⟨statement, n⟩ mem
    have lt : n < before.length := by simpa using List.snd_lt_of_mem_zipIdx mem
    have early : (before ++ declaration :: after).take n = before.take n :=
      List.take_append_of_le_length (Nat.le_of_lt lt)
    simp only [isTakenIn, early, owner?_before h (Nat.le_of_lt lt)]
    by_cases none : before.any isDeclaration = false
    · simp [none, any_take_eq_false none n]
    · simp [none]
  rw [List.filter_congr same]
  by_cases none : before.any isDeclaration = false
  · simp only [none, Bool.not_false, Bool.and_true]
    exact filter_zipIdx_fst isLoose before 0
  · simp [none]

theorem members_after (h : isDeclaration declaration = true) :
    ((after.zipIdx (before.length + 1)).filter fun place =>
        isTakenIn (before ++ declaration :: after) place.2 place.1 &&
          decide (owner? (before ++ declaration :: after) place.2 = some before.length)).map
        Prod.fst =
      follow after := by
  rw [← filter_zipIdx_follow after (before.length + 1)]
  congr 1
  apply List.filter_congr
  rintro ⟨statement, n⟩ mem
  have le : before.length + 1 ≤ n := List.le_snd_of_mem_zipIdx mem
  obtain ⟨k, rfl⟩ := Nat.exists_eq_add_of_le le
  have late : ((before ++ declaration :: after).take (before.length + 1 + k)).any
      isDeclaration = true := by
    rw [Nat.add_assoc, List.take_length_add_append, Nat.add_comm 1 k, List.take_succ_cons]
    simp [h]
  simp only [isTakenIn, late, Bool.and_true, owner?_after h, Nat.add_sub_cancel_left]
  cases (after.take k).any isDeclaration <;> simp [isAttachable]

/-- A declaration takes in what follows it, and the first one also what stands before it. -/
theorem members_declaration (h : isDeclaration declaration = true) :
    members (before ++ declaration :: after) (some before.length) =
      (if before.any isDeclaration then [] else before.filter isLoose) ++ follow after := by
  have left_out : isTakenIn (before ++ declaration :: after) before.length declaration = false := by
    have none := not_isAttachable h
    rw [isAttachable, Bool.or_eq_false_iff] at none
    simp [isTakenIn, none]
  rw [members, List.zipIdx_append, List.zipIdx_cons, Nat.zero_add, List.filter_append,
    List.filter_cons_of_neg (by simp [left_out]), List.map_append, members_before h,
    members_after h]

example (decl : GeneDecl) :
    members [.name 1 "a", .emit 2 "b" none, .gene 3 decl, .emit 4 "c" none, .gene 5 decl,
      .name 6 "d"] (some 2) = [.name 1 "a", .emit 4 "c" none] := rfl

end

/-- Without any declaration, the loose statements belong to none. -/
theorem members_none {statements : List Statement}
    (undeclared : statements.any isDeclaration = false) :
    members statements none = statements.filter isLoose := by
  have same : ∀ place ∈ statements.zipIdx,
      (isTakenIn statements place.2 place.1 &&
        decide (owner? statements place.2 = none)) = isLoose place.1 := by
    rintro ⟨statement, n⟩ -
    have early := any_take_eq_false undeclared n
    have no_owner : owner? statements n = none := by
      rw [owner?, declarations_eq_nil.2 early, declarations_eq_nil.2 undeclared]
      rfl
    simp [isTakenIn, early, no_owner]
  rw [members, List.filter_congr same]
  exact filter_zipIdx_fst isLoose statements 0

end PlainVerse.Gene
