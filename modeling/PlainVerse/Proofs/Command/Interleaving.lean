import PlainVerse.Proofs.Command.Finding
import PlainVerse.Proofs.Command.Passes

/-!
# The order of clauses

The families of clauses are carried out one after the other, so a plan does not depend on how they
are interleaved in the text. What it depends on is the list of compress clauses and the three other
clauses, if they are there. From these the plan is written down directly: an entry for each
compress clause, and at most one entry for each of the other families.
-/
namespace PlainVerse.Command

open Plan (Entry)

/-- Clauses that make up a command: all are well formed, and only compress clauses repeat. -/
structure IsCommand (clauses : List Clause) : Prop where
  wellFormed : ∀ clause ∈ clauses, clause.WellFormed
  single : ∀ family, family ≠ Family.compress → clauses.countP (·.family = family) ≤ 1

/-- What clauses ask for, however their families are interleaved. -/
structure Request where
  compress : List CompressClause := []
  compare : Option (String × String) := none
  attest : Bool := false
  explain : Option String := none
deriving DecidableEq, Repr

def request (clauses : List Clause) : Request where
  compress := clauses.filterMap Clause.compress?
  compare := clauses.findSome? Clause.pair?
  attest := clauses.any (·.family = .attest)
  explain := clauses.findSome? Clause.target?

/-- The names of the results of compress clauses: each clause gives one, or it is generated. -/
def nameResults (table : AliasTable) : List CompressClause → AliasTable × List String
  | [] => (table, [])
  | clause :: rest =>
      let named := resultName table clause.name
      let later := nameResults (named.2.define named.1) rest
      (later.1, named.1 :: later.2)

namespace Request
variable (options : Options) (request : Request)

def names : List String := (nameResults .empty request.compress).2

/-- The names that are taken before anything is compared. -/
def compressTable : AliasTable := (nameResults .empty request.compress).1

def compareName : String := (request.compressTable.fresh "cmp").1

/-- The names that are taken before anything is attested. -/
def compareTable : AliasTable :=
  match request.compare with
  | none => request.compressTable
  | some _ => (request.compressTable.fresh "cmp").2.define request.compareName

def attestName : String := (request.compareTable.fresh "att").1

def seedValue : Option String → UInt64
  | none => options.seed
  | some digits => UInt64.ofNat (Nat.ofDigitChars 10 digits.toList 0)

def compressEntry (clause : CompressClause) (name : String) : Entry where
  op := .compress
  inputs := .ofList [("payload", "utf8:" ++ clause.payload)]
  params := some (.ofList [("use", .string options.codec),
    ("seed", .ofNat (seedValue options clause.seed).toNat)])
  out := some name

def compareEntry (pair : String × String) : Entry where
  op := .compare
  inputs := .ofList [("a", pair.1), ("b", pair.2)]
  params := none
  out := some request.compareName

/-- Attested is the last compress result. -/
def attestEntry : Entry where
  op := .attest
  inputs := .ofList [("artifact", request.names.getLast?.getD "r1")]
  params := none
  out := some request.attestName

def explainEntry (target : String) : Entry where
  op := .explain
  inputs := .ofList [("ref", target)]
  params := none
  out := some "_explanation"

def plan : Plan where
  version := options.version
  entries :=
    request.compress.zipWith (compressEntry options) request.names ++
      (request.compare.map request.compareEntry).toList ++
      (if request.attest then [request.attestEntry] else []) ++
      (request.explain.map explainEntry).toList

/-- Something is asked for, what is compressed is not empty, seeds fit into 64 bits, and the names
that are referred to are known. -/
structure Accepted : Prop where
  nonempty : request ≠ {}
  payload : ∀ clause ∈ request.compress, clause.payload ≠ ""
  seed : ∀ clause ∈ request.compress, ∀ digits ∈ clause.seed,
    Nat.ofDigitChars 10 digits.toList 0 < UInt64.size
  compare : ∀ pair ∈ request.compare, pair.1 ∈ request.names ∧ pair.2 ∈ request.names
  explain : ∀ target ∈ request.explain,
    target ∈ request.names ∨ (request.compare.isSome ∧ target = request.compareName)

end Request

/-- The searches find in a text what a request asks for. -/
structure Shows (text : String) (request : Request) : Prop where
  normal : normalize text = text
  empty : text = "" ↔ request = {}
  compress : compressClauses text = request.compress
  compares : Family.compare.isPresent text = request.compare.isSome
  compare : comparePair? text = request.compare
  attests : Family.attest.isPresent text = request.attest
  explains : Family.explain.isPresent text = request.explain.isSome
  explain : explainTarget? text = request.explain

theorem request_eq_empty {clauses : List Clause} : request clauses = {} ↔ clauses = [] := by
  cases clauses with
  | nil => exact iff_of_true rfl rfl
  | cons clause rest =>
      apply iff_of_false _ (List.cons_ne_nil _ _)
      cases clause <;> simp [request, Clause.compress?, Clause.pair?, Clause.target?, Clause.family]

theorem isSome_findSome?_eq_any {α : Type} {value : Clause → Option α} {family : Family}
    (holds : ∀ clause, (value clause).isSome ↔ clause.family = family) (clauses : List Clause) :
    (clauses.findSome? value).isSome = clauses.any (·.family = family) := by
  rw [Bool.eq_iff_iff, List.findSome?_isSome_iff, List.any_eq_true]
  simp [holds]

theorem shows_spelled {clauses : List Clause}
    (wellFormed : ∀ clause ∈ clauses, clause.WellFormed) :
    Shows (spelled clauses) (request clauses) where
  normal := normalize_spelled wellFormed
  empty := spelled_eq_empty.trans request_eq_empty.symm
  compress := compressClauses_spelled wellFormed
  compares := by
    rw [isPresent_spelled wellFormed (by decide), request,
      isSome_findSome?_eq_any Clause.isSome_pair?]
  compare := comparePair?_spelled wellFormed
  attests := isPresent_spelled wellFormed (by decide)
  explains := by
    rw [isPresent_spelled wellFormed (by decide), request,
      isSome_findSome?_eq_any Clause.isSome_target?]
  explain := explainTarget?_spelled wellFormed

section
variable {options : Options} {text other : String} {request : Request}

theorem Shows.perform_congr (h : Shows text request) (h' : Shows other request) :
    perform options text = perform options other := by
  funext context family
  cases family with
  | compress => rw [perform, perform, h.compress, h'.compress]
  | compare =>
      simp only [perform, Command.compare, compared, h.compares, h'.compares, h.compare,
        h'.compare]
  | attest => rw [perform, perform, h.attests, h'.attests]
  | explain =>
      simp only [perform, Command.explain, explained, h.explains, h'.explains, h.explain,
        h'.explain]

theorem Shows.compile_congr (h : Shows text request) (h' : Shows other request) :
    compile options text = compile options other := by
  unfold compile
  simp only [h.normal, h'.normal, h.empty, h'.empty, h.perform_congr h']

end

section
variable {options : Options}

theorem mem_nameResults {table : AliasTable} {clauses : List CompressClause} {name : String} :
    name ∈ (nameResults table clauses).1.defined ↔
      name ∈ table.defined ∨ name ∈ (nameResults table clauses).2 := by
  induction clauses generalizing table with
  | nil => simp [nameResults]
  | cons clause rest ih =>
      have kept : (resultName table clause.name).2.defined = table.defined := by
        cases clause.name <;> rfl
      simp only [nameResults, ih, AliasTable.mem_define, kept, List.mem_cons, or_assoc]

theorem seedOf_eq_ok {seed : Option String} {value : UInt64}
    (digits : ∀ x ∈ seed, x ≠ "" ∧ ∀ c ∈ x.toList, c.isDigit = true) :
    seedOf options seed = .ok value ↔
      (∀ x ∈ seed, Nat.ofDigitChars 10 x.toList 0 < UInt64.size) ∧
        value = Request.seedValue options seed := by
  cases seed with
  | none => simp [seedOf, Request.seedValue, eq_comm]
  | some x =>
      obtain ⟨nonempty, digit⟩ := digits x rfl
      have number : x.toList ≠ [] ∧ x.toList.all Char.isDigit = true :=
        ⟨fun empty => nonempty (String.toList_eq_nil_iff.1 empty), List.all_eq_true.2 digit⟩
      simp only [seedOf, Text.word64?, Text.decimal?, if_pos number, Request.seedValue]
      by_cases small : Nat.ofDigitChars 10 x.toList 0 < UInt64.size
      · simp [small, eq_comm]
      · simp [small]

theorem compress_eq_ok_iff {context next : Context} {clause : CompressClause}
    (digits : ∀ x ∈ clause.seed, x ≠ "" ∧ ∀ c ∈ x.toList, c.isDigit = true) :
    compress options context clause = .ok next ↔
      (clause.payload ≠ "" ∧
        ∀ x ∈ clause.seed, Nat.ofDigitChars 10 x.toList 0 < UInt64.size) ∧
      next = compressed options context clause (Request.seedValue options clause.seed) := by
  simp only [compress_eq_ok, seedOf_eq_ok digits]
  constructor
  · rintro ⟨payload, seed, ⟨small, rfl⟩, rfl⟩
    exact ⟨⟨payload, small⟩, rfl⟩
  · rintro ⟨⟨payload, small⟩, rfl⟩
    exact ⟨payload, _, ⟨small, rfl⟩, rfl⟩

/-- The context after compress clauses that have passed their checks. -/
def compressedAll (options : Options) (context : Context) (clauses : List CompressClause) :
    Context :=
  let named := nameResults context.aliases clauses
  ⟨named.1, named.2.getLast?.or context.lastCompress,
    context.entries ++ clauses.zipWith (Request.compressEntry options) named.2⟩

theorem getLast?_cons_or (name : String) (names : List String) (before : Option String) :
    (name :: names).getLast?.or before = names.getLast?.or (some name) := by
  rw [List.getLast?_cons]
  cases names.getLast? <;> rfl

theorem compressedAll_cons (context : Context) (clause : CompressClause)
    (rest : List CompressClause) :
    compressedAll options context (clause :: rest) =
      compressedAll options
        (compressed options context clause (Request.seedValue options clause.seed)) rest := by
  simp only [compressedAll, compressed, nameResults, getLast?_cons_or, List.zipWith_cons_cons,
    List.append_assoc, List.singleton_append]
  rfl

/-- The compress clauses of a request, carried out from any context. -/
theorem foldlM_compress_eq_ok {context next : Context} {clauses : List CompressClause}
    (digits : ∀ clause ∈ clauses, ∀ x ∈ clause.seed,
      x ≠ "" ∧ ∀ c ∈ x.toList, c.isDigit = true) :
    clauses.foldlM (compress options) context = .ok next ↔
      (∀ clause ∈ clauses, clause.payload ≠ "" ∧
        ∀ x ∈ clause.seed, Nat.ofDigitChars 10 x.toList 0 < UInt64.size) ∧
      next = compressedAll options context clauses := by
  induction clauses generalizing context with
  | nil =>
      have same : compressedAll options context [] = context := by
        simp [compressedAll, nameResults]
      rw [same, List.foldlM_nil, and_iff_right (List.forall_mem_nil _)]
      exact ⟨fun run => (Except.ok.inj run).symm, fun same => congrArg Except.ok same.symm⟩
  | cons clause rest ih =>
      obtain ⟨here, later⟩ := List.forall_mem_cons.1 digits
      rw [List.foldlM_cons, bind_eq_ok, List.forall_mem_cons, compressedAll_cons]
      simp only [compress_eq_ok_iff here, ih later]
      constructor
      · rintro ⟨middle, ⟨first, rfl⟩, others, rfl⟩
        exact ⟨⟨first, others⟩, rfl⟩
      · rintro ⟨⟨first, others⟩, rfl⟩
        exact ⟨_, ⟨first, rfl⟩, others, rfl⟩

variable {text : String} {request : Request}

/-- The context after the compare clause of a request, if there is one. -/
def comparedWith (request : Request) (context : Context) : Context :=
  match request.compare with
  | none => context
  | some pair =>
      ⟨(context.aliases.fresh "cmp").2.define (context.aliases.fresh "cmp").1,
        context.lastCompress,
        context.entries ++ [compareEntry pair.1 pair.2 (context.aliases.fresh "cmp").1]⟩

theorem Shows.perform_compare_eq_ok (h : Shows text request) {context next : Context} :
    perform options text context .compare = .ok next ↔
      (∀ pair ∈ request.compare,
        pair.1 ∈ context.aliases.defined ∧ pair.2 ∈ context.aliases.defined) ∧
      next = comparedWith request context := by
  rw [perform, h.compares, passed_eq_ok, compare_eq_ok, compared, h.compare, comparedWith]
  cases request.compare with
  | none => simp [eq_comm]
  | some pair =>
      by_cases first : pair.1 ∈ context.aliases.defined
      · by_cases second : pair.2 ∈ context.aliases.defined
        · simp [AliasTable.isDefined, first, second]
        · simp [AliasTable.isDefined, first, second]
      · simp [AliasTable.isDefined, first]

theorem Shows.perform_explain_eq_ok (h : Shows text request) {context next : Context} :
    perform options text context .explain = .ok next ↔
      (∀ target ∈ request.explain, target ∈ context.aliases.defined) ∧
      next = ⟨context.aliases, context.lastCompress,
        context.entries ++ (request.explain.map Request.explainEntry).toList⟩ := by
  rw [perform, h.explains, passed_eq_ok, explain_eq_ok, explained, h.explain]
  cases request.explain with
  | none =>
      simp only [Option.isSome_none, Option.map_none, Option.toList_none, List.append_nil]
      simpa using eq_comm
  | some target =>
      by_cases known : target ∈ context.aliases.defined
      · simp [AliasTable.isDefined, known, Context.addEntry]
        rfl
      · simp [AliasTable.isDefined, known]

/-- The context after the compress clauses and the compare clause of a request. -/
theorem comparedWith_compressedAll :
    comparedWith request (compressedAll options .empty request.compress) =
      ⟨request.compareTable, request.names.getLast?,
        request.compress.zipWith (Request.compressEntry options) request.names ++
          (request.compare.map request.compareEntry).toList⟩ := by
  have first : compressedAll options .empty request.compress =
      ⟨request.compressTable, request.names.getLast?,
        request.compress.zipWith (Request.compressEntry options) request.names⟩ := by
    rw [compressedAll, Context.empty, Option.or_none]
    rfl
  rw [first, comparedWith, Request.compareTable]
  cases request.compare with
  | none => simp
  | some pair => rfl

theorem mem_compressTable {name : String} :
    name ∈ request.compressTable.defined ↔ name ∈ request.names := by
  rw [Request.compressTable, mem_nameResults]
  exact or_iff_right (List.not_mem_nil)

theorem mem_compareTable {name : String} :
    name ∈ request.compareTable.defined ↔
      name ∈ request.names ∨ (request.compare.isSome ∧ name = request.compareName) := by
  rw [Request.compareTable]
  cases request.compare with
  | none => simp [mem_compressTable]
  | some pair =>
      rw [AliasTable.mem_define, Option.isSome_some, and_iff_right rfl, ← mem_compressTable]
      rfl

/-- Attesting adds at most one entry, and no name that can be referred to. -/
theorem attest_if (attested : Bool) (context : Context) :
    (if attested then attest context else context).entries =
        context.entries ++ (if attested then [attestEntry (context.lastCompress.getD "r1")
          (context.aliases.fresh "att").1] else []) ∧
      (if attested then attest context else context).aliases.defined =
        context.aliases.defined := by
  cases attested with
  | true => exact ⟨rfl, rfl⟩
  | false => exact ⟨(List.append_nil _).symm, rfl⟩

/-- A text is compiled just if its request is acceptable, and then into the plan of the request. -/
theorem Shows.compile_eq_ok (h : Shows text request)
    (digits : ∀ clause ∈ request.compress, ∀ x ∈ clause.seed,
      x ≠ "" ∧ ∀ c ∈ x.toList, c.isDigit = true) {plan : Plan} :
    compile options text = .ok plan ↔ request.Accepted ∧ plan = request.plan options := by
  have known : ∀ name, name ∈ (compressedAll options .empty request.compress).aliases.defined ↔
      name ∈ request.names := fun name => mem_compressTable
  obtain ⟨entries, defined⟩ := attest_if request.attest
    (comparedWith request (compressedAll options .empty request.compress))
  rw [comparedWith_compressedAll] at entries defined
  simp only [Command.compile_eq_ok, h.normal, ne_eq, h.empty, h.compress,
    foldlM_compress_eq_ok digits, h.perform_compare_eq_ok, h.perform_explain_eq_ok, h.attests]
  constructor
  · rintro ⟨nonempty, _, _, _, ⟨checks, rfl⟩, ⟨pairs, rfl⟩, ⟨targets, rfl⟩, rfl⟩
    rw [comparedWith_compressedAll] at targets ⊢
    simp only [known] at pairs
    simp only [defined, mem_compareTable] at targets
    refine ⟨⟨nonempty, fun clause mem => (checks clause mem).1,
      fun clause mem => (checks clause mem).2, pairs, targets⟩, ?_⟩
    rw [entries]
    rfl
  · rintro ⟨accepted, rfl⟩
    refine ⟨accepted.nonempty, _, _, _,
      ⟨fun clause mem => ⟨accepted.payload clause mem, accepted.seed clause mem⟩, rfl⟩,
      ⟨?_, rfl⟩, ⟨?_, rfl⟩, ?_⟩
    · simp only [known]
      exact accepted.compare
    · simp only [comparedWith_compressedAll, defined, mem_compareTable]
      exact accepted.explain
    · rw [comparedWith_compressedAll, entries]
      rfl

end

section
variable {clauses others : List Clause} {family : Family}

theorem eq_of_single (single : clauses.countP (·.family = family) ≤ 1) {clause other : Clause}
    (mem : clause ∈ clauses) (here : clause.family = family)
    (mem' : other ∈ clauses) (here' : other.family = family) : clause = other := by
  rw [List.countP_eq_length_filter] at single
  have found : clause ∈ clauses.filter (·.family = family) :=
    List.mem_filter.2 ⟨mem, decide_eq_true here⟩
  have found' : other ∈ clauses.filter (·.family = family) :=
    List.mem_filter.2 ⟨mem', decide_eq_true here'⟩
  obtain ⟨only, alone⟩ := List.length_eq_one_iff.1
    (Nat.le_antisymm single (List.length_pos_of_mem found))
  rw [alone, List.mem_singleton] at found found'
  rw [found, found']

/-- A clause that is alone in its family is found wherever it stands. -/
theorem findSome?_eq_some_iff_of_single {α : Type} {value : Clause → Option α}
    (single : clauses.countP (·.family = family) ≤ 1)
    (holds : ∀ clause, (value clause).isSome → clause.family = family) {a : α} :
    clauses.findSome? value = some a ↔ ∃ clause ∈ clauses, value clause = some a := by
  constructor
  · exact List.exists_of_findSome?_eq_some
  · rintro ⟨clause, mem, held⟩
    have some : (clauses.findSome? value).isSome :=
      List.findSome?_isSome_iff.2 ⟨clause, mem, Option.isSome_of_mem held⟩
    obtain ⟨b, found⟩ := Option.isSome_iff_exists.1 some
    obtain ⟨other, mem', held'⟩ := List.exists_of_findSome?_eq_some found
    have same := eq_of_single single mem (holds clause (Option.isSome_of_mem held)) mem'
      (holds other (Option.isSome_of_mem held'))
    rw [found, ← held', ← same, held]

/-- What clauses of a family that stands alone hold is the same in any other order. -/
theorem findSome?_congr {α : Type} {value : Clause → Option α} (searched : family ≠ .compress)
    (holds : ∀ clause, (value clause).isSome → clause.family = family)
    (h : IsCommand clauses) (h' : IsCommand others)
    (same : ∀ clause, clause.family ≠ .compress → (clause ∈ clauses ↔ clause ∈ others)) :
    clauses.findSome? value = others.findSome? value := by
  have inside : ∀ clause a, value clause = some a → (clause ∈ clauses ↔ clause ∈ others) := by
    intro clause a held
    apply same
    rw [holds clause (Option.isSome_of_mem held)]
    exact searched
  apply Option.ext
  intro a
  rw [findSome?_eq_some_iff_of_single (h.single family searched) holds,
    findSome?_eq_some_iff_of_single (h'.single family searched) holds]
  constructor
  · rintro ⟨clause, mem, held⟩
    exact ⟨clause, (inside clause a held).1 mem, held⟩
  · rintro ⟨clause, mem, held⟩
    exact ⟨clause, (inside clause a held).2 mem, held⟩

theorem request_congr (h : IsCommand clauses) (h' : IsCommand others)
    (compress : clauses.filterMap Clause.compress? = others.filterMap Clause.compress?)
    (same : ∀ clause, clause.family ≠ .compress → (clause ∈ clauses ↔ clause ∈ others)) :
    request clauses = request others := by
  have attest : clauses.any (·.family = .attest) = others.any (·.family = .attest) := by
    have alone : ∀ clause : Clause, clause.family = .attest ↔ clause = .attest := by
      intro clause
      cases clause <;> simp [Clause.family]
    rw [Bool.eq_iff_iff, List.any_eq_true, List.any_eq_true]
    simp [alone, same .attest (by decide)]
  have compare : clauses.findSome? Clause.pair? = others.findSome? Clause.pair? :=
    findSome?_congr (by decide) (fun clause => (Clause.isSome_pair? clause).1) h h' same
  have explain : clauses.findSome? Clause.target? = others.findSome? Clause.target? :=
    findSome?_congr (by decide) (fun clause => (Clause.isSome_target? clause).1) h h' same
  simp only [request, compress, compare, attest, explain]

end

theorem isDigit_of_mem_request {clauses : List Clause}
    (wellFormed : ∀ clause ∈ clauses, clause.WellFormed) :
    ∀ clause ∈ (request clauses).compress, ∀ x ∈ clause.seed,
      x ≠ "" ∧ ∀ c ∈ x.toList, c.isDigit = true := by
  intro clause mem
  obtain ⟨written, inside, held⟩ := List.mem_filterMap.1 mem
  cases written with
  | compress quote other =>
      cases held
      exact (wellFormed _ inside).2.2.2.1
  | _ => cases held

/-- Interleavings of the same clauses are compiled alike, errors included. A command is compiled
just if its request is acceptable, and then into the plan of the request. -/
theorem compile_interleaving (options : Options) {clauses others : List Clause}
    (h : IsCommand clauses) (h' : IsCommand others)
    (compress : clauses.filterMap Clause.compress? = others.filterMap Clause.compress?)
    (same : ∀ clause, clause.family ≠ .compress → (clause ∈ clauses ↔ clause ∈ others)) :
    compile options (spelled clauses) = compile options (spelled others) ∧
      ∀ plan, compile options (spelled clauses) = .ok plan ↔
        (request clauses).Accepted ∧ plan = (request clauses).plan options := by
  have here := shows_spelled h.wellFormed
  have there := shows_spelled h'.wellFormed
  rw [← request_congr h h' compress same] at there
  exact ⟨here.compile_congr there,
    fun plan => here.compile_eq_ok (isDigit_of_mem_request h.wellFormed)⟩

/-- References stand before what they refer to, and the second result has no name of its own. -/
def tangledClauses : List Clause :=
  [.explain "cmp", .compress '"' ⟨"p as q", some "007", some "x"⟩, .attest, .compare "x" "r",
    .compress '\'' ⟨" ", none, none⟩]

def sortedClauses : List Clause :=
  [.compress '\'' ⟨"p as q", some "007", some "x"⟩, .compress '\'' ⟨" ", none, none⟩,
    .compare "x" "r", .attest, .explain "cmp"]

theorem compile_tangledClauses :
    (IsCommand tangledClauses ∧ IsCommand sortedClauses ∧ (request tangledClauses).Accepted) ∧
      compile {} (spelled tangledClauses) = compile {} (spelled sortedClauses) ∧
      compile {} (spelled tangledClauses) = .ok ((request tangledClauses).plan {}) := by
  have tangled : IsCommand tangledClauses :=
    ⟨by decide +kernel, fun family => by cases family <;> decide⟩
  have sorted : IsCommand sortedClauses :=
    ⟨by decide +kernel, fun family => by cases family <;> decide⟩
  have accepted : (request tangledClauses).Accepted :=
    ⟨by decide, by decide, by decide, by decide, by decide⟩
  have same : ∀ clause, clause.family ≠ .compress →
      (clause ∈ tangledClauses ↔ clause ∈ sortedClauses) := by
    intro clause other
    cases clause <;> simp_all [tangledClauses, sortedClauses, Clause.family]
  have compiled := compile_interleaving {} tangled sorted (by decide) same
  exact ⟨⟨tangled, sorted, accepted⟩, compiled.1, (compiled.2 _).2 ⟨accepted, rfl⟩⟩

end PlainVerse.Command
