import PlainVerse.Proofs.Command.Interleaving
import PlainVerse.Proofs.Command.References
import PlainVerse.Proofs.Text.Number

/-!
# Commands that fail

A command fails just if one of its checks does, and it reports the first one that does: the text
must not be blank, then every compress clause from left to right must have a payload and a seed that
can be read, then the names to compare must be known, and last the name to explain. The names that
are known at each check are those of the compress results, given or generated, and in the end also
the one that is generated for the comparison.
-/
namespace PlainVerse.Command

open Plan (Op Entry)

/-- The keyword of a family occurs in a text. -/
def Mentions (text : String) (family : Family) : Prop := family.keyword.toList <:+: text.toList

theorem isPresent_iff {text : String} {family : Family} :
    family.isPresent text = true ↔ Mentions text family :=
  Text.occurs_iff_infix

instance (text : String) (family : Family) : Decidable (Mentions text family) :=
  decidable_of_iff _ isPresent_iff

/-- The payload of a clause is checked before its seed. -/
inductive CompressClause.Fails (clause : CompressClause) : CompileError → Prop
  | payload (empty : clause.payload = "") : Fails clause .emptyPayload
  | seed {digits : String} (given : clause.payload ≠ "") (found : clause.seed = some digits)
      (wrong : ¬ Text.IsWord64 digits.toList) : Fails clause (.invalidSeed digits)

/-- The names of the compress results of a text, as their clauses give them or as generated. -/
def resultNames (text : String) : List String := (nameResults .empty (compressClauses text)).2

/-- The name that is generated for the result of a comparison. -/
def comparisonName (text : String) : String :=
  ((nameResults .empty (compressClauses text)).1.fresh "cmp").1

/-- The first name of a pair is checked before the second one. Without a pair something must have
been compressed. -/
inductive CompareFails (text : String) : CompileError → Prop
  | first {a b : String} (mentioned : Mentions text .compare)
      (pair : comparePair? text = some (a, b)) (unknown : a ∉ resultNames text) :
      CompareFails text (.undefinedRef a)
  | second {a b : String} (mentioned : Mentions text .compare)
      (pair : comparePair? text = some (a, b)) (known : a ∈ resultNames text)
      (unknown : b ∉ resultNames text) : CompareFails text (.undefinedRef b)
  | alone (mentioned : Mentions text .compare) (single : comparePair? text = none)
      (none : compressClauses text = []) : CompareFails text (.undefinedRef "no_compress_found")

inductive ExplainFails (text : String) : CompileError → Prop
  | target {name : String} (mentioned : Mentions text .explain)
      (target : explainTarget? text = some name) (unknown : name ∉ resultNames text)
      (other : ¬ (Mentions text .compare ∧ name = comparisonName text)) :
      ExplainFails text (.undefinedRef name)

/-- The first check that a normalized text does not pass. -/
inductive FirstFailure (text : String) : CompileError → Prop
  | blank (empty : text = "") : FirstFailure text .emptyPayload
  | compress {error : CompileError} {before after : List CompressClause} {clause : CompressClause}
      (nonempty : text ≠ "") (split : compressClauses text = before ++ clause :: after)
      (earlier : ∀ other ∈ before, ∀ error, ¬ other.Fails error) (fails : clause.Fails error) :
      FirstFailure text error
  | compare {error : CompileError} (nonempty : text ≠ "")
      (compressed : ∀ clause ∈ compressClauses text, ∀ error, ¬ clause.Fails error)
      (fails : CompareFails text error) : FirstFailure text error
  | explain {error : CompileError} (nonempty : text ≠ "")
      (compressed : ∀ clause ∈ compressClauses text, ∀ error, ¬ clause.Fails error)
      (compared : ∀ error, ¬ CompareFails text error) (fails : ExplainFails text error) :
      FirstFailure text error

theorem bind_eq_error {ε α β : Type} {x : Except ε α} {f : α → Except ε β} {e : ε} :
    x >>= f = .error e ↔ x = .error e ∨ ∃ a, x = .ok a ∧ f a = .error e := by
  cases x with
  | error other =>
      constructor
      · intro h
        cases h
        exact Or.inl rfl
      · rintro (h | ⟨a, h, -⟩)
        · cases h
          rfl
        · cases h
  | ok a =>
      constructor
      · intro h
        exact Or.inr ⟨a, rfl, h⟩
      · rintro (h | ⟨a', h, hf⟩)
        · cases h
        · cases h
          exact hf

section
variable {options : Options} {context next : Context} {error : CompileError}

theorem seedOf_eq_error {seed : Option String} : seedOf options seed = .error error ↔
    ∃ digits, seed = some digits ∧ ¬ Text.IsWord64 digits.toList ∧
      error = .invalidSeed digits := by
  cases seed with
  | none => simp [seedOf]
  | some digits =>
      rw [seedOf]
      cases value : Text.word64? digits.toList with
      | some seed =>
          have right := (Text.word64?_eq_some.1 value).1
          simp [right]
      | none =>
          have wrong := Text.word64?_eq_none.1 value
          simp [wrong, eq_comm]

/-- Whether a clause fails does not depend on what has been compressed before it. -/
theorem compress_eq_error {clause : CompressClause} :
    compress options context clause = .error error ↔ clause.Fails error := by
  unfold compress
  by_cases empty : clause.payload = ""
  · rw [if_pos empty]
    constructor
    · intro h
      cases h
      exact .payload empty
    · intro fails
      cases fails with
      | payload => rfl
      | seed given => exact absurd empty given
  · rw [if_neg empty]
    change (seedOf options clause.seed >>= fun seed =>
      Except.ok (compressed options context clause seed)) = .error error ↔ _
    rw [bind_eq_error, seedOf_eq_error]
    constructor
    · rintro (⟨digits, found, wrong, rfl⟩ | ⟨seed, -, h⟩)
      · exact .seed empty found wrong
      · cases h
    · intro fails
      cases fails with
      | payload given => exact absurd given empty
      | seed _ found wrong => exact Or.inl ⟨_, found, wrong, rfl⟩

theorem not_fails_of_compress {clause : CompressClause}
    (run : compress options context clause = .ok next) (error : CompileError) :
    ¬ clause.Fails error := by
  intro fails
  rw [compress_eq_error.2 fails] at run
  cases run

theorem foldlM_compress_eq_error {clauses : List CompressClause} :
    clauses.foldlM (compress options) context = .error error ↔
      ∃ before clause after, clauses = before ++ clause :: after ∧
        (∀ other ∈ before, ∀ error, ¬ other.Fails error) ∧ clause.Fails error := by
  induction clauses generalizing context with
  | nil =>
      refine iff_of_false (by simp [pure, Except.pure]) ?_
      rintro ⟨before, clause, after, split, -⟩
      exact absurd split.symm (by simp)
  | cons first rest ih =>
      rw [List.foldlM_cons, bind_eq_error, compress_eq_error]
      constructor
      · rintro (fails | ⟨middle, passed, later⟩)
        · exact ⟨[], first, rest, rfl, List.forall_mem_nil _, fails⟩
        · obtain ⟨before, clause, after, rfl, earlier, fails⟩ := ih.1 later
          exact ⟨first :: before, clause, after, rfl,
            List.forall_mem_cons.2 ⟨not_fails_of_compress passed, earlier⟩, fails⟩
      · rintro ⟨before, clause, after, split, earlier, fails⟩
        cases before with
        | nil =>
            cases split
            exact Or.inl fails
        | cons other before =>
            cases split
            obtain ⟨here, earlier⟩ := List.forall_mem_cons.1 earlier
            cases passed : compress options context first with
            | error e => exact absurd (compress_eq_error.1 passed) (here e)
            | ok middle =>
                refine Or.inr ⟨middle, rfl, ih.2 ?_⟩
                exact ⟨before, clause, after, rfl, earlier, fails⟩

/-- What the compress clauses leave behind, once they have passed their checks. -/
theorem foldlM_compress_ok {clauses : List CompressClause}
    (run : clauses.foldlM (compress options) context = .ok next) :
    (∀ clause ∈ clauses, ∀ error, ¬ clause.Fails error) ∧
      next.aliases = (nameResults context.aliases clauses).1 ∧
      next.lastCompress = (nameResults context.aliases clauses).2.getLast?.or context.lastCompress ∧
      next.entries.map Entry.op =
        context.entries.map Entry.op ++ List.replicate clauses.length .compress := by
  induction clauses generalizing context with
  | nil =>
      cases run
      simp [nameResults]
  | cons clause rest ih =>
      rw [List.foldlM_cons, bind_eq_ok] at run
      obtain ⟨middle, first, run⟩ := run
      have sound := not_fails_of_compress first
      obtain ⟨-, seed, -, rfl⟩ := compress_eq_ok.1 first
      obtain ⟨others, aliases, last, ops⟩ := ih run
      refine ⟨List.forall_mem_cons.2 ⟨sound, others⟩, aliases, ?_, ?_⟩
      · rw [last, nameResults, getLast?_cons_or]
        rfl
      · rw [ops, compressed, List.map_append, List.length_cons, List.replicate_succ,
          List.append_assoc]
        rfl

end

/-- What the later passes can see of the compress results of a text. -/
structure Named (text : String) (context : Context) : Prop where
  defined : ∀ name, name ∈ context.aliases.defined ↔ name ∈ resultNames text
  next : (context.aliases.fresh "cmp").1 = comparisonName text
  last : context.lastCompress = none ↔ compressClauses text = []

section
variable {options : Options} {text : String} {context next : Context} {error : CompileError}

theorem length_nameResults (table : AliasTable) (clauses : List CompressClause) :
    (nameResults table clauses).2.length = clauses.length := by
  induction clauses generalizing table with
  | nil => rfl
  | cons clause rest ih => rw [nameResults, List.length_cons, List.length_cons, ih]

theorem named_of_compress
    (run : (compressClauses text).foldlM (compress options) .empty = .ok context) :
    Named text context := by
  obtain ⟨-, aliases, last, -⟩ := foldlM_compress_ok run
  refine ⟨fun name => ?_, ?_, ?_⟩
  · rw [aliases, mem_nameResults]
    exact or_iff_right List.not_mem_nil
  · rw [aliases]
    rfl
  · have length := length_nameResults .empty (compressClauses text)
    rw [last]
    change (resultNames text).getLast?.or none = none ↔ _
    rw [Option.or_none, List.getLast?_eq_none_iff, ← List.length_eq_zero_iff,
      ← List.length_eq_zero_iff, ← length]
    rfl

theorem Named.isDefined (h : Named text context) (name : String) :
    context.aliases.isDefined name = decide (name ∈ resultNames text) :=
  decide_eq_decide.2 (h.defined name)

theorem compareFails_pair {a b : String} (mentioned : Mentions text .compare)
    (pair : comparePair? text = some (a, b)) :
    CompareFails text error ↔
      (a ∉ resultNames text ∧ .undefinedRef a = error) ∨
        (a ∈ resultNames text ∧ b ∉ resultNames text ∧ .undefinedRef b = error) := by
  constructor
  · intro fails
    cases fails with
    | first _ found unknown =>
        obtain ⟨rfl, rfl⟩ := Prod.mk.inj (Option.some.inj (pair.symm.trans found))
        exact Or.inl ⟨unknown, rfl⟩
    | second _ found known unknown =>
        obtain ⟨rfl, rfl⟩ := Prod.mk.inj (Option.some.inj (pair.symm.trans found))
        exact Or.inr ⟨known, unknown, rfl⟩
    | alone _ single => exact absurd (pair.symm.trans single) (by simp)
  · rintro (⟨unknown, rfl⟩ | ⟨known, unknown, rfl⟩)
    · exact .first mentioned pair unknown
    · exact .second mentioned pair known unknown

theorem compareFails_alone (mentioned : Mentions text .compare)
    (single : comparePair? text = none) :
    CompareFails text error ↔
      compressClauses text = [] ∧ .undefinedRef "no_compress_found" = error := by
  constructor
  · intro fails
    cases fails with
    | first _ found => exact absurd (single.symm.trans found) (by simp)
    | second _ found => exact absurd (single.symm.trans found) (by simp)
    | alone _ _ none => exact ⟨none, rfl⟩
  · rintro ⟨none, rfl⟩
    exact .alone mentioned single none

theorem Named.compared_eq_error (h : Named text context) (mentioned : Mentions text .compare) :
    compared context text = .error error ↔ CompareFails text error := by
  unfold compared
  cases pair : comparePair? text with
  | some names =>
      obtain ⟨a, b⟩ := names
      rw [compareFails_pair mentioned pair]
      by_cases first : a ∈ resultNames text
      · by_cases second : b ∈ resultNames text
        · simp [h.isDefined, first, second]
        · simp [h.isDefined, first, second]
      · simp [h.isDefined, first]
  | none =>
      rw [compareFails_alone mentioned pair, ← h.last]
      cases context.lastCompress <;> simp

/-- A pass that fails is one whose keyword occurs. -/
theorem passed_eq_error {present : Bool} {run : Except CompileError Context} :
    (if present then run else .ok context) = .error error ↔
      present = true ∧ run = .error error := by
  cases present <;> simp

theorem CompareFails.mentions (fails : CompareFails text error) : Mentions text .compare := by
  cases fails <;> assumption

theorem Named.compare_eq_error (h : Named text context) :
    perform options text context .compare = .error error ↔ CompareFails text error := by
  have stops : compare context text = .error error ↔ compared context text = .error error := by
    unfold compare
    rw [bind_eq_error]
    exact or_iff_left fun ⟨_, _, h⟩ => nomatch h
  rw [perform, passed_eq_error, stops, isPresent_iff]
  constructor
  · rintro ⟨mentioned, fails⟩
    exact (h.compared_eq_error mentioned).1 fails
  · intro fails
    exact ⟨fails.mentions, (h.compared_eq_error fails.mentions).2 fails⟩

/-- What the compare pass leaves behind, once it has passed its checks. -/
theorem Named.compare_ok (h : Named text context)
    (run : perform options text context .compare = .ok next) :
    (∀ name, name ∈ next.aliases.defined ↔
      name ∈ resultNames text ∨ (Mentions text .compare ∧ name = comparisonName text)) ∧
    next.entries.map Entry.op =
      context.entries.map Entry.op ++ (if Mentions text .compare then [.compare] else []) := by
  rw [perform, passed_eq_ok] at run
  rcases run with ⟨present, ran⟩ | ⟨absent, rfl⟩
  · have mentioned := isPresent_iff.1 present
    obtain ⟨pair, -, rfl⟩ := compare_eq_ok.1 ran
    rw [if_pos mentioned, List.map_append]
    refine ⟨fun name => ?_, rfl⟩
    rw [AliasTable.mem_define, and_iff_right mentioned, ← h.next, ← h.defined]
    rfl
  · have silent : ¬ Mentions text .compare := by
      rw [← isPresent_iff, absent]
      exact Bool.false_ne_true
    rw [if_neg silent, List.append_nil]
    exact ⟨fun name => by simp [h.defined, silent], rfl⟩

theorem explain_eq_error
    (known : ∀ name, name ∈ context.aliases.defined ↔
      name ∈ resultNames text ∨ (Mentions text .compare ∧ name = comparisonName text)) :
    perform options text context .explain = .error error ↔ ExplainFails text error := by
  have stops : explain context text = .error error ↔ explained context text = .error error := by
    unfold explain
    rw [bind_eq_error]
    exact or_iff_left fun ⟨_, _, h⟩ => nomatch h
  rw [perform, passed_eq_error, stops, isPresent_iff]
  constructor
  · rintro ⟨mentioned, fails⟩
    unfold explained at fails
    cases target : explainTarget? text with
    | none =>
        rw [target] at fails
        cases fails
    | some name =>
        rw [target] at fails
        by_cases defined : name ∈ context.aliases.defined
        · simp [AliasTable.isDefined, defined] at fails
        · obtain rfl : CompileError.undefinedRef name = error := by
            simpa [AliasTable.isDefined, defined] using fails
          have unknown := mt (known name).2 defined
          exact .target mentioned target (fun mem => unknown (Or.inl mem))
            fun compared => unknown (Or.inr compared)
  · intro fails
    cases fails with
    | target mentioned target unknown other =>
        have undefined := mt (known _).1 (not_or.2 ⟨unknown, other⟩)
        refine ⟨mentioned, ?_⟩
        rw [explained, target]
        simp [AliasTable.isDefined, undefined]

theorem explain_ok (run : perform options text context .explain = .ok next) :
    next.entries.map Entry.op =
      context.entries.map Entry.op ++ (if Mentions text .explain then [.explain] else []) := by
  rw [perform, passed_eq_ok] at run
  rcases run with ⟨present, ran⟩ | ⟨absent, rfl⟩
  · obtain ⟨target, -, rfl⟩ := explain_eq_ok.1 ran
    rw [if_pos (isPresent_iff.1 present), Context.addEntry, List.map_append]
    rfl
  · have silent : ¬ Mentions text .explain := by
      rw [← isPresent_iff, absent]
      exact Bool.false_ne_true
    rw [if_neg silent, List.append_nil]

end

/-- A command fails in the pass whose check fails first. -/
theorem compile_eq_error {options : Options} {text : String} {error : CompileError} :
    compile options text = .error error ↔
      (normalize text = "" ∧ error = .emptyPayload) ∨
      (normalize text ≠ "" ∧
        ((compressClauses (normalize text)).foldlM (compress options) .empty = .error error ∨
        ∃ afterCompress,
          (compressClauses (normalize text)).foldlM (compress options) .empty =
            .ok afterCompress ∧
          (perform options (normalize text) afterCompress .compare = .error error ∨
          ∃ afterCompare,
            perform options (normalize text) afterCompress .compare = .ok afterCompare ∧
            perform options (normalize text)
              (if Family.attest.isPresent (normalize text) then attest afterCompare
                else afterCompare) .explain = .error error))) := by
  by_cases empty : normalize text = ""
  · have fails : compile options text = .error .emptyPayload := by
      simp [compile, empty, throw, throwThe, MonadExceptOf.throw, bind, Except.bind]
    rw [fails]
    constructor
    · intro h
      cases h
      exact Or.inl ⟨empty, rfl⟩
    · rintro (⟨-, rfl⟩ | ⟨nonempty, -⟩)
      · rfl
      · exact absurd empty nonempty
  · have done : ∀ {α : Type} (a : α), (pure a : Except CompileError α) = .error error ↔ False :=
      fun a => iff_of_false (fun h => nomatch h) id
    unfold compile
    simp only [empty, if_false, Family.all, List.foldlM_cons, List.foldlM_nil, bind_eq_error, done,
      perform_attest, reduceCtorEq, Except.ok.injEq, exists_eq_left', and_false, exists_false,
      or_false, false_or, false_and, ne_eq, not_false_eq_true, true_and]
    rfl

section
variable {options : Options} {text : String} {error : CompileError}

/-- Clauses that do not fail are all carried out. -/
theorem exists_compressed (options : Options) (context : Context)
    {clauses : List CompressClause} (sound : ∀ clause ∈ clauses, ∀ error, ¬ clause.Fails error) :
    ∃ next, clauses.foldlM (compress options) context = .ok next := by
  cases run : clauses.foldlM (compress options) context with
  | ok next => exact ⟨next, rfl⟩
  | error error =>
      obtain ⟨before, clause, after, rfl, -, fails⟩ := foldlM_compress_eq_error.1 run
      exact absurd fails (sound clause (by simp) error)

/-- The names that can be explained. Attesting adds none. -/
theorem Named.mem_attested {context next : Context} (h : Named text context)
    (run : perform options text context .compare = .ok next) (name : String) :
    name ∈ (if Family.attest.isPresent text then attest next else next).aliases.defined ↔
      name ∈ resultNames text ∨ (Mentions text .compare ∧ name = comparisonName text) := by
  rw [(attest_if (Family.attest.isPresent text) next).2]
  exact (h.compare_ok run).1 name

theorem firstFailure_of_compile (h : compile options text = .error error) :
    FirstFailure (normalize text) error := by
  rcases compile_eq_error.1 h with
    ⟨empty, rfl⟩ | ⟨nonempty, fails | ⟨first, ran, fails | ⟨second, ran', fails⟩⟩⟩
  · exact .blank empty
  · obtain ⟨before, clause, after, split, earlier, fails⟩ := foldlM_compress_eq_error.1 fails
    exact .compress nonempty split earlier fails
  · exact .compare nonempty (foldlM_compress_ok ran).1
      ((named_of_compress ran).compare_eq_error.1 fails)
  · have named := named_of_compress ran
    refine .explain nonempty (foldlM_compress_ok ran).1 ?_
      ((explain_eq_error (named.mem_attested ran')).1 fails)
    intro error fails'
    rw [named.compare_eq_error.2 fails'] at ran'
    cases ran'

theorem compile_of_firstFailure (h : FirstFailure (normalize text) error) :
    compile options text = .error error := by
  rw [compile_eq_error]
  cases h with
  | blank empty => exact Or.inl ⟨empty, rfl⟩
  | compress nonempty split earlier fails =>
      exact Or.inr ⟨nonempty, Or.inl (foldlM_compress_eq_error.2 ⟨_, _, _, split, earlier, fails⟩)⟩
  | compare nonempty compressed fails =>
      obtain ⟨first, ran⟩ := exists_compressed options .empty compressed
      exact Or.inr ⟨nonempty, Or.inr ⟨first, ran,
        Or.inl ((named_of_compress ran).compare_eq_error.2 fails)⟩⟩
  | explain nonempty compressed compared fails =>
      obtain ⟨first, ran⟩ := exists_compressed options .empty compressed
      have named := named_of_compress ran
      refine Or.inr ⟨nonempty, Or.inr ⟨first, ran, Or.inr ?_⟩⟩
      cases ran' : perform options (normalize text) first .compare with
      | error e => exact absurd (named.compare_eq_error.1 ran') (compared e)
      | ok second =>
          exact ⟨second, rfl, (explain_eq_error (named.mem_attested ran')).2 fails⟩

/-- The operations of a compiled plan. -/
theorem ops_of_compile {plan : Plan} (h : compile options text = .ok plan) :
    plan.entries.map Entry.op =
      List.replicate (compressClauses (normalize text)).length .compress ++
        (if Mentions (normalize text) .compare then [.compare] else []) ++
        (if Mentions (normalize text) .attest then [.attest] else []) ++
        (if Mentions (normalize text) .explain then [.explain] else []) := by
  obtain ⟨-, first, second, final, ran, ran', ran'', rfl⟩ := compile_eq_ok.1 h
  obtain ⟨-, -, -, compressed⟩ := foldlM_compress_ok ran
  obtain ⟨-, compared⟩ := (named_of_compress ran).compare_ok ran'
  have attested := congrArg (List.map Entry.op)
    (attest_if (Family.attest.isPresent (normalize text)) second).1
  have explained := explain_ok ran''
  rw [attested, List.map_append, compared, compressed] at explained
  change final.entries.map Entry.op = _
  rw [explained]
  simp only [← isPresent_iff]
  cases Family.attest.isPresent (normalize text) <;> rfl

end

/-- A command fails just if a check fails, and with the error of the first check that does.
Otherwise it is compiled into one entry for each compress clause, followed by one entry for each of
the other families whose keyword occurs. -/
theorem compile_fails_iff (options : Options) (text : String) :
    (∀ error, compile options text = .error error ↔ FirstFailure (normalize text) error) ∧
    ((∀ error, ¬ FirstFailure (normalize text) error) →
      ∃ plan, compile options text = .ok plan ∧
        plan.entries.map Entry.op =
          List.replicate (compressClauses (normalize text)).length .compress ++
            (if Mentions (normalize text) .compare then [.compare] else []) ++
            (if Mentions (normalize text) .attest then [.attest] else []) ++
            (if Mentions (normalize text) .explain then [.explain] else [])) := by
  refine ⟨fun error => ⟨firstFailure_of_compile, compile_of_firstFailure⟩, fun passes => ?_⟩
  cases run : compile options text with
  | error error => exact absurd (firstFailure_of_compile run) (passes error)
  | ok plan => exact ⟨plan, rfl, ops_of_compile run⟩

/-- The second name to compare is not known yet, and the name to explain is never looked at. -/
def earlyCommand : String := "explain it compare r with cmp compress payload 'a'"

/-- The same with a known name to compare, and with the result of the comparison to explain. -/
def repairedCommand : String := "explain cmp compare r with r compress payload 'a'"

theorem compile_earlyCommand :
    (FirstFailure (normalize earlyCommand) (.undefinedRef "cmp") ∧
      compile {} earlyCommand = .error (.undefinedRef "cmp")) ∧
    (∀ error, ¬ FirstFailure (normalize repairedCommand) error) ∧
      ∃ plan, compile {} repairedCommand = .ok plan ∧
        plan.entries.map Entry.op = [.compress, .compare, .explain] := by
  have normal : normalize earlyCommand = earlyCommand := by decide +kernel
  have clauses : compressClauses earlyCommand = [⟨"a", none, none⟩] := by decide +kernel
  have fails : FirstFailure (normalize earlyCommand) (.undefinedRef "cmp") := by
    rw [normal]
    refine .compare (by decide) ?_ (.second (by decide +kernel)
      (by decide +kernel : _ = some ("r", "cmp")) (by decide +kernel) (by decide +kernel))
    intro clause mem error wrong
    rw [clauses, List.mem_singleton] at mem
    subst mem
    cases wrong with
    | payload empty => exact absurd empty (by decide)
    | seed _ found => cases found
  obtain ⟨plan, run, -⟩ : ∃ plan, compile {} repairedCommand = .ok plan ∧
      plan.entries.map Entry.op = [.compress, .compare, .explain] :=
    exists_plan_of_ops (by decide +kernel)
  have passes : ∀ error, ¬ FirstFailure (normalize repairedCommand) error := by
    intro error failure
    rw [((compile_fails_iff {} repairedCommand).1 error).2 failure] at run
    cases run
  obtain ⟨plan', run', ops⟩ := (compile_fails_iff {} repairedCommand).2 passes
  refine ⟨⟨fails, ((compile_fails_iff {} earlyCommand).1 _).2 fails⟩, passes, plan', run', ?_⟩
  rw [ops]
  decide +kernel

end PlainVerse.Command
