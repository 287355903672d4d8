import PlainVerse.Proofs.Command.Passes
import PlainVerse.Proofs.Plan.RoundTrip
import PlainVerse.Proofs.Step.RoundTrip

/-!
# The outcome of a command in JSON

A compiled plan holds only texts and 64-bit numbers as parameters and is four levels deep, so it is
read back from the text that stands for the outcome. The object that holds an error is no plan.
-/
namespace PlainVerse

open Json (NoFloat IsFree)

namespace Command

open Plan (Entry)

section
variable {options : Options} {p : Entry → Prop}
  (compress : ∀ payload seed name, p (compressEntry options payload seed name))
  (compare : ∀ a b name, p (compareEntry a b name))
  (attest : ∀ artifact name, p (attestEntry artifact name))
  (explain : ∀ target, p (explainEntry target))

include compress in
theorem forall_entries_compress {clauses : List CompressClause} {context next : Context}
    (start : ∀ entry ∈ context.entries, p entry)
    (run : clauses.foldlM (Command.compress options) context = .ok next) :
    ∀ entry ∈ next.entries, p entry := by
  induction clauses generalizing context with
  | nil =>
      obtain rfl : context = next := Except.ok.inj run
      exact start
  | cons clause rest ih =>
      rw [List.foldlM_cons, bind_eq_ok] at run
      obtain ⟨middle, first, run⟩ := run
      obtain ⟨-, seed, -, rfl⟩ := compress_eq_ok.1 first
      exact ih (List.forall_mem_append.2
        ⟨start, List.forall_mem_singleton.2 (compress _ _ _)⟩) run

include compress compare attest explain in
/-- What holds of the entries of all four kinds holds of every entry of a compiled plan. -/
theorem forall_entries_compile {text : String} {plan : Plan}
    (run : compile options text = .ok plan) : ∀ entry ∈ plan.entries, p entry := by
  obtain ⟨-, first, second, final, hcompress, hcompare, hexplain, rfl⟩ := compile_eq_ok.1 run
  have afterCompress := forall_entries_compress compress (List.forall_mem_nil _) hcompress
  rw [perform, passed_eq_ok] at hcompare
  rw [perform, passed_eq_ok] at hexplain
  have afterCompare : ∀ entry ∈ second.entries, p entry := by
    rcases hcompare with ⟨-, ran⟩ | ⟨-, rfl⟩
    · obtain ⟨pair, -, rfl⟩ := compare_eq_ok.1 ran
      exact List.forall_mem_append.2
        ⟨afterCompress, List.forall_mem_singleton.2 (compare _ _ _)⟩
    · exact afterCompress
  have afterAttest : ∀ entry ∈ (if Family.attest.isPresent (normalize text) then
      Command.attest second else second).entries, p entry := by
    split
    · exact List.forall_mem_append.2 ⟨afterCompare, List.forall_mem_singleton.2 (attest _ _)⟩
    · exact afterCompare
  generalize (if Family.attest.isPresent (normalize text) then Command.attest second else second) =
    attested at hexplain afterAttest
  rcases hexplain with ⟨-, ran⟩ | ⟨-, rfl⟩
  · obtain ⟨target, -, rfl⟩ := explain_eq_ok.1 ran
    exact List.forall_mem_append.2 ⟨afterAttest, List.forall_mem_singleton.2 (explain _)⟩
  · exact afterAttest

end

/-- A text or a number of 64 bits. -/
structure IsScalar (json : Json) : Prop where
  free : json.IsFree
  exactly : json.All NoFloat
  flat : json.depth = 0

theorem isScalar_string (s : String) : IsScalar (.string s) where
  free := Json.isFree_scalar rfl trivial trivial
  exactly := Json.noFloat_string s
  flat := rfl

theorem isScalar_ofNat (n : UInt64) : IsScalar (.ofNat n.toNat) where
  free := Json.isFree_scalar rfl (Json.fits_ofNat n.toNat_lt) trivial
  exactly := List.forall_mem_singleton.2 trivial
  flat := rfl

theorem isScalar_of_compile {options : Options} {text : String} {plan : Plan}
    (run : compile options text = .ok plan) :
    ∀ entry ∈ plan.entries, ∀ json ∈ entry.freeValues, IsScalar json := by
  refine forall_entries_compile (p := fun entry => ∀ json ∈ entry.freeValues, IsScalar json)
    ?_ ?_ ?_ ?_ run
  · intro payload seed name
    have values : (compressEntry options payload seed name).freeValues =
        [.string options.codec, .ofNat seed.toNat] := rfl
    rw [values, List.forall_mem_cons, List.forall_mem_singleton]
    exact ⟨isScalar_string _, isScalar_ofNat _⟩
  · exact fun _ _ _ => List.forall_mem_nil _
  · exact fun _ _ => List.forall_mem_nil _
  · exact fun _ => List.forall_mem_nil _

theorem depth_of_isScalar {plan : Plan}
    (scalar : ∀ entry ∈ plan.entries, ∀ json ∈ entry.freeValues, IsScalar json) :
    plan.toJson.depth ≤ 4 := by
  rw [Plan.toJson, Json.depth_object_le, List.forall_mem_cons, List.forall_mem_singleton,
    Json.depth_array_le, List.forall_mem_map]
  refine ⟨Nat.zero_le _, ?_⟩
  intro entry mem
  rw [Plan.Entry.toJson_eq_object, Json.depth_object_le]
  refine (Plan.Entry.forall_members (p := (·.depth ≤ 1))).2
    ⟨Nat.zero_le _, Nat.le_of_eq (Json.depth_textMap _), ?_, fun _ _ => Nat.zero_le _⟩
  intro params given
  rw [Json.depth_object_le]
  intro member inside
  have flat := (Plan.Entry.forall_freeValues.1 (scalar entry mem) params given member inside).flat
  exact Nat.le_of_eq flat

/-- A compiled plan is read back from its text. -/
theorem ofText?_of_compile {options : Options} {text : String} {plan : Plan}
    (run : compile options text = .ok plan) {layout : Json.Layout} (blank : layout.Blank) :
    Plan.ofText? (plan.toJson.render layout) = some plan := by
  have scalar := isScalar_of_compile run
  have shallow : plan.toJson.depth ≤ Json.depthLimit :=
    Nat.le_trans (depth_of_isScalar scalar) (by decide)
  exact Plan.ofText?_render blank
    (Plan.forall_freeValues.2 fun entry mem json inside => (scalar entry mem json inside).free)
    (Plan.forall_freeValues.2 fun entry mem json inside => (scalar entry mem json inside).exactly)
    shallow

/-- The object that holds an error has no member of a plan. -/
theorem ofText?_error (error : CompileError) {layout : Json.Layout} (blank : layout.Blank) :
    Plan.ofText? (error.toJson.render layout) = none := by
  have exactly : error.toJson.All NoFloat := by
    rw [CompileError.toJson, Json.all_object, List.forall_mem_singleton]
    exact ⟨trivial, Json.noFloat_string _⟩
  have distinct : ([("error", Json.string error.message)].map Prod.fst).Nodup := by simp
  have missing : [("error", Json.string error.message)].lookup "version" = none := rfl
  rw [Plan.ofText?, Json.Reader.run_render blank exactly, CompileError.toJson, Plan.read,
    Json.depthLimit, Json.Record.ofNamed?_written]
  simp only [Option.bind_eq_bind, Option.bind_some, Json.Record.required_eq_none distinct missing,
    Option.bind_none]

/-- The outcome of a command is read as a plan just if it is that plan. -/
theorem ofText?_compileText {text : String} {plan : Plan} :
    Plan.ofText? (compileText text) = some plan ↔ compile {} text = .ok plan := by
  rw [compileText, Json.pretty]
  cases run : compile {} text with
  | ok compiled =>
      rw [outcome, ofText?_of_compile run Json.Layout.blank_pretty]
      simp
  | error error =>
      rw [outcome, ofText?_error error Json.Layout.blank_pretty]
      simp

end Command

/-- Plans and step programs whose free values hold no floating-point number are read back from both
of their written forms, and so is whatever has been read from a text. That a value is free says
that the members of its objects are sorted and its integers have 64 bits. The outcome of a command
is read as a plan just if the command has been compiled into it. -/
theorem plan_and_steps_round_trip :
    (∀ plan : Plan, (∀ json ∈ plan.freeValues, json.IsFree ∧ json.All NoFloat) →
      plan.toJson.depth ≤ 127 → Json.ReadsBack Plan.ofText? plan.toJson plan) ∧
    (∀ program : StepProgram, (∀ json ∈ program.freeValues, json.IsFree ∧ json.All NoFloat) →
      program.toJson.depth ≤ 127 →
        Json.ReadsBack StepProgram.ofText? program.toJson program) ∧
    (∀ (text : String) (plan : Plan), Plan.ofText? text = some plan →
      (∀ json ∈ plan.freeValues, json.All NoFloat) →
        Json.ReadsBack Plan.ofText? plan.toJson plan) ∧
    (∀ (text : String) (program : StepProgram), StepProgram.ofText? text = some program →
      (∀ json ∈ program.freeValues, json.All NoFloat) →
        Json.ReadsBack StepProgram.ofText? program.toJson program) ∧
    (∀ (text : String) (plan : Plan),
      Plan.ofText? (Command.compileText text) = some plan ↔ Command.compile {} text = .ok plan) ∧
    ∀ error : Command.CompileError,
      Plan.ofText? error.toJson.compact = none ∧ Plan.ofText? error.toJson.pretty = none := by
  refine ⟨?_, ?_, ?_, ?_, fun _ _ => Command.ofText?_compileText, fun error =>
    ⟨Command.ofText?_error error Json.Layout.blank_compact,
      Command.ofText?_error error Json.Layout.blank_pretty⟩⟩
  · intro plan values shallow
    exact Json.readsBack_of_render fun blank => Plan.ofText?_render blank
      (fun json mem => (values json mem).1) (fun json mem => (values json mem).2) shallow
  · intro program values shallow
    exact Json.readsBack_of_render fun blank => StepProgram.ofText?_render blank
      (fun json mem => (values json mem).1) (fun json mem => (values json mem).2) shallow
  · intro text plan read exactly
    obtain ⟨free, shallow⟩ := Plan.isFree_of_ofText? read
    exact Json.readsBack_of_render fun blank => Plan.ofText?_render blank free exactly shallow
  · intro text program read exactly
    obtain ⟨free, shallow⟩ := StepProgram.isFree_of_ofText? read
    exact Json.readsBack_of_render fun blank =>
      StepProgram.ofText?_render blank free exactly shallow

/-- Nested parameters with the extreme integers, and an entry with an empty map of them. -/
def nestedPlan : Plan :=
  ⟨"0.1",
    [⟨.compress, .ofList [("payload", "utf8:\"\\\n\x01é")],
      some (.ofList [
        ("use", .object [("a", .array [.number (.int (-9223372036854775808)), .null]), ("b", .bool true)]),
        ("seed", .number (.int 18446744073709551615))]), none⟩,
    ⟨.explain, .empty, some .empty, some "x"⟩]⟩

/-- A plan by position. One entry has its members in another order and null for its parameters, the
other one is given by position too. -/
def loosePlan : Json :=
  .array [.string "1", .array [
    .object [("params", .null), ("in", .object []), ("op", .string "attest")],
    .array [.string "explain", .object []]]]

def tightPlan : Plan := ⟨"1", [.ofOp .attest, .ofOp .explain]⟩

/-- Arguments whose order is kept, with an object inside them whose members get sorted. -/
def looseSteps : Json :=
  .object [("steps", .array [.array [.string "k", .object [("b", .ofNat 1),
    ("a", .object [("y", .null), ("x", .bool true)])]]])]

def tightSteps : StepProgram :=
  ⟨[⟨"k", .ofList [("b", .ofNat 1), ("a", .object [("x", .bool true), ("y", .null)])]⟩]⟩

theorem nestedPlan_round_trip :
    ((∀ json ∈ nestedPlan.freeValues, json.IsFree ∧ json.All NoFloat) ∧
      nestedPlan.toJson.depth ≤ 127 ∧ Json.ReadsBack Plan.ofText? nestedPlan.toJson nestedPlan) ∧
    ((∀ json ∈ tightSteps.freeValues, json.IsFree ∧ json.All NoFloat) ∧
      tightSteps.toJson.depth ≤ 127 ∧
      Json.ReadsBack StepProgram.ofText? tightSteps.toJson tightSteps) ∧
    (Plan.ofText? loosePlan.compact = some tightPlan ∧
      Json.ReadsBack Plan.ofText? tightPlan.toJson tightPlan) ∧
    (StepProgram.ofText? looseSteps.compact = some tightSteps ∧
      Json.ReadsBack StepProgram.ofText? tightSteps.toJson tightSteps) := by
  have values : ∀ json ∈ nestedPlan.freeValues, json.IsFree ∧ json.All NoFloat := by
    decide +kernel
  have shallow : nestedPlan.toJson.depth ≤ 127 := by decide
  have stepValues : ∀ json ∈ tightSteps.freeValues, json.IsFree ∧ json.All NoFloat := by
    decide +kernel
  have stepShallow : tightSteps.toJson.depth ≤ 127 := by decide
  have read : Plan.ofText? loosePlan.compact = some tightPlan := by
    rw [Plan.ofText?, Json.compact, Json.Reader.run_render Json.Layout.blank_compact (by decide)]
    rfl
  have readSteps : StepProgram.ofText? looseSteps.compact = some tightSteps := by
    rw [StepProgram.ofText?, Json.compact,
      Json.Reader.run_render Json.Layout.blank_compact (by decide)]
    rfl
  exact ⟨⟨values, shallow, plan_and_steps_round_trip.1 _ values shallow⟩,
    ⟨stepValues, stepShallow, plan_and_steps_round_trip.2.1 _ stepValues stepShallow⟩,
    ⟨read, plan_and_steps_round_trip.2.2.1 _ _ read (List.forall_mem_nil _)⟩,
    readSteps, plan_and_steps_round_trip.2.2.2.1 _ _ readSteps fun json mem =>
      (stepValues json mem).2⟩

end PlainVerse
