import PlainVerse.Proofs.Json.Records
import PlainVerse.Step.Json

/-!
# Steps are read back

The arguments of a step are values of any shape. What holds of the parameters of a plan holds of
them: free values without floating-point numbers are read back, in their order.
-/
namespace PlainVerse

open Json (Reader Record Written NoFloat IsFree)

namespace Step
variable {step : Step} {room : Nat}

/-- The values of the arguments. -/
def freeValues (step : Step) : List Json := step.args.entries.map Prod.snd

theorem forall_freeValues {p : Json → Prop} :
    (∀ json ∈ step.freeValues, p json) ↔ ∀ member ∈ step.args.entries, p member.2 := by
  rw [freeValues, List.forall_mem_map]

theorem noFloat_toJson (exactly : ∀ json ∈ step.freeValues, json.All NoFloat) :
    step.toJson.All NoFloat := by
  rw [forall_freeValues] at exactly
  rw [toJson, Json.all_object, List.forall_mem_cons, List.forall_mem_singleton, Json.all_object]
  exact ⟨trivial, Json.noFloat_string _, trivial, exactly⟩

theorem read_toJson (free : ∀ json ∈ step.freeValues, json.IsFree)
    (exactly : ∀ json ∈ step.freeValues, json.All NoFloat) (shallow : step.toJson.depth ≤ room) :
    Step.read room step.toJson.written = some step := by
  cases room with
  | zero => exact absurd shallow (Nat.not_succ_le_zero _)
  | succ room =>
      rw [toJson, Json.depth_object_le, List.forall_mem_cons, List.forall_mem_singleton] at shallow
      rw [forall_freeValues] at free exactly
      have args := Reader.freeMap_written free exactly shallow.2
      have distinct : ([("kind", Json.string step.kind),
          ("args", Json.object step.args.entries)].map Prod.fst).Nodup := by simp
      rw [toJson, Step.read, Record.ofNamed?_written]
      simp only [Option.bind_eq_bind, Option.bind_some]
      rw [Record.required_ofMembers distinct rfl, Record.required_ofMembers distinct rfl,
        Reader.text_written, args]
      rfl

theorem isFree_of_read {tree : Written} (h : Step.read room tree = some step) :
    (∀ json ∈ step.freeValues, json.IsFree) ∧ step.toJson.depth ≤ room := by
  obtain ⟨record, hrecord, h⟩ := Option.bind_eq_some_iff.1 h
  obtain ⟨kind, -, h⟩ := Option.bind_eq_some_iff.1 h
  obtain ⟨args, hargs, h⟩ := Option.bind_eq_some_iff.1 h
  cases h
  obtain ⟨-, -, rfl, -⟩ := Record.depth_of_ofNamed? hrecord (Nat.le_refl _)
  obtain ⟨member, -, found⟩ := Record.exists_of_required hargs
  obtain ⟨free, shallow⟩ := Reader.isFree_of_freeMap found
  refine ⟨forall_freeValues.2 free, ?_⟩
  rw [toJson, Json.depth_object_le, List.forall_mem_cons, List.forall_mem_singleton]
  exact ⟨Nat.zero_le _, shallow⟩

end Step

namespace StepProgram
variable {program : StepProgram} {room : Nat}

/-- The values of all arguments of a step program. -/
def freeValues (program : StepProgram) : List Json := program.steps.flatMap Step.freeValues

theorem forall_freeValues {p : Json → Prop} :
    (∀ json ∈ program.freeValues, p json) ↔
      ∀ step ∈ program.steps, ∀ json ∈ step.freeValues, p json := by
  rw [freeValues, List.forall_mem_flatMap]

theorem noFloat_toJson (exactly : ∀ json ∈ program.freeValues, json.All NoFloat) :
    program.toJson.All NoFloat := by
  rw [forall_freeValues] at exactly
  rw [toJson, Json.all_object, List.forall_mem_singleton, Json.all_array, List.forall_mem_map]
  exact ⟨trivial, trivial, fun step mem => Step.noFloat_toJson (exactly step mem)⟩

theorem read_toJson (free : ∀ json ∈ program.freeValues, json.IsFree)
    (exactly : ∀ json ∈ program.freeValues, json.All NoFloat)
    (shallow : program.toJson.depth ≤ room) :
    StepProgram.read room program.toJson.written = some program := by
  cases room with
  | zero => exact absurd shallow (Nat.not_succ_le_zero _)
  | succ room =>
      rw [toJson, Json.depth_object_le, List.forall_mem_singleton] at shallow
      rw [forall_freeValues] at free exactly
      have steps := Reader.list_written (fun step mem room =>
        Step.read_toJson (free step mem) (exactly step mem)) shallow
      have distinct : ([("steps", Json.array (program.steps.map Step.toJson))].map
          Prod.fst).Nodup := by simp
      rw [toJson, StepProgram.read, Record.ofNamed?_written]
      simp only [Option.bind_eq_bind, Option.bind_some]
      rw [Record.required_ofMembers distinct rfl, steps]
      rfl

theorem isFree_of_read {tree : Written} (h : StepProgram.read room tree = some program) :
    (∀ json ∈ program.freeValues, json.IsFree) ∧ program.toJson.depth ≤ room := by
  obtain ⟨record, hrecord, h⟩ := Option.bind_eq_some_iff.1 h
  obtain ⟨steps, hsteps, h⟩ := Option.bind_eq_some_iff.1 h
  cases h
  obtain ⟨-, -, rfl, -⟩ := Record.depth_of_ofNamed? hrecord (Nat.le_refl _)
  obtain ⟨member, -, list⟩ := Record.exists_of_required hsteps
  obtain ⟨room, _, inner, -, each⟩ := Reader.exists_of_list list (Nat.le_refl _)
  have facts : ∀ step ∈ steps, (∀ json ∈ step.freeValues, json.IsFree) ∧
      step.toJson.depth ≤ room := by
    intro step mem
    obtain ⟨tree, -, found⟩ := each step mem
    exact Step.isFree_of_read found
  constructor
  · exact forall_freeValues.2 fun step mem => (facts step mem).1
  · rw [toJson, Json.depth_object_le, List.forall_mem_singleton, inner, Json.depth_array_le,
      List.forall_mem_map]
    exact fun step mem => (facts step mem).2

/-- A step program is read back from its text. -/
theorem ofText?_render {layout : Json.Layout} (blank : layout.Blank)
    (free : ∀ json ∈ program.freeValues, json.IsFree)
    (exactly : ∀ json ∈ program.freeValues, json.All NoFloat)
    (shallow : program.toJson.depth ≤ Json.depthLimit) :
    StepProgram.ofText? (program.toJson.render layout) = some program := by
  rw [ofText?, Reader.run_render blank (noFloat_toJson exactly), read_toJson free exactly shallow]

theorem isFree_of_ofText? {text : String} (h : StepProgram.ofText? text = some program) :
    (∀ json ∈ program.freeValues, json.IsFree) ∧ program.toJson.depth ≤ Json.depthLimit := by
  obtain ⟨tree, -, found⟩ := Option.bind_eq_some_iff.1 h
  exact isFree_of_read found

end StepProgram
end PlainVerse
