import PlainVerse.Plan.Json
import PlainVerse.Proofs.Json.Records

/-!
# Plans are read back

A plan that is written in JSON is read back as it was, with its inputs and parameters in their
order. Parameters are values of any shape, so they have to be such values, without floating-point
numbers. A plan that has been read from any text is of this kind, apart from the numbers.
-/
namespace PlainVerse.Plan

open Json (Reader Record Written NoFloat IsFree)

namespace Entry
variable {entry : Entry} {room : Nat}

/-- The values of the parameters. -/
def freeValues (entry : Entry) : List Json :=
  entry.params.toList.flatMap fun params => params.entries.map Prod.snd

theorem forall_freeValues {p : Json → Prop} :
    (∀ json ∈ entry.freeValues, p json) ↔
      ∀ params ∈ entry.params, ∀ member ∈ params.entries, p member.2 := by
  rw [freeValues]
  cases entry.params with
  | none => simp
  | some params =>
      simp only [Option.toList_some, List.flatMap_singleton, List.forall_mem_map,
        Option.mem_some_iff, forall_eq']

/-- The members of an entry's object. -/
def members (entry : Entry) : List (String × Json) :=
  [("op", .string entry.op.name), ("in", Json.textMap entry.inputs)] ++
    (entry.params.toList.map fun params => ("params", .object params.entries)) ++
    (entry.out.toList.map fun out => ("out", .string out))

theorem toJson_eq_object (entry : Entry) : entry.toJson = .object entry.members := rfl

theorem forall_members {p : Json → Prop} :
    (∀ member ∈ entry.members, p member.2) ↔
      p (.string entry.op.name) ∧ p (Json.textMap entry.inputs) ∧
        (∀ params ∈ entry.params, p (.object params.entries)) ∧
        ∀ out ∈ entry.out, p (.string out) := by
  rw [members]
  cases entry.params <;> cases entry.out <;> simp

theorem distinct_members (entry : Entry) : (entry.members.map Prod.fst).Nodup := by
  rw [members]
  cases entry.params <;> cases entry.out <;> simp

theorem lookup_members (entry : Entry) :
    entry.members.lookup "op" = some (.string entry.op.name) ∧
      entry.members.lookup "in" = some (Json.textMap entry.inputs) ∧
      entry.members.lookup "params" = entry.params.map (fun params => .object params.entries) ∧
      entry.members.lookup "out" = entry.out.map .string := by
  rw [members]
  cases entry.params <;> cases entry.out <;> exact ⟨rfl, rfl, rfl, rfl⟩

theorem noFloat_toJson (exactly : ∀ json ∈ entry.freeValues, json.All NoFloat) :
    entry.toJson.All NoFloat := by
  rw [toJson_eq_object, Json.all_object, forall_members]
  refine ⟨trivial, Json.noFloat_string _, Json.noFloat_textMap _, ?_,
    fun out _ => Json.noFloat_string out⟩
  intro params given
  exact Json.all_object.2 ⟨trivial, forall_freeValues.1 exactly params given⟩

theorem read_name (op : Op) (room : Nat) :
    Op.read room (Json.string op.name).written = some op := by
  have back : Op.ofName? op.name = some op := by cases op <;> rfl
  rw [Json.written, Op.read, Json.string?_piecesOf, Option.bind_some, back]

theorem read_toJson (free : ∀ json ∈ entry.freeValues, json.IsFree)
    (exactly : ∀ json ∈ entry.freeValues, json.All NoFloat) (shallow : entry.toJson.depth ≤ room) :
    Entry.read room entry.toJson.written = some entry := by
  cases room with
  | zero => exact absurd shallow (Nat.not_succ_le_zero _)
  | succ room =>
      rw [toJson_eq_object, Json.depth_object_le] at shallow
      obtain ⟨-, inputs, params, -⟩ := (forall_members (p := (·.depth ≤ room))).1 shallow
      rw [Json.depth_textMap] at inputs
      rw [forall_freeValues] at free exactly
      have distinct := distinct_members entry
      obtain ⟨hop, hin, hparams, hout⟩ := lookup_members entry
      have readParams : (Record.ofMembers entry.members room).optional "params"
          (Reader.map Json.ofWritten?) = some entry.params :=
        Record.optional_ofMembers distinct hparams (fun params => by simp [Json.written_object])
          fun given mem => Reader.freeMap_written (free given mem) (exactly given mem)
            (params given mem)
      rw [toJson_eq_object, Entry.read, Record.ofNamed?_written]
      simp only [Option.bind_eq_bind, Option.bind_some, Record.required_ofMembers distinct hop,
        Record.required_ofMembers distinct hin, read_name, Reader.textMap_written _ inputs,
        readParams, Record.optional_text distinct hout]

/-- An entry that has been read has free values, and does not need more room than it was given. -/
theorem isFree_of_read {tree : Written} (h : Entry.read room tree = some entry) :
    (∀ json ∈ entry.freeValues, json.IsFree) ∧ entry.toJson.depth ≤ room := by
  obtain ⟨record, hrecord, h⟩ := Option.bind_eq_some_iff.1 h
  obtain ⟨op, -, h⟩ := Option.bind_eq_some_iff.1 h
  obtain ⟨inputs, hinputs, h⟩ := Option.bind_eq_some_iff.1 h
  obtain ⟨params, hparams, h⟩ := Option.bind_eq_some_iff.1 h
  obtain ⟨out, -, h⟩ := Option.bind_eq_some_iff.1 h
  cases h
  obtain ⟨-, -, rfl, -⟩ := Record.depth_of_ofNamed? hrecord (Nat.le_refl _)
  obtain ⟨input, -, hinput⟩ := Record.exists_of_required hinputs
  obtain ⟨room, inner, -⟩ := Reader.exists_of_map hinput
  have facts : ∀ given ∈ params, (∀ member ∈ given.entries, member.2.IsFree) ∧
      (Json.object given.entries).depth ≤ record.room := by
    rintro given rfl
    obtain ⟨member, -, found⟩ := Record.exists_of_optional hparams
    exact Reader.isFree_of_freeMap found
  constructor
  · rw [forall_freeValues]
    exact fun given mem => (facts given mem).1
  · rw [toJson_eq_object, Json.depth_object_le, inner]
    refine (forall_members (p := (·.depth ≤ room + 1))).2 ⟨Nat.zero_le _, ?_, ?_,
      fun _ _ => Nat.zero_le _⟩
    · rw [Json.depth_textMap]
      exact Nat.le_add_left 1 room
    · rw [← inner]
      exact fun given mem => (facts given mem).2

end Entry

variable {plan : Plan} {room : Nat}

/-- The values of all parameters of a plan. -/
def freeValues (plan : Plan) : List Json := plan.entries.flatMap Entry.freeValues

theorem forall_freeValues {p : Json → Prop} :
    (∀ json ∈ plan.freeValues, p json) ↔
      ∀ entry ∈ plan.entries, ∀ json ∈ entry.freeValues, p json := by
  rw [freeValues, List.forall_mem_flatMap]

theorem noFloat_toJson (exactly : ∀ json ∈ plan.freeValues, json.All NoFloat) :
    plan.toJson.All NoFloat := by
  rw [forall_freeValues] at exactly
  rw [toJson, Json.all_object, List.forall_mem_cons, List.forall_mem_singleton, Json.all_array,
    List.forall_mem_map]
  exact ⟨trivial, Json.noFloat_string _, trivial,
    fun entry mem => Entry.noFloat_toJson (exactly entry mem)⟩

theorem read_toJson (free : ∀ json ∈ plan.freeValues, json.IsFree)
    (exactly : ∀ json ∈ plan.freeValues, json.All NoFloat) (shallow : plan.toJson.depth ≤ room) :
    Plan.read room plan.toJson.written = some plan := by
  cases room with
  | zero => exact absurd shallow (Nat.not_succ_le_zero _)
  | succ room =>
      rw [toJson, Json.depth_object_le, List.forall_mem_cons, List.forall_mem_singleton] at shallow
      rw [forall_freeValues] at free exactly
      have entries := Reader.list_written (fun entry mem room =>
        Entry.read_toJson (free entry mem) (exactly entry mem)) shallow.2
      have distinct : ([("version", Json.string plan.version),
          ("plan", Json.array (plan.entries.map Entry.toJson))].map Prod.fst).Nodup := by
        simp
      rw [toJson, Plan.read, Record.ofNamed?_written]
      simp only [Option.bind_eq_bind, Option.bind_some]
      rw [Record.required_ofMembers distinct rfl, Record.required_ofMembers distinct rfl,
        Reader.text_written, entries]
      rfl

theorem isFree_of_read {tree : Written} (h : Plan.read room tree = some plan) :
    (∀ json ∈ plan.freeValues, json.IsFree) ∧ plan.toJson.depth ≤ room := by
  obtain ⟨record, hrecord, h⟩ := Option.bind_eq_some_iff.1 h
  obtain ⟨version, -, h⟩ := Option.bind_eq_some_iff.1 h
  obtain ⟨entries, hentries, h⟩ := Option.bind_eq_some_iff.1 h
  cases h
  obtain ⟨-, -, rfl, -⟩ := Record.depth_of_ofNamed? hrecord (Nat.le_refl _)
  obtain ⟨member, -, list⟩ := Record.exists_of_required hentries
  obtain ⟨room, _, inner, -, each⟩ := Reader.exists_of_list list (Nat.le_refl _)
  have facts : ∀ entry ∈ entries, (∀ json ∈ entry.freeValues, json.IsFree) ∧
      entry.toJson.depth ≤ room := by
    intro entry mem
    obtain ⟨tree, -, found⟩ := each entry mem
    exact Entry.isFree_of_read found
  constructor
  · exact forall_freeValues.2 fun entry mem => (facts entry mem).1
  · rw [toJson, Json.depth_object_le, List.forall_mem_cons, List.forall_mem_singleton, inner,
      Json.depth_array_le, List.forall_mem_map]
    exact ⟨Nat.zero_le _, fun entry mem => (facts entry mem).2⟩

/-- A plan is read back from its text. -/
theorem ofText?_render {layout : Json.Layout} (blank : layout.Blank)
    (free : ∀ json ∈ plan.freeValues, json.IsFree)
    (exactly : ∀ json ∈ plan.freeValues, json.All NoFloat)
    (shallow : plan.toJson.depth ≤ Json.depthLimit) :
    Plan.ofText? (plan.toJson.render layout) = some plan := by
  rw [ofText?, Reader.run_render blank (noFloat_toJson exactly), read_toJson free exactly shallow]

/-- Whatever has been read from a text is read back from the text that it is written as. -/
theorem isFree_of_ofText? {text : String} (h : Plan.ofText? text = some plan) :
    (∀ json ∈ plan.freeValues, json.IsFree) ∧ plan.toJson.depth ≤ Json.depthLimit := by
  obtain ⟨tree, -, found⟩ := Option.bind_eq_some_iff.1 h
  exact isFree_of_read found

end PlainVerse.Plan
