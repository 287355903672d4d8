import PlainVerse.Proofs.Plan.Dangling
import PlainVerse.Proofs.Traversal
import Mathlib.Data.List.Induction
import Mathlib.Data.List.Nodup

/-!
# When the references of a plan are resolved

The audit of a plan is compared with two descriptions of it. One looks at a single reference: it is
reported if it is no literal and no entry before its own puts out the name. The other carries the
plan out, entry after entry, on a machine that stops at a name which is not bound. What the machine
computes is left open, and only the names decide whether it gets through.
-/
namespace PlainVerse.Plan

/-- An input that is no literal and refers to the output of no earlier entry. -/
structure IsUnresolved (plan : Plan) (report : Dangling) : Prop where
  given : ∃ entry, plan.entries[report.entry]? = some entry ∧
    (report.input, report.reference) ∈ entry.inputs.entries
  unmarked : ¬ literalMark.toList <+: report.reference.toList
  missing : ∀ j < report.entry, ∀ earlier, plan.entries[j]? = some earlier →
    earlier.out ≠ some report.reference

/-- The order of entries, and of the inputs of one entry. -/
def Precedes (plan : Plan) (first second : Dangling) : Prop :=
  first.entry < second.entry ∨ first.entry = second.entry ∧
    ∃ entry, plan.entries[first.entry]? = some entry ∧
      [first.input, second.input].Sublist entry.inputs.keys

/-- What a plan is carried out with: the value of a literal, and the result of an entry whose inputs
have the given values. -/
structure Machine (α : Type) where
  literal : String → α
  perform : Entry → List α → α

namespace Machine
variable {α : Type}

/-- The value of an input when some names are bound. -/
def input? (machine : Machine α) (bindings : OrderedMap α) (value : String) : Option α :=
  if isLiteral value then some (machine.literal value) else bindings.get? value

/-- Carries out one entry, and then binds its output. A reference to a name that is not bound stops
the machine. -/
def step? (machine : Machine α) (bindings : OrderedMap α) (entry : Entry) :
    Option (OrderedMap α) := do
  let values ← entry.inputs.entries.mapM fun input => machine.input? bindings input.2
  match entry.out with
  | none => some bindings
  | some name => some (bindings.insert name (machine.perform entry values))

def run? (machine : Machine α) (entries : List Entry) : Option (OrderedMap α) :=
  entries.foldlM machine.step? .empty

end Machine

theorem mem_unbound {index : Nat} {bound : List String} {entry : Entry} {report : Dangling} :
    report ∈ unbound index bound entry ↔
      report.entry = index ∧ (report.input, report.reference) ∈ entry.inputs.entries ∧
        isLiteral report.reference = false ∧ report.reference ∉ bound := by
  obtain ⟨place, input, reference⟩ := report
  simp only [unbound, Entry.references, List.mem_map, List.mem_filter, Prod.exists,
    Dangling.mk.injEq]
  constructor
  · rintro ⟨_, _, ⟨⟨given, plain⟩, missing⟩, rfl, rfl, rfl⟩
    exact ⟨rfl, given, by simpa using plain, by simpa using missing⟩
  · rintro ⟨rfl, given, plain, missing⟩
    exact ⟨_, _, ⟨⟨given, by simpa using plain⟩, by simpa using missing⟩, rfl, rfl, rfl⟩

/-- The reports about each entry, from the outputs of the entries before it. -/
def reports (entries : List Entry) : List Dangling :=
  entries.zipIdx.flatMap fun place => unbound place.2 (outputs (entries.take place.2)) place.1

theorem reports_append (first second : List Entry) :
    reports (first ++ second) = reports first ++
      (second.zipIdx first.length).flatMap fun place =>
        unbound place.2 (outputs ((first ++ second).take place.2)) place.1 := by
  rw [reports, List.zipIdx_append, List.flatMap_append, Nat.zero_add]
  congr 1
  apply List.flatMap_congr
  intro place mem
  have le : place.2 ≤ first.length := Nat.le_of_lt (by simpa using List.snd_lt_of_mem_zipIdx mem)
  rw [List.take_append_of_le_length le]

/-- The audit reports entry by entry. The induction goes from the end, where an entry is audited
against the outputs of all others. -/
theorem dangling_eq_reports (plan : Plan) : plan.dangling = reports plan.entries := by
  rw [dangling]
  induction plan.entries using List.reverseRecOn with
  | nil => rfl
  | append_singleton entries entry ih =>
      rw [danglingFrom_concat, reports_append, ih]
      simp

theorem mem_outputs_take {entries : List Entry} {n : Nat} {name : String} :
    name ∈ outputs (entries.take n) ↔
      ∃ j < n, ∃ earlier, entries[j]? = some earlier ∧ earlier.out = some name := by
  rw [mem_outputs]
  constructor
  · rintro ⟨earlier, mem, out⟩
    obtain ⟨j, here⟩ := List.getElem?_of_mem mem
    rw [List.getElem?_take, Option.ite_none_right_eq_some] at here
    exact ⟨j, here.1, earlier, here.2, out⟩
  · rintro ⟨j, lt, earlier, here, out⟩
    have taken : (entries.take n)[j]? = some earlier := by rw [List.getElem?_take, if_pos lt, here]
    exact ⟨earlier, List.mem_of_getElem? taken, out⟩

theorem mem_dangling {plan : Plan} {report : Dangling} :
    report ∈ plan.dangling ↔ plan.IsUnresolved report := by
  rw [dangling_eq_reports, reports, List.mem_flatMap]
  constructor
  · rintro ⟨⟨entry, n⟩, mem, found⟩
    obtain ⟨rfl, given, plain, missing⟩ := mem_unbound.1 found
    refine ⟨⟨entry, List.mk_mem_zipIdx_iff_getElem?.1 mem, given⟩, ?_, ?_⟩
    · rw [← List.isPrefixOf_iff_prefix]
      exact ne_true_of_eq_false plain
    · intro j lt earlier here out
      exact missing (mem_outputs_take.2 ⟨j, lt, earlier, here, out⟩)
  · rintro ⟨⟨entry, here, given⟩, unmarked, missing⟩
    refine ⟨(entry, report.entry), List.mk_mem_zipIdx_iff_getElem?.2 here,
      mem_unbound.2 ⟨rfl, given, ?_, ?_⟩⟩
    · rw [← List.isPrefixOf_iff_prefix] at unmarked
      exact eq_false_of_ne_true unmarked
    · intro mem
      obtain ⟨j, lt, earlier, before, out⟩ := mem_outputs_take.1 mem
      exact missing j lt earlier before out

theorem pairwise_unbound {plan : Plan} {index : Nat} {entry : Entry}
    (here : plan.entries[index]? = some entry) (bound : List String) :
    (unbound index bound entry).Pairwise plan.Precedes := by
  rw [unbound, List.pairwise_map, List.pairwise_iff_forall_sublist]
  intro first second inside
  have all : [first, second].Sublist entry.inputs.entries :=
    inside.trans (List.filter_sublist.trans List.filter_sublist)
  exact Or.inr ⟨rfl, entry, here, all.map Prod.fst⟩

theorem pairwise_dangling (plan : Plan) : plan.dangling.Pairwise plan.Precedes := by
  rw [dangling_eq_reports, reports, List.pairwise_flatMap]
  constructor
  · rintro ⟨entry, n⟩ mem
    exact pairwise_unbound (List.mk_mem_zipIdx_iff_getElem?.1 mem) _
  · have places : (plan.entries.zipIdx.map Prod.snd).Pairwise (· < ·) := by
      rw [List.zipIdx_map_snd]
      exact List.pairwise_lt_range' 1
    apply places.of_map
    intro earlier later lt first hfirst second hsecond
    rw [← (mem_unbound.1 hfirst).1, ← (mem_unbound.1 hsecond).1] at lt
    exact Or.inl lt

/-- The keys of an entry are distinct, so no report comes before itself. -/
theorem not_precedes_self (plan : Plan) (report : Dangling) : ¬ plan.Precedes report report := by
  rintro (lt | ⟨-, entry, -, twice⟩)
  · exact Nat.lt_irrefl _ lt
  · exact List.nodup_iff_sublist.1 entry.inputs.distinct _ twice

theorem nodup_dangling (plan : Plan) : plan.dangling.Nodup := by
  refine (pairwise_dangling plan).imp ?_
  rintro first _ precedes rfl
  exact not_precedes_self plan first precedes

namespace Machine
variable {α : Type} {machine : Machine α} {bindings : OrderedMap α} {bound : List String}

/-- The bound names are those in a list. -/
def Knows (bindings : OrderedMap α) (bound : List String) : Prop :=
  ∀ name, (bindings.get? name).isSome ↔ name ∈ bound

theorem input?_isSome (knows : Knows bindings bound) (value : String) :
    (machine.input? bindings value).isSome ↔ isLiteral value = true ∨ value ∈ bound := by
  rw [input?, ← knows value]
  cases isLiteral value <;> simp

/-- An entry can be carried out exactly if the audit has nothing to report about it. -/
theorem step?_isSome (knows : Knows bindings bound) (index : Nat) (entry : Entry) :
    (machine.step? bindings entry).isSome ↔ unbound index bound entry = [] := by
  have reached : (machine.step? bindings entry).isSome ↔
      (entry.inputs.entries.mapM fun input => machine.input? bindings input.2).isSome := by
    rw [step?]
    cases entry.inputs.entries.mapM fun input => machine.input? bindings input.2 with
    | none => simp
    | some values => cases entry.out <;> simp
  rw [reached, mapM_isSome, List.eq_nil_iff_forall_not_mem]
  simp only [input?_isSome knows, mem_unbound]
  constructor
  · rintro resolved report ⟨-, given, plain, missing⟩
    rcases resolved _ given with literal | known
    · rw [plain] at literal
      cases literal
    · exact missing known
  · intro none input given
    by_contra unresolved
    rw [not_or] at unresolved
    exact none ⟨index, input.1, input.2⟩
      ⟨rfl, given, eq_false_of_ne_true unresolved.1, unresolved.2⟩

theorem step?_knows (knows : Knows bindings bound) {entry : Entry} {next : OrderedMap α}
    (stepped : machine.step? bindings entry = some next) :
    Knows next (entry.out.toList ++ bound) := by
  obtain ⟨values, -, bind⟩ := Option.bind_eq_some_iff.1 stepped
  cases out : entry.out with
  | none =>
      rw [out] at bind
      obtain rfl := Option.some.inj bind
      exact knows
  | some name =>
      rw [out] at bind
      obtain rfl := Option.some.inj bind
      intro other
      rw [OrderedMap.get?_insert]
      by_cases same : other = name
      · simp [same]
      · simpa [same] using knows other

/-- The machine gets through what the audit has nothing to report about. An output is bound for the
one and known to the other at the same time, so both change together. -/
theorem foldlM_step?_isSome (knows : Knows bindings bound) (index : Nat) (entries : List Entry) :
    (entries.foldlM machine.step? bindings).isSome ↔ danglingFrom index bound entries = [] := by
  induction entries generalizing bindings bound index with
  | nil => simp [danglingFrom]
  | cons entry rest ih =>
      have here : (machine.step? bindings entry).isSome ↔ unbound index bound entry = [] :=
        step?_isSome knows index entry
      rw [List.foldlM_cons, danglingFrom_cons, List.append_eq_nil_iff, ← here]
      cases stepped : machine.step? bindings entry with
      | none => simp
      | some next =>
          have later := ih (step?_knows knows stepped) (index + 1)
          simpa using later

theorem run?_isSome (machine : Machine α) (plan : Plan) :
    (machine.run? plan.entries).isSome ↔ plan.dangling = [] := by
  have start : Knows (OrderedMap.empty : OrderedMap α) [] := by
    intro name
    simp [OrderedMap.empty, OrderedMap.get?]
  exact foldlM_step?_isSome start 0 plan.entries

end Machine

/-- Entries that are added at the end leave the reports as they were, and all new ones are about
them. -/
theorem dangling_append (plan other : Plan) :
    ∃ later, dangling { plan with entries := plan.entries ++ other.entries } =
        plan.dangling ++ later ∧
      ∀ report ∈ later, plan.entries.length ≤ report.entry := by
  have split := reports_append plan.entries other.entries
  rw [← dangling_eq_reports plan] at split
  refine ⟨_, (dangling_eq_reports _).trans split, ?_⟩
  intro report mem
  obtain ⟨place, inside, found⟩ := List.mem_flatMap.1 mem
  rw [(mem_unbound.1 found).1]
  exact List.le_snd_of_mem_zipIdx inside

/-- The audit of any plan reports each unresolved reference once, in the order of the entries and of
their inputs, and nothing else. It reports nothing exactly if the plan can be carried out, whatever
its operations compute. The reports on a plan are the first ones on every plan that begins with it,
and the others are about later entries. -/
theorem dangling_exact (plan : Plan) :
    (∀ report, report ∈ plan.dangling ↔ plan.IsUnresolved report) ∧
      plan.dangling.Pairwise plan.Precedes ∧ plan.dangling.Nodup ∧
      (∀ (α : Type) (machine : Machine α),
        (machine.run? plan.entries).isSome ↔ plan.dangling = []) ∧
      ∀ other : Plan, ∃ later,
        dangling { plan with entries := plan.entries ++ other.entries } = plan.dangling ++ later ∧
          ∀ report ∈ later, plan.entries.length ≤ report.entry :=
  ⟨fun _ => mem_dangling, pairwise_dangling plan, nodup_dangling plan,
    fun _ machine => machine.run?_isSome plan, dangling_append plan⟩

/-- An output is bound too late for its own entry, and in time for the next one. -/
example : dangling ⟨"0.1", [((Entry.ofOp .attest).withInput "artifact" "r").withOut "r",
    (Entry.ofOp .explain).withInput "ref" "r"]⟩ = [⟨0, "artifact", "r"⟩] := by decide

end PlainVerse.Plan
