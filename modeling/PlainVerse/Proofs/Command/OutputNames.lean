import PlainVerse.Proofs.AliasTable.Fresh
import PlainVerse.Proofs.Command.Failing

/-!
# Names of outputs

Until something is attested, all that is put out is also defined, and a generated name is never a
defined one. So it differs from the outputs of all entries before it, whatever names the clauses
have given. Without given names the counter and the table keep step, and the compress results are
numbered without a gap. The output of an attest entry is not defined, but what is explained is, or
else nothing is.
-/
namespace PlainVerse.Command

open Plan (Entry outputs)
open AliasTable (candidate)

/-- The entry that a compress clause leads to. -/
structure IsEntryOf (clause : CompressClause) (entry : Entry) : Prop where
  op : entry.op = .compress
  payload : entry.inputs.get? "payload" = some (Plan.literalMark ++ clause.payload)
  named : ∀ name, clause.name = some name → entry.out = some name

/-- The output of the entry with a given index has a generated name. A compress entry has one if its
clause gives none. -/
def Generated (clauses : List CompressClause) (index : Nat) (entry : Entry) : Prop :=
  match entry.op with
  | .compress => ∃ clause, clauses[index]? = some clause ∧ clause.name = none
  | .compare | .attest => True
  | .explain => False

/-- Generated names differ from the outputs of all earlier entries. -/
def NewOutputs (clauses : List CompressClause) (entries : List Entry) : Prop :=
  ∀ index entry, entries[index]? = some entry → Generated clauses index entry →
    ∃ name, entry.out = some name ∧ name ∉ outputs (entries.take index)

section
variable {clauses : List CompressClause} {entries : List Entry} {entry : Entry}

theorem newOutputs_nil (clauses : List CompressClause) : NewOutputs clauses [] := by
  intro index entry found
  cases found

/-- One more entry, whose name is not among the outputs if it is generated. -/
theorem NewOutputs.concat (h : NewOutputs clauses entries)
    (new : Generated clauses entries.length entry →
      ∃ name, entry.out = some name ∧ name ∉ outputs entries) :
    NewOutputs clauses (entries ++ [entry]) := by
  intro index other found generated
  rcases Nat.lt_trichotomy index entries.length with before | rfl | after
  · rw [List.getElem?_append_left before] at found
    rw [List.take_append_of_le_length (Nat.le_of_lt before)]
    exact h index other found generated
  · rw [List.getElem?_concat_length] at found
    cases found
    rw [List.take_left]
    exact new generated
  · rw [List.getElem?_eq_none (by rw [List.length_append]; exact after)] at found
    cases found

end

/-- The context after the first `done` of the compress clauses of a text. -/
structure Compressed (clauses : List CompressClause) (done : Nat) (context : Context) : Prop where
  length : context.entries.length = done
  entries : ∀ index clause, index < done → clauses[index]? = some clause →
    ∃ entry, context.entries[index]? = some entry ∧ IsEntryOf clause entry
  known : ∀ name ∈ outputs context.entries, name ∈ context.aliases.defined
  new : NewOutputs clauses context.entries

theorem compressed_empty (clauses : List CompressClause) : Compressed clauses 0 .empty where
  length := rfl
  entries := fun _ _ none => absurd none (Nat.not_lt_zero _)
  known := fun _ mem => nomatch mem
  new := newOutputs_nil clauses

section
variable {options : Options} {clauses : List CompressClause} {done : Nat} {context next : Context}

theorem isEntryOf_compressEntry (aliases : AliasTable) (clause : CompressClause) (seed : UInt64) :
    IsEntryOf clause
      (compressEntry options clause.payload seed (resultName aliases clause.name).1) where
  op := rfl
  payload := rfl
  named := by
    intro name given
    rw [given]
    rfl

/-- A name that is not given is not defined. -/
theorem resultName_not_mem_defined (aliases : AliasTable) {clause : CompressClause}
    (unnamed : clause.name = none) : (resultName aliases clause.name).1 ∉ aliases.defined := by
  rw [unnamed]
  exact AliasTable.fresh_not_mem_defined aliases "r"

/-- A given name may well repeat an earlier output, but then it is not generated. -/
theorem Compressed.step (h : Compressed clauses done context) {clause : CompressClause}
    (found : clauses[done]? = some clause) (run : compress options context clause = .ok next) :
    Compressed clauses (done + 1) next := by
  obtain ⟨-, seed, -, rfl⟩ := compress_eq_ok.1 run
  have length := h.length
  refine ⟨?_, ?_, ?_, ?_⟩
  · rw [compressed, List.length_append, length, List.length_singleton]
  · intro index other within here
    rw [compressed]
    by_cases last : index = context.entries.length
    · subst last
      rw [length, found] at here
      cases here
      rw [List.getElem?_concat_length]
      exact ⟨_, rfl, isEntryOf_compressEntry _ clause seed⟩
    · rw [List.getElem?_append_left (by omega)]
      exact h.entries index other (by omega) here
  · intro name mem
    rw [compressed, Plan.outputs_append, List.mem_append] at mem
    refine AliasTable.mem_define.2 ?_
    rcases mem with old | new
    · rw [resultName_defined]
      exact Or.inl (h.known name old)
    · exact Or.inr (List.mem_singleton.1 new)
  · refine h.new.concat fun generated => ⟨_, rfl, fun again => ?_⟩
    obtain ⟨other, here, unnamed⟩ := generated
    rw [length, found] at here
    cases here
    exact resultName_not_mem_defined context.aliases unnamed (h.known _ again)

/-- The clauses in front are those done so far, so the next one has their number as its index. -/
theorem Compressed.run (front rest : List CompressClause) (split : clauses = front ++ rest)
    (h : Compressed clauses front.length context)
    (run : rest.foldlM (compress options) context = .ok next) :
    Compressed clauses clauses.length next := by
  induction rest generalizing front context with
  | nil =>
      obtain rfl : context = next := Except.ok.inj run
      rw [split, List.append_nil] at h ⊢
      exact h
  | cons clause rest ih =>
      rw [List.foldlM_cons, bind_eq_ok] at run
      obtain ⟨middle, first, run⟩ := run
      have found : clauses[front.length]? = some clause := by
        rw [split, List.getElem?_append_right (Nat.le_refl _), Nat.sub_self,
          List.getElem?_cons_zero]
      have more := h.step found first
      refine ih (front ++ [clause]) ?_ ?_ run
      · rw [split, List.append_assoc, List.singleton_append]
      · rw [List.length_append, List.length_singleton]
        exact more

end

/-- The name of the result with a given index, if no clause gives one. -/
def numberedName (index : Nat) : String :=
  if index = 0 then "r" else "r" ++ toString (index + 1)

theorem candidate_eq_numberedName (index : Nat) :
    candidate "r" (index + 1) = numberedName index := by
  unfold candidate numberedName
  by_cases first : index = 0
  · rw [if_pos first, if_pos (by omega)]
  · rw [if_neg first, if_neg (by omega)]
    rfl

/-- The first `n` names have been generated, and nothing else has been defined. -/
structure Numbered (n : Nat) (context : Context) : Prop where
  counter : context.aliases.counter "r" = n
  defined : ∀ name ∈ context.aliases.defined, ∃ index < n, name = numberedName index
  outs : context.entries.map Entry.out = (List.range n).map fun index => some (numberedName index)

theorem numbered_empty : Numbered 0 .empty where
  counter := rfl
  defined := fun _ mem => nomatch mem
  outs := rfl

section
variable {options : Options} {context next : Context} {n : Nat}

/-- The next number is free, so the search does not go past it. -/
theorem Numbered.nextIndex (h : Numbered n context) : context.aliases.nextIndex "r" = n + 1 := by
  have free : candidate "r" (context.aliases.counter "r" + 1) ∉ context.aliases.defined := by
    intro taken
    obtain ⟨index, small, same⟩ := h.defined _ taken
    rw [← candidate_eq_numberedName] at same
    have := AliasTable.candidate_injective same
    have := h.counter
    omega
  rw [AliasTable.nextIndex_of_not_mem _ _ free, h.counter]

theorem Numbered.step (h : Numbered n context) {clause : CompressClause}
    (unnamed : clause.name = none) (run : compress options context clause = .ok next) :
    Numbered (n + 1) next := by
  obtain ⟨-, seed, -, rfl⟩ := compress_eq_ok.1 run
  have name : (context.aliases.fresh "r").1 = numberedName n := by
    rw [AliasTable.fresh_eq, h.nextIndex, candidate_eq_numberedName]
  rw [compressed, unnamed]
  refine ⟨?_, ?_, ?_⟩
  · exact (AliasTable.fresh_counter_self _ _).trans h.nextIndex
  · intro other mem
    rcases AliasTable.mem_define.1 mem with old | rfl
    · obtain ⟨index, small, same⟩ := h.defined other old
      exact ⟨index, Nat.lt_succ_of_lt small, same⟩
    · exact ⟨n, Nat.lt_succ_self n, name⟩
  · rw [List.map_append, h.outs, List.range_succ, List.map_append]
    congr 1
    exact congrArg (fun out => [some out]) name

theorem Numbered.run {clauses : List CompressClause} (h : Numbered n context)
    (unnamed : ∀ clause ∈ clauses, clause.name = none)
    (run : clauses.foldlM (compress options) context = .ok next) :
    Numbered (n + clauses.length) next := by
  induction clauses generalizing n context with
  | nil =>
      obtain rfl : context = next := Except.ok.inj run
      exact h
  | cons clause rest ih =>
      rw [List.foldlM_cons, bind_eq_ok] at run
      obtain ⟨middle, first, run⟩ := run
      obtain ⟨here, others⟩ := List.forall_mem_cons.1 unnamed
      rw [List.length_cons, Nat.add_comm rest.length, ← Nat.add_assoc]
      exact ih (h.step here first) others run

end

/-- What the passes after the compress clauses add to the entries, each at most one, and what the
names in them are. -/
structure Additions (first second : Context) (compared attested explained : List Entry) :
    Prop where
  isCompared : compared = [] ∨
    ∃ a b, compared = [compareEntry a b (first.aliases.fresh "cmp").1]
  isAttested : attested = [] ∨
    ∃ artifact, attested = [attestEntry artifact (second.aliases.fresh "att").1]
  isExplained : explained = [] ∨
    ∃ target, explained = [explainEntry target] ∧
      (target ∈ second.aliases.defined ∨ target = second.aliases.last.getD "unknown")
  defined : ∀ name, name ∈ first.aliases.defined ∨ name ∈ outputs compared →
    name ∈ second.aliases.defined

section
variable {options : Options} {text : String}

theorem exists_compared {first second : Context}
    (run : perform options text first .compare = .ok second) :
    ∃ compared, second.entries = first.entries ++ compared ∧
      (compared = [] ∨ ∃ a b, compared = [compareEntry a b (first.aliases.fresh "cmp").1]) ∧
      ∀ name, name ∈ first.aliases.defined ∨ name ∈ outputs compared →
        name ∈ second.aliases.defined := by
  rw [perform, passed_eq_ok] at run
  rcases run with ⟨-, ran⟩ | ⟨-, rfl⟩
  · obtain ⟨pair, -, rfl⟩ := compare_eq_ok.1 ran
    refine ⟨_, rfl, Or.inr ⟨pair.1, pair.2, rfl⟩, ?_⟩
    rintro name (old | new)
    · exact AliasTable.mem_define.2 (Or.inl old)
    · exact AliasTable.mem_define.2 (Or.inr (List.mem_singleton.1 new))
  · refine ⟨[], (List.append_nil _).symm, Or.inl rfl, ?_⟩
    rintro name (old | new)
    · exact old
    · cases new

theorem exists_explained {context final : Context}
    (run : perform options text context .explain = .ok final) :
    ∃ explained, final.entries = context.entries ++ explained ∧
      (explained = [] ∨ ∃ target, explained = [explainEntry target] ∧
        (target ∈ context.aliases.defined ∨ target = context.aliases.last.getD "unknown")) := by
  rw [perform, passed_eq_ok] at run
  rcases run with ⟨-, ran⟩ | ⟨-, rfl⟩
  · obtain ⟨target, found, rfl⟩ := explain_eq_ok.1 ran
    exact ⟨_, rfl, Or.inr ⟨target, rfl, explained_eq_ok found⟩⟩
  · exact ⟨[], (List.append_nil _).symm, Or.inl rfl⟩

/-- Attesting leaves the names that can be referred to as they are. -/
theorem exists_attested (attests : Bool) (context : Context) :
    ∃ attested,
      (if attests then attest context else context).entries = context.entries ++ attested ∧
      (attested = [] ∨
        ∃ artifact, attested = [attestEntry artifact (context.aliases.fresh "att").1]) ∧
      (if attests then attest context else context).aliases.defined = context.aliases.defined ∧
      (if attests then attest context else context).aliases.last = context.aliases.last := by
  cases attests with
  | true => exact ⟨_, rfl, Or.inr ⟨_, rfl⟩, rfl, rfl⟩
  | false => exact ⟨[], (List.append_nil _).symm, Or.inl rfl, rfl, rfl⟩

theorem exists_additions {plan : Plan} (run : compile options text = .ok plan) :
    ∃ first second compared attested explained,
      (compressClauses (normalize text)).foldlM (compress options) .empty = .ok first ∧
      perform options (normalize text) first .compare = .ok second ∧
      plan.entries = first.entries ++ compared ++ attested ++ explained ∧
      Additions first second compared attested explained := by
  obtain ⟨-, first, second, final, hcompress, hcompare, hexplain, rfl⟩ := compile_eq_ok.1 run
  obtain ⟨compared, comparedEntries, isCompared, defined⟩ := exists_compared hcompare
  obtain ⟨attested, attestedEntries, isAttested, sameNames, sameLast⟩ :=
    exists_attested (Family.attest.isPresent (normalize text)) second
  obtain ⟨explained, explainedEntries, isExplained⟩ := exists_explained hexplain
  rw [sameNames, sameLast] at isExplained
  refine ⟨first, second, compared, attested, explained, hcompress, hcompare, ?_,
    isCompared, isAttested, isExplained, defined⟩
  rw [explainedEntries, attestedEntries, comparedEntries]

end

section
variable {clauses : List CompressClause} {first second : Context}
  {compared attested explained : List Entry}

/-- The comparison is named when all outputs of the compress entries are defined, and what is
attested is named when the output of the comparison is defined as well. -/
theorem Additions.newOutputs (h : Additions first second compared attested explained)
    (new : NewOutputs clauses first.entries)
    (known : ∀ name ∈ outputs first.entries, name ∈ first.aliases.defined) :
    NewOutputs clauses (first.entries ++ compared ++ attested ++ explained) := by
  have afterCompare : NewOutputs clauses (first.entries ++ compared) := by
    rcases h.isCompared with rfl | ⟨a, b, rfl⟩
    · rw [List.append_nil]
      exact new
    · exact new.concat fun _ => ⟨_, rfl, fun again =>
        AliasTable.fresh_not_mem_defined first.aliases "cmp" (known _ again)⟩
  have allKnown : ∀ name ∈ outputs (first.entries ++ compared), name ∈ second.aliases.defined := by
    intro name mem
    rw [Plan.outputs_append, List.mem_append] at mem
    exact h.defined name (mem.imp_left (known name))
  have afterAttest : NewOutputs clauses (first.entries ++ compared ++ attested) := by
    rcases h.isAttested with rfl | ⟨artifact, rfl⟩
    · rw [List.append_nil]
      exact afterCompare
    · exact afterCompare.concat fun _ => ⟨_, rfl, fun again =>
        AliasTable.fresh_not_mem_defined second.aliases "att" (allKnown _ again)⟩
  rcases h.isExplained with rfl | ⟨target, rfl, -⟩
  · rw [List.append_nil]
    exact afterAttest
  · exact afterAttest.concat fun generated => generated.elim

theorem Additions.op_eq (h : Additions first second compared attested explained) :
    (∀ entry ∈ compared, entry.op = .compare) ∧ (∀ entry ∈ attested, entry.op = .attest) ∧
      ∀ entry ∈ explained, entry.op = .explain := by
  refine ⟨?_, ?_, ?_⟩
  · rcases h.isCompared with rfl | ⟨a, b, rfl⟩
    · exact List.forall_mem_nil _
    · exact List.forall_mem_singleton.2 rfl
  · rcases h.isAttested with rfl | ⟨artifact, rfl⟩
    · exact List.forall_mem_nil _
    · exact List.forall_mem_singleton.2 rfl
  · rcases h.isExplained with rfl | ⟨target, rfl, -⟩
    · exact List.forall_mem_nil _
    · exact List.forall_mem_singleton.2 rfl

/-- Every entry stands among those of its operation. -/
theorem Additions.sorted (h : Additions first second compared attested explained)
    (compressed : ∀ entry ∈ first.entries, entry.op = .compress) {entry : Entry}
    (mem : entry ∈ first.entries ++ compared ++ attested ++ explained) :
    match entry.op with
    | .compress => entry ∈ first.entries
    | .compare => entry ∈ compared
    | .attest => entry ∈ attested
    | .explain => entry ∈ explained := by
  have ops := h.op_eq
  rw [List.mem_append, List.mem_append, List.mem_append] at mem
  rcases mem with ((mem | mem) | mem) | mem
  · rw [compressed entry mem]
    exact mem
  · rw [ops.1 entry mem]
    exact mem
  · rw [ops.2.1 entry mem]
    exact mem
  · rw [ops.2.2 entry mem]
    exact mem

theorem Additions.op_ne_compress (h : Additions first second compared attested explained) :
    ∀ entry ∈ compared ++ attested ++ explained, entry.op ≠ .compress := by
  have ops := h.op_eq
  intro entry mem
  rw [List.mem_append, List.mem_append] at mem
  rcases mem with (mem | mem) | mem
  · rw [ops.1 entry mem]
    decide
  · rw [ops.2.1 entry mem]
    decide
  · rw [ops.2.2 entry mem]
    decide

/-- What is explained is defined, or nothing is defined. What is attested is not defined. -/
theorem Additions.explained_ne_attested (h : Additions first second compared attested explained)
    (recent : second.aliases.last.getD "unknown" ≠ (second.aliases.fresh "att").1) :
    ∀ a ∈ attested, ∀ e ∈ explained, ∃ name target,
      a.out = some name ∧ e.inputs.get? "ref" = some target ∧ target ≠ name := by
  rcases h.isAttested with rfl | ⟨artifact, rfl⟩
  · exact List.forall_mem_nil _
  · rcases h.isExplained with rfl | ⟨target, rfl, known⟩
    · exact fun a _ => List.forall_mem_nil _
    · refine List.forall_mem_singleton.2 (List.forall_mem_singleton.2 ?_)
      refine ⟨_, target, rfl, rfl, ?_⟩
      rcases known with defined | rfl
      · intro same
        rw [same] at defined
        exact AliasTable.fresh_not_mem_defined second.aliases "att" defined
      · exact recent

end

section
variable {options : Options} {text : String} {first second : Context}

/-- With a compress clause the name that was defined last is known, and without one both names are
those of the empty table. -/
theorem last_ne_attested
    (hcompress : (compressClauses text).foldlM (compress options) .empty = .ok first)
    (hcompare : perform options text first .compare = .ok second) :
    second.aliases.last.getD "unknown" ≠ (second.aliases.fresh "att").1 := by
  by_cases none : compressClauses text = []
  · rw [none, List.foldlM_nil] at hcompress
    obtain rfl : Context.empty = first := Except.ok.inj hcompress
    obtain rfl := perform_compare_empty hcompare
    decide
  · obtain ⟨name, defined, last⟩ := (linked_of_compare none hcompress hcompare).last
    rw [last, Option.getD_some]
    intro same
    rw [same] at defined
    exact AliasTable.fresh_not_mem_defined second.aliases "att" defined

theorem op_of_compress
    (hcompress : (compressClauses text).foldlM (compress options) .empty = .ok first) :
    ∀ entry ∈ first.entries, entry.op = .compress := by
  obtain ⟨-, -, -, ops⟩ := foldlM_compress_ok hcompress
  intro entry mem
  have found := List.mem_map_of_mem (f := Entry.op) mem
  rw [ops] at found
  exact List.eq_of_mem_replicate found

end

/-- The compress entries come first, one for each clause. A generated name differs from the outputs
of all earlier entries. If no clause gives a name, the results are named `r`, `r2`, `r3` and so on.
What is explained is never what is put out by attesting. -/
theorem compile_output_names {options : Options} {text : String} {plan : Plan}
    (run : compile options text = .ok plan) :
    (∀ (index : Nat) (clause : CompressClause),
      (compressClauses (normalize text))[index]? = some clause →
      ∃ entry, plan.entries[index]? = some entry ∧ IsEntryOf clause entry) ∧
    (∀ (index : Nat) (entry : Entry), plan.entries[index]? = some entry → entry.op = .compress →
      index < (compressClauses (normalize text)).length) ∧
    (∀ (index : Nat) (entry : Entry), plan.entries[index]? = some entry →
      Generated (compressClauses (normalize text)) index entry →
      ∃ name, entry.out = some name ∧
        ∀ earlier ∈ plan.entries.take index, earlier.out ≠ some name) ∧
    ((∀ clause ∈ compressClauses (normalize text), clause.name = none) →
      (plan.entries.filter (·.op = .compress)).map Entry.out =
        (List.range (compressClauses (normalize text)).length).map
          fun index => some (numberedName index)) ∧
    (∀ attested ∈ plan.entries, attested.op = .attest →
      ∀ explained ∈ plan.entries, explained.op = .explain →
        ∃ name target, attested.out = some name ∧
          explained.inputs.get? "ref" = some target ∧ target ≠ name) := by
  obtain ⟨first, second, compared, attested, explained, hcompress, hcompare, entries, additions⟩ :=
    exists_additions run
  have start : Compressed (compressClauses (normalize text))
      (compressClauses (normalize text)).length first :=
    (compressed_empty _).run [] _ rfl hcompress
  have ops := op_of_compress hcompress
  have others := additions.op_ne_compress
  have parts : plan.entries = first.entries ++ (compared ++ attested ++ explained) := by
    rw [entries, List.append_assoc, List.append_assoc, List.append_assoc]
  refine ⟨?_, ?_, ?_, ?_, ?_⟩
  · intro index clause found
    have within := (List.getElem?_eq_some_iff.1 found).1
    rw [parts, List.getElem?_append_left (start.length.symm ▸ within)]
    exact start.entries index clause within found
  · intro index entry found op
    by_contra beyond
    rw [parts, List.getElem?_append_right (by rw [start.length]; omega)] at found
    exact others entry (List.mem_of_getElem? found) op
  · intro index entry found generated
    have new := additions.newOutputs start.new start.known
    rw [← entries] at new
    obtain ⟨name, out, free⟩ := new index entry found generated
    refine ⟨name, out, fun earlier mem same => free ?_⟩
    exact Plan.mem_outputs.2 ⟨earlier, mem, same⟩
  · intro unnamed
    have numbered := numbered_empty.run unnamed hcompress
    have kept : first.entries.filter (·.op = .compress) = first.entries := by
      refine List.filter_eq_self.2 fun entry mem => ?_
      exact decide_eq_true (ops entry mem)
    have dropped : (compared ++ attested ++ explained).filter (·.op = .compress) = [] := by
      refine List.filter_eq_nil_iff.2 fun entry mem => ?_
      exact fun op => others entry mem (of_decide_eq_true op)
    rw [parts, List.filter_append, kept, dropped, List.append_nil, numbered.outs, Nat.zero_add]
  · intro a mem op e mem' op'
    rw [entries] at mem mem'
    have here := additions.sorted ops mem
    have there := additions.sorted ops mem'
    rw [op] at here
    rw [op'] at there
    exact additions.explained_ne_attested (last_ne_attested hcompress hcompare) a here e there

/-- The given name is the first one that attesting would generate. -/
def takenName : String := "compress payload 'a' as att compress payload 'b' attest explain att"

def noNames : String := "Compress payload 'a' compress payload 'b'"

theorem exists_entry_of_op {entries : List Entry} {index : Nat} {op : Plan.Op}
    (found : (entries.map Entry.op)[index]? = some op) :
    ∃ entry : Entry, entries[index]? = some entry ∧ entry.op = op := by
  rw [List.getElem?_map] at found
  exact Option.map_eq_some_iff.1 found

/-- The name that is generated for attesting is neither the given one nor the one that is explained.
The other text gives no name. -/
theorem compile_output_names_takenName :
    (∃ plan, compile {} takenName = .ok plan ∧
      ∃ (attested explained : Entry) (name target : String),
        plan.entries[2]? = some attested ∧ attested.op = .attest ∧ attested.out = some name ∧
        (∀ earlier ∈ plan.entries.take 2, earlier.out ≠ some name) ∧
        plan.entries[3]? = some explained ∧ explained.op = .explain ∧
        explained.inputs.get? "ref" = some target ∧ attested.out ≠ some target) ∧
    ∃ plan, compile {} noNames = .ok plan ∧
      (plan.entries.filter (·.op = .compress)).map Entry.out = [some "r", some "r2"] := by
  constructor
  · obtain ⟨plan, run, ops⟩ : ∃ plan, compile {} takenName = .ok plan ∧
        plan.entries.map Entry.op = [.compress, .compress, .attest, .explain] :=
      exists_plan_of_ops (by decide +kernel)
    obtain ⟨-, -, new, -, separate⟩ := compile_output_names run
    obtain ⟨attested, here, attests⟩ : ∃ entry : Entry, plan.entries[2]? = some entry ∧
        entry.op = .attest := exists_entry_of_op (by rw [ops]; rfl)
    obtain ⟨explained, there, explains⟩ : ∃ entry : Entry, plan.entries[3]? = some entry ∧
        entry.op = .explain := exists_entry_of_op (by rw [ops]; rfl)
    have generated : Generated (compressClauses (normalize takenName)) 2 attested := by
      rw [Generated, attests]
      trivial
    obtain ⟨name, out, free⟩ := new 2 attested here generated
    obtain ⟨_, target, out', ref, ne⟩ := separate attested (List.mem_of_getElem? here) attests
      explained (List.mem_of_getElem? there) explains
    refine ⟨plan, run, attested, explained, name, target, here, attests, out, free, there,
      explains, ref, ?_⟩
    rw [out']
    exact fun same => ne (Option.some.inj same).symm
  · obtain ⟨plan, run, -⟩ : ∃ plan, compile {} noNames = .ok plan ∧
        plan.entries.map Entry.op = [.compress, .compress] :=
      exists_plan_of_ops (by decide +kernel)
    have names : (compressClauses (normalize noNames)).map (·.name) = [none, none] := by
      decide +kernel
    have length : (compressClauses (normalize noNames)).length = 2 := by
      rw [← List.length_map, names]
      rfl
    have unnamed : ∀ clause ∈ compressClauses (normalize noNames), clause.name = none := by
      intro clause mem
      have found := List.mem_map_of_mem (f := CompressClause.name) mem
      rw [names] at found
      exact List.eq_of_mem_replicate (n := 2) found
    have numbered := (compile_output_names run).2.2.2.1 unnamed
    rw [length] at numbered
    exact ⟨plan, run, numbered.trans (by decide)⟩

end PlainVerse.Command
