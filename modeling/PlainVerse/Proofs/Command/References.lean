import PlainVerse.Proofs.Command.Names
import PlainVerse.Proofs.Command.Passes
import PlainVerse.Proofs.Plan.Dangling

/-!
# References of compiled plans

The passes look names up in the alias table, while the audit of a finished plan looks at the
outputs of its entries. The two agree because every name that is defined has been put out by an
entry. After a compress clause all references of a compiled plan are therefore resolved. Without
one, nothing is defined, and exactly the two stand-ins for missing names dangle.
-/
namespace PlainVerse.Command

open Plan (Entry outputs isLiteral danglingFrom)

/-- An entry takes literals if it compresses, and references otherwise. -/
def LiteralInputs (entry : Entry) : Prop :=
  ∀ input ∈ entry.inputs.entries, isLiteral input.2 = true ↔ entry.op = .compress

theorem isLiteral_mark (payload : String) : isLiteral (Plan.literalMark ++ payload) = true := by
  rw [isLiteral, String.toList_append, List.isPrefixOf_iff_prefix]
  exact List.prefix_append _ _

theorem literalInputs_compressEntry (options : Options) (payload : String) (seed : UInt64)
    (name : String) : LiteralInputs (compressEntry options payload seed name) := by
  intro input hinput
  have only : input = ("payload", Plan.literalMark ++ payload) := List.mem_singleton.1 hinput
  subst only
  exact iff_of_true (isLiteral_mark payload) rfl

/-- An entry of another operation has to refer to values that are no literals. -/
theorem literalInputs_of_plain {entry : Entry} (op : entry.op ≠ .compress)
    (plain : ∀ input ∈ entry.inputs.entries, isLiteral input.2 = false) :
    LiteralInputs entry := by
  intro input hinput
  exact iff_of_false (by simp [plain input hinput]) op

theorem compareEntry_inputs (a b name : String) :
    (compareEntry a b name).inputs.entries = [("a", a), ("b", b)] := rfl

theorem attestEntry_inputs (artifact name : String) :
    (attestEntry artifact name).inputs.entries = [("artifact", artifact)] := rfl

theorem explainEntry_inputs (target : String) :
    (explainEntry target).inputs.entries = [("ref", target)] := rfl

/-- What the alias table knows agrees with what the entries put out. -/
structure Grounded (context : Context) : Prop where
  names : ∀ name ∈ context.aliases.defined, IsName name
  bound : ∀ name ∈ context.aliases.defined, name ∈ outputs context.entries
  literal : ∀ entry ∈ context.entries, LiteralInputs entry
  resolved : danglingFrom 0 [] context.entries = []

/-- In addition something has been compressed, so that a name can always be found. -/
structure Linked (context : Context) : Prop extends Grounded context where
  last : ∃ name ∈ context.aliases.defined, context.aliases.last = some name
  lastCompress : ∃ name ∈ context.aliases.defined, context.lastCompress = some name
  compressed : ∃ entry ∈ context.entries, entry.op = .compress

theorem grounded_empty : Grounded .empty where
  names := by simp [Context.empty, AliasTable.empty]
  bound := by simp [Context.empty, AliasTable.empty]
  literal := by simp [Context.empty]
  resolved := rfl

/-- One more entry keeps a context grounded if it refers to defined names only, and if it puts out
the name that is defined with it. -/
theorem Grounded.concat {context next : Context} {entry : Entry} (h : Grounded context)
    (entries : next.entries = context.entries ++ [entry])
    (defined : ∀ name ∈ next.aliases.defined,
      name ∈ context.aliases.defined ∨ (IsName name ∧ entry.out = some name))
    (literal : LiteralInputs entry)
    (known : ∀ input ∈ entry.inputs.entries, isLiteral input.2 = false →
      input.2 ∈ context.aliases.defined) : Grounded next where
  names := by
    intro name hname
    rcases defined name hname with old | new
    · exact h.names name old
    · exact new.1
  bound := by
    intro name hname
    rw [entries, Plan.outputs_append, List.mem_append]
    rcases defined name hname with old | new
    · exact Or.inl (h.bound name old)
    · exact Or.inr (Plan.mem_outputs.2 ⟨entry, List.mem_singleton_self entry, new.2⟩)
  literal := by
    intro other hother
    rw [entries, List.mem_append, List.mem_singleton] at hother
    rcases hother with old | rfl
    · exact h.literal other old
    · exact literal
  resolved := by
    have nothing : Plan.unbound (0 + context.entries.length) ([] ++ outputs context.entries)
        entry = [] := by
      apply Plan.unbound_eq_nil
      intro input hinput plain
      exact h.bound _ (known input hinput plain)
    rw [entries, Plan.danglingFrom_concat, h.resolved, nothing, List.append_nil]

theorem isName_resultName {context : Context} {clause : CompressClause}
    (given : ∀ name, clause.name = some name → IsName name) :
    IsName (resultName context.aliases clause.name).1 := by
  cases hname : clause.name with
  | some name => exact given name hname
  | none => exact isName_fresh (by decide +kernel) context.aliases

theorem resultName_defined (aliases : AliasTable) (given : Option String) :
    (resultName aliases given).2.defined = aliases.defined := by
  cases given <;> rfl

theorem Grounded.compress {options : Options} {context next : Context} {clause : CompressClause}
    (h : Grounded context) (given : ∀ name, clause.name = some name → IsName name)
    (run : compress options context clause = .ok next) : Linked next := by
  obtain ⟨-, seed, -, rfl⟩ := compress_eq_ok.1 run
  have self : (resultName context.aliases clause.name).1 ∈
      (compressed options context clause seed).aliases.defined :=
    AliasTable.mem_define.2 (Or.inr rfl)
  refine ⟨h.concat rfl ?_ (literalInputs_compressEntry _ _ _ _) ?_, ⟨_, self, rfl⟩,
    ⟨_, self, rfl⟩, ⟨_, List.mem_append_right _ (List.mem_singleton_self _), rfl⟩⟩
  · intro name hname
    rcases AliasTable.mem_define.1 hname with old | rfl
    · exact Or.inl (resultName_defined context.aliases clause.name ▸ old)
    · exact Or.inr ⟨isName_resultName given, rfl⟩
  · intro input hinput plain
    have literal := (literalInputs_compressEntry options clause.payload seed _ input hinput).2 rfl
    exact absurd literal (by simp [plain])

/-- All compress clauses together: one of them is enough to link a context. -/
theorem Grounded.compressAll {options : Options} {context next : Context}
    {clauses : List CompressClause} (h : Grounded context)
    (given : ∀ clause ∈ clauses, ∀ name, clause.name = some name → IsName name)
    (run : clauses.foldlM (Command.compress options) context = .ok next) (some : clauses ≠ []) :
    Linked next := by
  induction clauses generalizing context with
  | nil => exact absurd rfl some
  | cons clause rest ih =>
      rw [List.foldlM_cons, bind_eq_ok] at run
      obtain ⟨middle, first, run⟩ := run
      have linked := h.compress (given clause List.mem_cons_self) first
      cases rest with
      | nil =>
          obtain rfl : middle = next := Except.ok.inj run
          exact linked
      | cons second rest =>
          exact ih linked.toGrounded (fun c hc => given c (List.mem_cons_of_mem _ hc)) run
            (List.cons_ne_nil _ _)

theorem Linked.not_isLiteral {context : Context} (h : Linked context) {name : String}
    (known : name ∈ context.aliases.defined) : isLiteral name = false :=
  Command.not_isLiteral (h.names name known)

theorem Linked.compare {context next : Context} {text : String} (h : Linked context)
    (run : compare context text = .ok next) : Linked next := by
  obtain ⟨pair, found, rfl⟩ := compare_eq_ok.1 run
  have known : pair.1 ∈ context.aliases.defined ∧ pair.2 ∈ context.aliases.defined := by
    obtain ⟨recent, hrecent, last⟩ := h.lastCompress
    rcases compared_eq_ok found with both | ⟨same, equal⟩
    · exact both
    · obtain rfl : recent = pair.1 := Option.some.inj (last.symm.trans same)
      exact ⟨hrecent, equal ▸ hrecent⟩
  have inputs : ∀ name, ∀ input ∈ (compareEntry pair.1 pair.2 name).inputs.entries,
      input.2 ∈ context.aliases.defined := by
    intro name input hinput
    rw [compareEntry_inputs, List.mem_cons, List.mem_singleton] at hinput
    rcases hinput with rfl | rfl
    · exact known.1
    · exact known.2
  refine ⟨h.concat rfl ?_ (literalInputs_of_plain nofun ?_)
    (fun input hinput _ => inputs _ input hinput), ?_, ?_, ?_⟩
  · intro name hname
    rcases AliasTable.mem_define.1 hname with old | rfl
    · exact Or.inl old
    · exact Or.inr ⟨isName_fresh (by decide +kernel) _, rfl⟩
  · intro input hinput
    exact h.not_isLiteral (inputs _ input hinput)
  · exact ⟨_, AliasTable.mem_define.2 (Or.inr rfl), rfl⟩
  · obtain ⟨recent, hrecent, last⟩ := h.lastCompress
    exact ⟨recent, AliasTable.mem_define.2 (Or.inl hrecent), last⟩
  · obtain ⟨entry, hentry, op⟩ := h.compressed
    exact ⟨entry, List.mem_append_left _ hentry, op⟩

/-- An entry with one reference to a defined name, which defines nothing, keeps a context
linked. -/
theorem Linked.refer {context next : Context} {entry : Entry} {input reference : String}
    (h : Linked context) (entries : next.entries = context.entries ++ [entry])
    (defined : next.aliases.defined = context.aliases.defined)
    (last : next.aliases.last = context.aliases.last)
    (lastCompress : next.lastCompress = context.lastCompress)
    (op : entry.op ≠ .compress) (inputs : entry.inputs.entries = [(input, reference)])
    (known : reference ∈ context.aliases.defined) : Linked next := by
  have only : ∀ other ∈ entry.inputs.entries, other.2 = reference := by
    intro other hother
    rw [inputs, List.mem_singleton] at hother
    rw [hother]
  refine ⟨h.concat entries (fun name hname => Or.inl (defined ▸ hname))
    (literalInputs_of_plain op ?_) ?_, ?_, ?_, ?_⟩
  · intro other hother
    rw [only other hother]
    exact h.not_isLiteral known
  · intro other hother _
    rw [only other hother]
    exact known
  · rw [defined, last]
    exact h.last
  · rw [defined, lastCompress]
    exact h.lastCompress
  · obtain ⟨compressed, hmem, hop⟩ := h.compressed
    exact ⟨compressed, entries ▸ List.mem_append_left _ hmem, hop⟩

theorem Linked.attest {context : Context} (h : Linked context) : Linked (attest context) := by
  obtain ⟨recent, hrecent, last⟩ := h.lastCompress
  have artifact : context.lastCompress.getD "r1" ∈ context.aliases.defined := by
    rw [last]
    exact hrecent
  exact h.refer rfl rfl rfl rfl nofun (attestEntry_inputs _ _) artifact

theorem Linked.explain {context next : Context} {text : String} (h : Linked context)
    (run : explain context text = .ok next) : Linked next := by
  obtain ⟨target, found, rfl⟩ := explain_eq_ok.1 run
  have known : target ∈ context.aliases.defined := by
    obtain ⟨recent, hrecent, last⟩ := h.last
    rcases explained_eq_ok found with named | default
    · exact named
    · rw [default, last]
      exact hrecent
  exact h.refer rfl rfl rfl rfl nofun (explainEntry_inputs _) known

/-- Before anything is attested, a text with a compress clause has led to a linked context. -/
theorem linked_of_compare {options : Options} {text : String} {first second : Context}
    (some : compressClauses text ≠ [])
    (hcompress : (compressClauses text).foldlM (Command.compress options) .empty = .ok first)
    (hcompare : perform options text first .compare = .ok second) : Linked second := by
  have linked : Linked first := grounded_empty.compressAll
    (fun clause mem name => isName_of_mem_compressClausesIn _ mem) hcompress some
  rw [perform, passed_eq_ok] at hcompare
  rcases hcompare with ⟨-, ran⟩ | ⟨-, rfl⟩
  · exact linked.compare ran
  · exact linked

/-- A text with a compress clause leads to a linked context. -/
theorem linked_of_compile {options : Options} {text : String} {plan : Plan}
    (run : compile options text = .ok plan) (some : compressClauses (normalize text) ≠ []) :
    ∃ context, Linked context ∧ plan.entries = context.entries := by
  obtain ⟨-, first, second, final, hcompress, hcompare, hexplain, rfl⟩ := compile_eq_ok.1 run
  have linked : Linked second := linked_of_compare some hcompress hcompare
  have linked : Linked (if Family.attest.isPresent (normalize text) then Command.attest second
      else second) := by
    split
    · exact linked.attest
    · exact linked
  rw [perform, passed_eq_ok] at hexplain
  refine ⟨final, ?_, rfl⟩
  rcases hexplain with ⟨-, ran⟩ | ⟨-, rfl⟩
  · exact linked.explain ran
  · exact linked

/-- The entries of a plan that has nothing to refer to. -/
def standIns (attested explained : Bool) : List Entry :=
  (if attested then [attestEntry "r1" "att"] else []) ++
    (if explained then [explainEntry "unknown"] else [])

theorem standIns_append (attested explained : Bool) :
    standIns attested false ++ standIns false explained = standIns attested explained := by
  cases attested <;> cases explained <;> rfl

theorem attest_empty_entries : (attest .empty).entries = standIns true false := by
  have name : (AliasTable.empty.fresh "att").1 = "att" := by decide
  change [attestEntry "r1" (AliasTable.empty.fresh "att").1] = _
  rw [name]
  rfl

/-- While no name is defined, only the stand-in can be explained. -/
theorem perform_explain_undefined {options : Options} {text : String} {context final : Context}
    (defined : context.aliases.defined = []) (last : context.aliases.last = none)
    (run : perform options text context .explain = .ok final) :
    final.entries = context.entries ++ standIns false (Family.explain.isPresent text) := by
  rw [perform, passed_eq_ok] at run
  rcases run with ⟨present, ran⟩ | ⟨absent, rfl⟩
  · obtain ⟨target, found, rfl⟩ := explain_eq_ok.1 ran
    rcases explained_eq_ok found with known | rfl
    · rw [defined] at known
      cases known
    · rw [last, present]
      rfl
  · rw [absent]
    exact (List.append_nil _).symm

/-- While nothing has been compressed, nothing can be compared. -/
theorem perform_compare_empty {options : Options} {text : String} {next : Context}
    (run : perform options text .empty .compare = .ok next) : next = .empty := by
  rw [perform, passed_eq_ok] at run
  rcases run with ⟨-, ran⟩ | ⟨-, rfl⟩
  · obtain ⟨pair, found, -⟩ := compare_eq_ok.1 ran
    rcases compared_eq_ok found with ⟨known, -⟩ | ⟨recent, -⟩
    · cases known
    · cases recent
  · rfl

theorem entries_of_compile {options : Options} {text : String} {plan : Plan}
    (run : compile options text = .ok plan) (none : compressClauses (normalize text) = []) :
    plan.entries = standIns (Family.attest.isPresent (normalize text))
      (Family.explain.isPresent (normalize text)) := by
  obtain ⟨-, first, second, final, hcompress, hcompare, hexplain, rfl⟩ := compile_eq_ok.1 run
  rw [none, List.foldlM_nil] at hcompress
  obtain rfl : Context.empty = first := Except.ok.inj hcompress
  obtain rfl := perform_compare_empty hcompare
  cases attested : Family.attest.isPresent (normalize text) with
  | true =>
      rw [attested, if_pos rfl] at hexplain
      rw [perform_explain_undefined rfl rfl hexplain, attest_empty_entries, standIns_append]
  | false =>
      rw [attested, if_neg Bool.false_ne_true] at hexplain
      rw [perform_explain_undefined rfl rfl hexplain]
      exact List.nil_append _

/-- What is reported about the entry of an operation, if it is among the operations of a plan. -/
def reportOn (ops : List Plan.Op) (op : Plan.Op) (input reference : String) :
    List Plan.Dangling :=
  ((ops.idxOf? op).map fun index => ⟨index, input, reference⟩).toList

theorem standIns_literalInputs (attested explained : Bool) :
    ∀ entry ∈ standIns attested explained, LiteralInputs entry := by
  unfold LiteralInputs
  cases attested <;> cases explained <;> decide

theorem standIns_op (attested explained : Bool) :
    Plan.Op.compress ∉ (standIns attested explained).map Entry.op ∧
      Plan.Op.compare ∉ (standIns attested explained).map Entry.op ∧
      ((standIns attested explained).map Entry.op).Nodup := by
  cases attested <;> cases explained <;> decide

theorem standIns_dangling (attested explained : Bool) :
    danglingFrom 0 [] (standIns attested explained) =
      reportOn ((standIns attested explained).map Entry.op) .attest "artifact" "r1" ++
        reportOn ((standIns attested explained).map Entry.op) .explain "ref" "unknown" := by
  cases attested <;> cases explained <;> decide

/-- Compress entries take literals and all other entries take references. A plan that compresses
something has no dangling reference. In any other plan nothing is compared, and the reports are
exactly those about the stand-ins of an attest entry and of an explain entry. -/
theorem compile_references {options : Options} {text : String} {plan : Plan}
    (run : compile options text = .ok plan) :
    (∀ entry ∈ plan.entries, ∀ input ∈ entry.inputs.entries,
      (isLiteral input.2 = true ↔ entry.op = .compress)) ∧
    (.compress ∈ plan.entries.map Entry.op → plan.dangling = []) ∧
    (.compress ∉ plan.entries.map Entry.op →
      .compare ∉ plan.entries.map Entry.op ∧ (plan.entries.map Entry.op).Nodup ∧
        plan.dangling =
          reportOn (plan.entries.map Entry.op) .attest "artifact" "r1" ++
            reportOn (plan.entries.map Entry.op) .explain "ref" "unknown") := by
  by_cases none : compressClauses (normalize text) = []
  · have entries := entries_of_compile run none
    generalize Family.attest.isPresent (normalize text) = attested at entries
    generalize Family.explain.isPresent (normalize text) = explained at entries
    have ops := standIns_op attested explained
    rw [Plan.dangling, entries]
    exact ⟨standIns_literalInputs _ _, fun compressed => absurd compressed ops.1,
      fun _ => ⟨ops.2.1, ops.2.2, standIns_dangling _ _⟩⟩
  · obtain ⟨context, linked, entries⟩ := linked_of_compile run none
    rw [Plan.dangling, entries]
    refine ⟨linked.literal, fun _ => linked.resolved, fun absent => ?_⟩
    obtain ⟨entry, hentry, op⟩ := linked.compressed
    exact absurd (List.mem_map.2 ⟨entry, hentry, op⟩) absent

theorem exists_plan_of_ops {options : Options} {text : String} {ops : List Plan.Op}
    (h : (compile options text).toOption.map (·.entries.map Entry.op) = some ops) :
    ∃ plan, compile options text = .ok plan ∧ plan.entries.map Entry.op = ops := by
  cases run : compile options text with
  | error e =>
      rw [run] at h
      cases h
  | ok plan =>
      rw [run] at h
      exact ⟨plan, rfl, Option.some.inj h⟩

/-- A text without a compress clause compiles, and both stand-ins dangle. The name `x` of the other
text is compared and explained before it is given, and nothing dangles. -/
theorem compile_references_attest_explain :
    (∃ plan, compile {} "Attest, EXPLAIN" = .ok plan ∧
      plan.dangling = [⟨0, "artifact", "r1"⟩, ⟨1, "ref", "unknown"⟩]) ∧
    ∃ plan, compile {} "explain x compare x with x compress payload 'a' as x" = .ok plan ∧
      plan.entries.map Entry.op = [.compress, .compare, .explain] ∧ plan.dangling = [] := by
  constructor
  · obtain ⟨plan, run, ops⟩ : ∃ plan, compile {} "Attest, EXPLAIN" = .ok plan ∧
        plan.entries.map Entry.op = [.attest, .explain] := exists_plan_of_ops (by decide +kernel)
    have reports := (compile_references run).2.2
    rw [ops] at reports
    exact ⟨plan, run, (reports (by decide)).2.2⟩
  · obtain ⟨plan, run, ops⟩ : ∃ plan,
        compile {} "explain x compare x with x compress payload 'a' as x" = .ok plan ∧
        plan.entries.map Entry.op = [.compress, .compare, .explain] :=
      exists_plan_of_ops (by decide +kernel)
    refine ⟨plan, run, ops, (compile_references run).2.1 ?_⟩
    rw [ops]
    decide

end PlainVerse.Command
