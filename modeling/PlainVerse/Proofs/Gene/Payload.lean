import PlainVerse.Proofs.Gene.Conservation
import PlainVerse.Proofs.Json.FreeValues
import PlainVerse.Proofs.Json.Parsing
import PlainVerse.Proofs.Poem.JsonPhrase
import PlainVerse.Proofs.Poem.Recognition
import PlainVerse.Proofs.Poem.TriggerBody

/-!
# From the row of a signal to its payload

A signal is followed from its row in a poem to its place in the written document. Where a row stands
decides where the document has it: as a gene of its own, among the statements of the gene that was
declared last, or in the body of a trigger's gene. The topic and the payload that are found there
are those of the row. A payload that is the compact text of a value is that value again, and one
that is no JSON is the string of its text.
-/
namespace PlainVerse

namespace Json

/-- One step into a value. -/
inductive Selector where
  | member (name : String)
  | item (n : Nat)
deriving DecidableEq, Repr

/-- What is found at the end of a path. -/
def resolve? : Json → List Selector → Option Json
  | json, [] => some json
  | .object members, .member name :: rest => (members.lookup name).bind (resolve? · rest)
  | .array items, .item n :: rest => items[n]?.bind (resolve? · rest)
  | _, _ :: _ => none

theorem resolve?_append (json : Json) (first second : List Selector) :
    json.resolve? (first ++ second) = (json.resolve? first).bind (resolve? · second) := by
  induction first generalizing json with
  | nil => simp [resolve?]
  | cons selector rest ih =>
      cases json with
      | array items =>
          cases selector with
          | member name => rfl
          | item n => simp only [List.cons_append, resolve?, Option.bind_assoc, ih]
      | object members =>
          cases selector with
          | member name => simp only [List.cons_append, resolve?, Option.bind_assoc, ih]
          | item n => rfl
      | _ => cases selector <;> rfl

end Json

namespace Gene

open Poem Json

/-- Where a statement stands in a program: among its statements, or among the children of one of
them. Positions are counted from zero. -/
inductive Position where
  | top (n : Nat)
  | inside (n child : Nat)
deriving DecidableEq, Repr

def Position.statement? (statements : List Statement) : Position → Option Statement
  | .top n => statements[n]?
  | .inside n child => statements[n]?.bind (·.children[child]?)

/-- Where a document has a signal: as a gene, among the statements of a gene, or in the body of a
gene. -/
inductive Slot where
  | alone (gene : Nat)
  | listed (gene entry : Nat)
  | inside (gene entry : Nat)
deriving DecidableEq, Repr

namespace Slot

def genePath (gene : Nat) : List Selector := [.member "genes", .item gene]

/-- The path to the gene or the entry. -/
def path : Slot → List Selector
  | .alone gene => genePath gene
  | .listed gene entry => genePath gene ++ [.member "x-statements", .item entry]
  | .inside gene entry => genePath gene ++ [.member "x-body", .item entry]

def topic : Slot → List Selector
  | .alone gene => genePath gene ++ [.member "x-topic"]
  | slot => slot.path ++ [.member "topic"]

def payload : Slot → List Selector
  | .alone gene => genePath gene ++ [.member "x-payload"]
  | slot => slot.path ++ [.member "payload"]

end Slot

/-- How many genes come before the one that the statement at position `n` makes. -/
def geneIndex (statements : List Statement) (n : Nat) : Nat :=
  (statements.zipIdx.take n).countP fun place => (geneAt? statements place.2 place.1).isSome

/-- How many entries come before that of the statement at position `n` in the gene it belongs to. -/
def entryIndex (statements : List Statement) (n : Nat) : Nat :=
  (statements.zipIdx.take n).countP fun place =>
    isTakenIn statements place.2 place.1 &&
      decide (owner? statements place.2 = owner? statements n)

/-- Where the signal at a position arrives. Behind a declaration it belongs to a gene. -/
def slotOf? (statements : List Statement) : Position → Option Slot
  | .top n =>
      if (statements.take n).any isDeclaration then
        (owner? statements n).map fun owner =>
          .listed (geneIndex statements owner) (entryIndex statements n)
      else some (.alone (geneIndex statements n))
  | .inside n child => some (.inside (geneIndex statements n) child)

theorem getElem?_filterMap_countP {α β : Type} {f : α → Option β} {list : List α} {n : Nat} {a : α}
    {b : β} (here : list[n]? = some a) (made : f a = some b) :
    (list.filterMap f)[(list.take n).countP fun x => (f x).isSome]? = some b := by
  induction list generalizing n with
  | nil => cases here
  | cons first rest ih =>
      cases n with
      | zero =>
          obtain rfl : first = a := Option.some.inj here
          simp [made]
      | succ n =>
          have later := ih here
          cases found : f first with
          | none => simpa [found] using later
          | some other => simpa [found] using later

theorem getElem?_filter_countP {α : Type} {p : α → Bool} {list : List α} {n : Nat} {a : α}
    (here : list[n]? = some a) (kept : p a = true) :
    (list.filter p)[(list.take n).countP p]? = some a := by
  have guarded : Option.guard p a = some a := Option.guard_eq_some_iff.2 ⟨rfl, kept⟩
  simpa using getElem?_filterMap_countP here guarded

section
variable {program : Program} {n : Nat}

/-- A statement makes the gene at its index. -/
theorem gene_geneIndex (options : Options) {statement : Statement} {gene : Gene}
    (here : program.statements[n]? = some statement)
    (made : geneAt? program.statements n statement = some gene) :
    (Document.ofProgram program options).genes[geneIndex program.statements n]? = some gene := by
  have place : program.statements.zipIdx[n]? = some (statement, n) := by simp [here]
  have found := getElem?_filterMap_countP
    (f := fun place : Statement × Nat => geneAt? program.statements place.2 place.1) place made
  have genes : (Document.ofProgram program options).genes = bundling options program.statements :=
    genes_foldl options _
  rw [genes, bundling, geneIndex, List.getElem?_append_left]
  · exact found
  · exact (List.getElem?_eq_some_iff.1 found).1

/-- The owner of a statement behind a declaration is a declaration. -/
theorem exists_owner {statements : List Statement}
    (begun : (statements.take n).any isDeclaration = true) :
    ∃ owner line decl, owner? statements n = some owner ∧
      statements[owner]? = some (.gene line decl) := by
  cases last : (declarations (statements.take n)).getLast? with
  | none =>
      rw [List.getLast?_eq_none_iff, declarations_eq_nil, begun] at last
      cases last
  | some owner =>
      obtain ⟨⟨statement, k⟩, place, rfl⟩ := List.mem_map.1 (List.mem_of_getLast? last)
      obtain ⟨place, declares⟩ := List.mem_filter.1 place
      have here := List.mk_mem_zipIdx_iff_getElem?.1 place
      cases statement with
      | gene line decl =>
          rw [List.getElem?_take, Option.ite_none_right_eq_some] at here
          exact ⟨k, line, decl, by rw [owner?, last]; rfl, here.2⟩
      | _ => cases declares

/-- The entry of a statement that is taken in stands in the gene of its owner, at its index. -/
theorem member_entryIndex {statements : List Statement} {statement : Statement} {owner : Nat}
    (here : statements[n]? = some statement) (taken : isTakenIn statements n statement = true)
    (owned : owner? statements n = some owner) :
    (members statements (some owner))[entryIndex statements n]? = some statement := by
  have place : statements.zipIdx[n]? = some (statement, n) := by simp [here]
  have kept : (isTakenIn statements n statement && decide (owner? statements n = some owner)) =
      true := by simp [taken, owned]
  have found := getElem?_filter_countP (p := fun place : Statement × Nat =>
    isTakenIn statements place.2 place.1 && decide (owner? statements place.2 = some owner))
    place kept
  rw [members, entryIndex, owned, List.getElem?_map, found]
  rfl

end

theorem resolve?_item {α : Type} {f : α → Json} {list : List α} {n : Nat} {a : α}
    (here : list[n]? = some a) : (Json.array (list.map f)).resolve? [.item n] = some (f a) := by
  simp [resolve?, here]

theorem resolve?_genes {document : Document} {n : Nat} {gene : Gene}
    (here : document.genes[n]? = some gene) :
    document.toJson.resolve? (Slot.genePath n) = some gene.toJson :=
  resolve?_item here

theorem resolve?_signal {gene : Gene} {topic : String} {payload : Json}
    (detail : gene.detail = .signal topic payload) :
    gene.toJson.resolve? [.member "x-topic"] = some (.string topic) ∧
      gene.toJson.resolve? [.member "x-payload"] = some payload := by
  rw [toJson, detail]
  split <;> exact ⟨rfl, rfl⟩

theorem resolve?_statements {gene : Gene} {n : Nat} {entry : Summary}
    (here : gene.statements[n]? = some entry) :
    gene.toJson.resolve? [.member "x-statements", .item n] = some entry.toJson := by
  have nonempty : gene.statements.isEmpty = false := by
    rw [List.isEmpty_eq_false_iff]
    exact List.ne_nil_of_mem (List.mem_of_getElem? here)
  rw [toJson, nonempty]
  exact resolve?_item here

theorem resolve?_body {gene : Gene} {n : Nat} {entry : Summary}
    (here : gene.body[n]? = some entry) :
    gene.toJson.resolve? [.member "x-body", .item n] = some entry.toJson := by
  rw [body] at here
  rw [toJson]
  cases detail : gene.detail with
  | trigger condition entries =>
      rw [detail] at here
      split <;> exact resolve?_item here
  | _ => rw [detail] at here; cases here

/-- The topic and the payload at a slot of a written document. -/
structure Shows (document : Json) (slot : Slot) (topic : String) (payload : Json) : Prop where
  topic : document.resolve? slot.topic = some (.string topic)
  payload : document.resolve? slot.payload = some payload

theorem shows_of_entry {document : Json} {slot : Slot} {line : Nat} {topic : String}
    {payload : Json}
    (names : slot.topic = slot.path ++ [.member "topic"] ∧
      slot.payload = slot.path ++ [.member "payload"])
    (entry : document.resolve? slot.path = some (Summary.toJson ⟨line, .emit topic payload⟩)) :
    Shows document slot topic payload := by
  constructor
  · rw [names.1, resolve?_append, entry]
    rfl
  · rw [names.2, resolve?_append, entry]
    rfl

section
variable {program : Program} {n line : Nat} {topic : String} {payload : Option String}

theorem shows_alone (options : Options)
    (here : program.statements[n]? = some (.emit line topic payload))
    (first : (program.statements.take n).any isDeclaration = false) :
    Shows (Document.ofProgram program options).toJson (.alone (geneIndex program.statements n))
      topic (payloadValue payload) := by
  have made : geneAt? program.statements n (.emit line topic payload) =
      some (emit topic payload) := by simp [geneAt?, first]
  have gene := resolve?_genes (gene_geneIndex options here made)
  have detail : (emit topic payload).detail = .signal topic (payloadValue payload) := rfl
  obtain ⟨found, value⟩ := resolve?_signal detail
  constructor
  · rw [Slot.topic, resolve?_append, gene, Option.bind_some, found]
  · rw [Slot.payload, resolve?_append, gene, Option.bind_some, value]

theorem shows_listed (options : Options)
    (here : program.statements[n]? = some (.emit line topic payload))
    (begun : (program.statements.take n).any isDeclaration = true) {owner : Nat}
    (owned : owner? program.statements n = some owner) :
    Shows (Document.ofProgram program options).toJson
      (.listed (geneIndex program.statements owner) (entryIndex program.statements n))
      topic (payloadValue payload) := by
  obtain ⟨other, header, decl, same, declaration⟩ := exists_owner begun
  obtain rfl : owner = other := Option.some.inj (owned.symm.trans same)
  have taken : isTakenIn program.statements n (.emit line topic payload) = true := by
    simp [isTakenIn, opOf?, begun]
  have gene := resolve?_genes (gene_geneIndex options declaration rfl)
  have entry : (filled decl (members program.statements (some owner))).statements[entryIndex
      program.statements n]? = some (.ofStatement (.emit line topic payload)) := by
    have member := member_entryIndex here taken owned
    simp [filled, member]
  apply shows_of_entry ⟨rfl, rfl⟩
  rw [Slot.path, resolve?_append, gene, Option.bind_some]
  exact resolve?_statements entry

/-- What stands inside a statement stands inside a trigger. -/
theorem shows_inside (options : Options) {statement : Statement} {child : Nat}
    (outer : program.statements[n]? = some statement)
    (here : statement.children[child]? = some (.emit line topic payload)) :
    Shows (Document.ofProgram program options).toJson
      (.inside (geneIndex program.statements n) child) topic (payloadValue payload) := by
  cases statement with
  | trigger header condition children =>
      have gene := resolve?_genes (gene_geneIndex options outer rfl)
      have entry : (trigger condition children).body[child]? =
          some (.ofStatement (.emit line topic payload)) := by
        have listed : (trigger condition children).body = children.map .ofStatement := rfl
        have inside : children[child]? = some (.emit line topic payload) := here
        simp [listed, inside]
      apply shows_of_entry ⟨rfl, rfl⟩
      rw [Slot.path, resolve?_append, gene, Option.bind_some]
      exact resolve?_body entry
  | _ => cases here

/-- The signal at a position arrives where it belongs, with its topic and its payload. -/
theorem exists_slot (options : Options) {position : Position}
    (here : position.statement? program.statements = some (.emit line topic payload)) :
    ∃ slot, slotOf? program.statements position = some slot ∧
      Shows (Document.ofProgram program options).toJson slot topic (payloadValue payload) := by
  cases position with
  | top n =>
      cases begun : (program.statements.take n).any isDeclaration with
      | false => exact ⟨_, by simp [slotOf?, begun], shows_alone options here begun⟩
      | true =>
          obtain ⟨owner, -, -, owned, -⟩ := exists_owner begun
          exact ⟨_, by simp [slotOf?, begun, owned], shows_listed options here begun owned⟩
  | inside n child =>
      obtain ⟨statement, outer, here⟩ := Option.bind_eq_some_iff.1 here
      exact ⟨_, rfl, shows_inside options outer here⟩

end

/-- What a payload stands for in a document. The compact text of a value stands for the value, if
the value can be read without a fixed shape, and a text that is no JSON stands for itself. -/
inductive Denotes : String → Json → Prop
  | value {json : Json} (free : json.IsFree) (exactly : json.All NoFloat)
      (shallow : json.depth ≤ depthLimit) : Denotes json.compact json
  | text {text : String} (phrase : IsPhrase text.toList) (foreign : Json.read? text = none) :
      Denotes text (.string text)

namespace Denotes
variable {text : String} {value : Json}

theorem isPhrase (denotes : Denotes text value) : IsPhrase text.toList := by
  cases denotes with
  | value _ exactly _ => exact isPhrase_compact exactly
  | text phrase _ => exact phrase

theorem payloadValue_eq (denotes : Denotes text value) : payloadValue (some text) = value := by
  cases denotes with
  | value free exactly shallow =>
      have read : Json.read? value.compact = some value := by
        rw [Json.read?, compact, Written.read?_render Layout.blank_compact exactly,
          Option.bind_some, free.ofWritten?_written exactly shallow]
      rw [payloadValue, read, Option.getD_some]
  | text _ foreign => rw [payloadValue, foreign, Option.getD_none]

end Denotes

section
variable {source : String} {cap : UInt8} {line : Line} {topic text : String}

/-- The row of a signal makes the signal, at the top level and inside a trigger. -/
theorem reads_signal (signal : IsSignal topic (some text))
    (row : line.text = ("emit \"" ++ topic ++ "\" " ++ text).toList) :
    openingOf cap line = .single (.emit line.number topic (some text)) ∧
      childOf cap line = .emit line.number topic (some text) := by
  have keyword : line.text =
      Style.keyworded "emit" ('"' :: (topic.toList ++ '"' :: Style.payload (some text))) := by
    simp [row, Style.keyworded, Style.payload]
  constructor
  · rw [openingOf, keyword, refuses_keyworded beginsWith_name? "emit" (by decide),
      emit?_spelled signal]
  · rw [childOf, keyword, emit?_spelled signal]

theorem line_eq_of_number {other : Line} (mem : line ∈ Line.ofSource source)
    (hother : other ∈ Line.ofSource source) (same : other.number = line.number) :
    other = line := by
  have first := (Line.mem_ofSource.1 mem).2
  have second := (Line.mem_ofSource.1 hother).2
  rw [same, first] at second
  obtain ⟨number, raw⟩ := other
  cases Option.some.inj second
  cases same
  rfl

theorem mem_node_lines (mem : line ∈ Line.ofSource source) (filled : line.isEmpty = false) :
    line.number ∈ (parse source cap).nodes.map Statement.line ↔
      ¬ SwallowedAt source cap line.number := by
  have number : line.number ∈ (Line.ofSource source).map Line.number := List.mem_map_of_mem mem
  rw [parse_node_lines, List.mem_filter, ← Line.numbers_ofSource]
  simp [number, (nonBlankAt_number mem).2 filled]

/-- What stands inside a statement of a poem stands inside a trigger, at an indented line. -/
theorem exists_line_of_inside {outer child : Statement}
    (mem : outer ∈ (parse source cap).statements) (inside : child ∈ outer.children) :
    ∃ other ∈ Line.ofSource source, child = childOf cap other ∧ 0 < other.indent := by
  cases outer with
  | trigger number condition children =>
      have reads := statementsOf_reads cap (Line.ofSource source)
      have flat := isFlat_of_reads reads
      have node := (perm_nodesOf flat).mem_iff.2 (List.mem_append_left _ mem)
      exact reads.exists_line_of_child node inside
  | _ => cases inside

/-- A signal that is a node of the poem has a position, which is at the top level if its line is not
indented. The node was made from a line of this number, and there is only one such line. -/
theorem exists_position (mem : line ∈ Line.ofSource source) {statement : Statement}
    (opening : openingOf cap line = .single statement) (child : childOf cap line = statement)
    (node : line.number ∈ (parse source cap).nodes.map Statement.line) :
    ∃ position : Position, position.statement? (parse source cap).statements = some statement ∧
      (line.indent = 0 → ∃ n, position = .top n) := by
  have reads := statementsOf_reads cap (Line.ofSource source)
  obtain ⟨found, hfound, number⟩ := List.mem_map.1 node
  have split := (perm_nodesOf (isFlat_of_reads reads)).mem_iff.1 hfound
  rcases List.mem_append.1 split with top | inside
  · obtain ⟨other, hother, same, made⟩ := reads.eq_of_opening found top
    obtain rfl := line_eq_of_number mem hother (same.trans number)
    obtain rfl := made statement opening
    obtain ⟨n, here⟩ := List.getElem?_of_mem top
    exact ⟨.top n, here, fun _ => ⟨n, rfl⟩⟩
  · obtain ⟨outer, houter, hchild⟩ := List.mem_flatMap.1 inside
    obtain ⟨other, hother, rfl, deep⟩ := exists_line_of_inside houter hchild
    obtain rfl := line_eq_of_number mem hother ((childOf_line cap other).symm.trans number)
    obtain ⟨n, place⟩ := List.getElem?_of_mem houter
    obtain ⟨m, here⟩ := List.getElem?_of_mem hchild
    refine ⟨.inside n m, ?_, fun level => by omega⟩
    exact Option.bind_eq_some_iff.2 ⟨outer, place, child ▸ here⟩

theorem mem_nodes_of_position {statements : List Statement} {position : Position}
    {statement : Statement} (flat : ∀ statement ∈ statements, IsFlat statement)
    (here : position.statement? statements = some statement) :
    statement ∈ Statement.nodesOf statements := by
  apply (perm_nodesOf flat).mem_iff.2
  cases position with
  | top n => exact List.mem_append_left _ (List.mem_of_getElem? here)
  | inside n child =>
      obtain ⟨outer, place, inside⟩ := Option.bind_eq_some_iff.1 here
      apply List.mem_append_right
      exact List.mem_flatMap.2 ⟨outer, List.mem_of_getElem? place, List.mem_of_getElem? inside⟩

/-- A row that holds a signal is read as this signal, unless a gene above swallows it, and as
nothing else. Wherever the signal stands in the poem, the document has its topic and what its
payload denotes at the slot of that position. A row that is not indented stands at the top level. -/
theorem signal_arrives (options : Options) {value : Json} (mem : line ∈ Line.ofSource source)
    (nonempty : topic ≠ "") (unquoted : '"' ∉ topic.toList) (oneRow : '\n' ∉ topic.toList)
    (denotes : Denotes text value)
    (row : line.text = ("emit \"" ++ topic ++ "\" " ++ text).toList) :
    let program := parse source cap
    let signal := Statement.emit line.number topic (some text)
    let document := (Document.ofProgram program options).toJson
    (signal ∈ program.nodes ↔ ¬ SwallowedAt source cap line.number) ∧
      (∀ node ∈ program.nodes, node.line = line.number → node = signal) ∧
      (signal ∈ program.nodes → ∃ position : Position,
        position.statement? program.statements = some signal ∧
          (line.indent = 0 → ∃ n, position = .top n)) ∧
      ∀ position : Position, position.statement? program.statements = some signal →
        ∃ slot, slotOf? program.statements position = some slot ∧
          Shows document slot topic value := by
  intro program signal document
  have spellable : IsSignal topic (some text) :=
    ⟨⟨by simpa using nonempty, Text.forall_mem_bne unquoted⟩, oneRow, fun _ same =>
      Option.some.inj same ▸ denotes.isPhrase⟩
  obtain ⟨opening, child⟩ : openingOf cap line = .single signal ∧ childOf cap line = signal :=
    reads_signal spellable row
  have filled : line.isEmpty = false := by simp [Line.isEmpty, row]
  have node_iff : line.number ∈ program.nodes.map Statement.line ↔ _ := mem_node_lines mem filled
  have position_of := exists_position mem opening child
  have flat := isFlat_of_reads (statementsOf_reads cap (Line.ofSource source))
  have mem_of_node : line.number ∈ program.nodes.map Statement.line → signal ∈ program.nodes := by
    intro node
    obtain ⟨position, here, -⟩ := position_of node
    exact mem_nodes_of_position flat here
  refine ⟨⟨fun h => ?_, fun h => ?_⟩, fun node hnode number => ?_, fun h => ?_,
    fun position here => ?_⟩
  · exact node_iff.1 (List.mem_map_of_mem h)
  · exact mem_of_node (node_iff.2 h)
  · have here := mem_of_node (List.mem_map.2 ⟨node, hnode, number⟩)
    exact List.inj_on_of_nodup_map (parse_lines_nodup source cap) hnode here number
  · exact position_of (List.mem_map_of_mem h)
  · have arrives := exists_slot options here
    rwa [denotes.payloadValue_eq] at arrives

end

/-- A signal above the declaration of a gene, one below it and one inside a trigger. The first has
a value with a line feed and a quote in it, the second a text that breaks off within a value, and
the third a string with blanks at its ends. -/
def scatteredSignals : String :=
  "\n".intercalate ["emit \"a b\" \x7b\"k\":[-1,\"\\n\\\"\"]\x7d", "gene g:", "  desc: d", "",
    "emit \" t\" [1, ", "when rain:", "\t emit \"deep\" \" x \""]

theorem signal_arrives_scattered :
    let document := (Document.ofProgram (parse scatteredSignals 7) {}).toJson
    (∃ slot, Shows document slot "a b"
      (.object [("k", .array [.number (.int (-1)), .string "\n\""])])) ∧
    (∃ slot, Shows document slot " t" (.string "[1,")) ∧
    (∃ slot, Shows document slot "deep" (.string " x ")) := by
  intro document
  have lines : ([⟨1, "emit \"a b\" \x7b\"k\":[-1,\"\\n\\\"\"]\x7d".toList⟩,
      ⟨5, "emit \" t\" [1, ".toList⟩, ⟨7, "\t emit \"deep\" \" x \"".toList⟩] : List Line).Forall
        fun line => line ∈ Line.ofSource scatteredSignals ∧
          ¬ SwallowedAt scatteredSignals 7 line.number := by decide +kernel
  obtain ⟨first, second, third⟩ := lines
  have arrives : ∀ (line : Line) (topic text : String) (value : Json), Denotes text value →
      line ∈ Line.ofSource scatteredSignals ∧ ¬ SwallowedAt scatteredSignals 7 line.number →
      (topic ≠ "" ∧ '"' ∉ topic.toList ∧ '\n' ∉ topic.toList ∧
        line.text = ("emit \"" ++ topic ++ "\" " ++ text).toList) →
      ∃ slot, Shows document slot topic value := by
    rintro line topic text value denotes ⟨mem, outside⟩ ⟨nonempty, unquoted, oneRow, row⟩
    obtain ⟨node, -, position_of, slot_of⟩ :=
      @signal_arrives scatteredSignals 7 line topic text {} value mem nonempty unquoted oneRow
        denotes row
    obtain ⟨position, here, -⟩ := position_of (node.2 outside)
    obtain ⟨slot, -, shows⟩ := slot_of position here
    exact ⟨slot, shows⟩
  refine ⟨?_, ?_, ?_⟩
  · exact arrives _ _ _ _ (.value (by decide) (by decide) (by decide)) first (by decide +kernel)
  · exact arrives _ _ _ _ (.text (by decide) (by decide +kernel)) second (by decide +kernel)
  · exact arrives _ _ _ _ (.value (by decide) (by decide) (by decide)) third (by decide +kernel)

end Gene
end PlainVerse
