import PlainVerse.Proofs.Poem.Reading
import PlainVerse.Proofs.Poem.Rows
import Mathlib.Logic.Relation

/-!
# The last directive counts

What a gene is declared with depends, for each of the four keys, on the last row of its block that
has the key, and on no other row. So rows with different keys may change places, and rows without a
key that is known may come and go, as long as they are not empty.
-/
namespace PlainVerse.Poem

open Text

/-- The key and the value of a row: what stands before the first colon of its text, trimmed, and
what stands after it. -/
def directive? (row : List Char) : Option (String × List Char) :=
  (splitOnce? ':' (trim row)).map fun (key, value) => (String.ofList (trim key), value)

def key? (row : List Char) : Option String := (directive? row).map Prod.fst

/-- What a row says for a key. -/
def value? (key : String) (row : List Char) : Option (List Char) :=
  ((directive? row).filter fun directive => directive.1 = key).map Prod.snd

theorem value?_of_no_colon (key : String) {row : List Char}
    (none : splitOnce? ':' (trim row) = none) : value? key row = Option.none := by
  rw [value?, directive?, none]
  rfl

theorem value?_of_colon (key : String) {row front value : List Char}
    (split : splitOnce? ':' (trim row) = some (front, value)) :
    value? key row = if String.ofList (trim front) = key then some value else none := by
  rw [value?, directive?, split, Option.map_some, Option.filter_some]
  by_cases same : String.ofList (trim front) = key
  · simp [same]
  · simp [same]

theorem key?_of_value? {key : String} {row value : List Char} (said : value? key row = some value) :
    key? row = some key := by
  obtain ⟨directive, found, -⟩ := Option.map_eq_some_iff.1 said
  obtain ⟨own, same⟩ := Option.filter_eq_some_iff.1 found
  rw [key?, own, Option.map_some, of_decide_eq_true same]

/-- What the last row with a key says for it. -/
def lastValue? (key : String) (rows : List (List Char)) : Option (List Char) :=
  (rows.filterMap (value? key)).getLast?

theorem lastValue?_append (key : String) (first second : List (List Char)) :
    lastValue? key (first ++ second) = (lastValue? key second).or (lastValue? key first) := by
  rw [lastValue?, List.filterMap_append, List.getLast?_append]
  rfl

theorem lastValue?_singleton (key : String) (row : List Char) :
    lastValue? key [row] = value? key row := by
  rw [lastValue?]
  cases value : value? key row <;> simp [value]

theorem lastValue?_cons (key : String) (row : List Char) (rest : List (List Char)) :
    lastValue? key (row :: rest) = (lastValue? key rest).or (value? key row) := by
  rw [← List.singleton_append, lastValue?_append, lastValue?_singleton]

/-- The keys that are known. -/
def directiveKeys : List String := ["desc", "cmd", "inputs", "outputs"]

namespace GeneDecl

/-- A gene after the values that are found for the four keys, if any, have replaced its own. -/
def updated (gene : GeneDecl) (found : String → Option (List Char)) : GeneDecl where
  name := gene.name
  desc := ((found "desc").map directiveValue).or gene.desc
  cmd := ((found "cmd").map directiveValue).or gene.cmd
  inputs := ((found "inputs").map directiveList).getD gene.inputs
  outputs := ((found "outputs").map directiveList).getD gene.outputs

theorem updated_updated (gene : GeneDecl) (first second : String → Option (List Char)) :
    (gene.updated first).updated second =
      gene.updated fun key => (second key).or (first key) := by
  have either : ∀ (key : String) (old : Option String),
      ((second key).map directiveValue).or (((first key).map directiveValue).or old) =
        (((second key).or (first key)).map directiveValue).or old := by
    intro key old
    cases second key <;> rfl
  have list : ∀ (key : String) (old : List String),
      ((second key).map directiveList).getD (((first key).map directiveList).getD old) =
        (((second key).or (first key)).map directiveList).getD old := by
    intro key old
    cases second key <;> rfl
  simp only [updated, either, list]

/-- No key but the four is asked for. -/
theorem updated_congr (gene : GeneDecl) {first second : String → Option (List Char)}
    (same : ∀ key ∈ directiveKeys, first key = second key) :
    gene.updated first = gene.updated second := by
  simp only [directiveKeys, List.forall_mem_cons] at same
  simp only [updated, same]

/-- One row says something for its own key only. -/
theorem withDirective_eq (gene : GeneDecl) (line : Line) :
    gene.withDirective line = gene.updated (value? · line.raw) := by
  unfold withDirective
  cases split : splitOnce? ':' line.text with
  | none =>
      have none : ∀ key, value? key line.raw = none := fun key =>
        value?_of_no_colon key split
      simp only [updated, none]
      rfl
  | some parts =>
      obtain ⟨before, value⟩ := parts
      have found : ∀ key, value? key line.raw =
          if String.ofList (trim before) = key then some value else none := fun key =>
        value?_of_colon key split
      simp only [updated, found]
      generalize String.ofList (trim before) = own
      split
      · simp
      · simp
      · simp
      · simp
      · rename_i desc cmd inputs outputs
        rw [if_neg desc, if_neg cmd, if_neg inputs, if_neg outputs]
        rfl

theorem foldl_withDirective (gene : GeneDecl) (lines : List Line) :
    lines.foldl withDirective gene = gene.updated (lastValue? · (lines.map Line.raw)) := by
  induction lines generalizing gene with
  | nil => rfl
  | cons line rest ih =>
      rw [List.foldl_cons, ih, withDirective_eq, updated_updated]
      simp only [List.map_cons, lastValue?_cons]

/-- A gene is declared with the last value for each key. -/
theorem ofLines_eq (name : String) (lines : List Line) :
    ofLines name lines = (ofName name).updated (lastValue? · (lines.map Line.raw)) :=
  foldl_withDirective (ofName name) lines

end GeneDecl

/-- Two neighbours with different keys change places, or a row that has no known key is added. -/
inductive Rearranged : List (List Char) → List (List Char) → Prop
  | swap {front rest : List (List Char)} {first second : List Char} :
      key? first ≠ key? second →
      Rearranged (front ++ first :: second :: rest) (front ++ second :: first :: rest)
  | insert {front rest : List (List Char)} {row : List Char} :
      trim row ≠ [] → '\n' ∉ row → (∀ key ∈ key? row, key ∉ directiveKeys) →
      Rearranged (front ++ rest) (front ++ row :: rest)

theorem lastValue?_rearranged {block other : List (List Char)} (h : Rearranged block other)
    {key : String} (known : key ∈ directiveKeys) : lastValue? key other = lastValue? key block := by
  cases h with
  | @swap front rest first second different =>
      have apart : value? key first = none ∨ value? key second = none := by
        cases said : value? key first with
        | none => exact Or.inl rfl
        | some value =>
            refine Or.inr (Option.eq_none_iff_forall_ne_some.2 fun other said' => ?_)
            exact different ((key?_of_value? said).trans (key?_of_value? said').symm)
      simp only [lastValue?_append, lastValue?_cons, Option.or_assoc]
      rcases apart with none | none
      · rw [none, Option.none_or, Option.none_or]
      · rw [none, Option.none_or, Option.none_or]
  | @insert front rest row filled single idle =>
      have silent : value? key row = none := by
        rw [Option.eq_none_iff_forall_ne_some]
        exact fun value said => idle key (key?_of_value? said) known
      rw [lastValue?_append, lastValue?_append, lastValue?_cons, silent, Option.or_none]

/-- Rows that can stand in the block of a gene. -/
def AreFilled (block : List (List Char)) : Prop := ∀ row ∈ block, trim row ≠ [] ∧ '\n' ∉ row

theorem areFilled_rearranged {block other : List (List Char)} (h : Rearranged block other) :
    AreFilled block ↔ AreFilled other := by
  cases h with
  | swap different =>
      simp only [AreFilled, List.forall_mem_append, List.forall_mem_cons]
      tauto
  | insert filled single idle =>
      simp only [AreFilled, List.forall_mem_append, List.forall_mem_cons]
      tauto

/-- Whatever is done to a block step by step, it stays a block and says the same. -/
theorem rearranged_spec {block other : List (List Char)}
    (h : Relation.EqvGen Rearranged block other) :
    (AreFilled block ↔ AreFilled other) ∧
      ∀ key ∈ directiveKeys, lastValue? key other = lastValue? key block := by
  induction h with
  | rel block other step =>
      exact ⟨areFilled_rearranged step, fun key known => lastValue?_rearranged step known⟩
  | refl block => exact ⟨Iff.rfl, fun _ _ => rfl⟩
  | symm block other _ ih => exact ⟨ih.1.symm, fun key known => (ih.2 key known).symm⟩
  | trans block middle other _ _ first second =>
      exact ⟨first.1.trans second.1,
        fun key known => (second.2 key known).trans (first.2 key known)⟩

/-- What a body is depends on the next line with text, but not on what comes after that. -/
theorem IsBody.of_head? {header : Line} {body after other : List Line}
    (h : IsBody header body after) (same : other.head? = after.head?) :
    IsBody header body other := by
  constructor
  · rw [same]
    exact h.deeper
  · rw [same]
    exact h.absent

theorem head?_append_cons {α : Type} (front : List α) (a : α) (rest rest' : List α) :
    (front ++ a :: rest).head? = (front ++ a :: rest').head? := by
  cases front <;> rfl

/-- The place of a gene: its header, and what is read before it. Whatever block follows, and
whatever comes after the block, is read behind it. -/
structure GenePlace (cap : UInt8) where
  name : String
  front : List Line
  header : Line
  before : List Statement
  text : header.isEmpty = false
  reads : ∀ {block after : List Line} {later : List Statement},
    (∀ line ∈ block, line.isEmpty = false) → (∀ next ∈ after.head?, next.isEmpty = true) →
    Reads cap after later →
    Reads cap (front ++ header :: (block ++ after))
      (before ++ .gene header.number (.ofLines name block) :: later)

/-- A place with more lines in front of it. How these are read does not depend on what comes after
the header. -/
def GenePlace.behind {cap : UInt8} (place : GenePlace cap) (taken : List Line)
    (here : List Statement)
    (step : ∀ {rest : List Line} {later : List Statement},
      Reads cap (place.front ++ place.header :: rest) later →
      Reads cap (taken ++ (place.front ++ place.header :: rest)) (here ++ later)) :
    GenePlace cap where
  name := place.name
  front := taken ++ place.front
  header := place.header
  before := here ++ place.before
  text := place.text
  reads inside stop reads := by
    rw [List.append_assoc, List.append_assoc]
    exact step (place.reads inside stop reads)

/-- A gene among the statements has a place among the lines. -/
theorem Reads.split_gene {cap : UInt8} {lines : List Line} {statements : List Statement}
    (h : Reads cap lines statements) {number : Nat} {decl : GeneDecl}
    (mem : .gene number decl ∈ statements) :
    ∃ (place : GenePlace cap) (block after : List Line),
      lines = place.front ++ place.header :: (block ++ after) ∧ place.header.number = number ∧
      decl = .ofLines place.name block ∧ (∀ line ∈ block, line.isEmpty = false) ∧
      ∀ next ∈ after.head?, next.isEmpty = true := by
  induction h with
  | done => cases mem
  | @blank line rest statements empty reads ih =>
      obtain ⟨place, block, after, rfl, facts⟩ := ih mem
      exact ⟨place.behind [line] [] fun reads => .blank empty reads, block, after, rfl, facts⟩
  | @single line statement rest statements text opening reads ih =>
      rcases List.mem_cons.1 mem with rfl | mem
      · exact absurd rfl (openingOf_single opening).2.2
      · obtain ⟨place, block, after, rfl, facts⟩ := ih mem
        exact ⟨place.behind [line] [statement] fun reads => .single text opening reads, block,
          after, rfl, facts⟩
  | @trigger line condition taken rest statements text opening isBody reads ih =>
      have mem : .gene number decl ∈ statements :=
        (List.mem_cons.1 mem).resolve_left (by simp)
      obtain ⟨place, block, after, rfl, facts⟩ := ih mem
      have body : ∀ rest, IsBody line (nonBlank taken)
          (nonBlank (place.front ++ place.header :: rest)) := by
        intro rest
        apply isBody.of_head?
        rw [nonBlank_append, nonBlank_append, nonBlank_cons_of_not_empty place.text,
          nonBlank_cons_of_not_empty place.text]
        exact head?_append_cons _ _ _ _
      refine ⟨place.behind (line :: taken)
        [.trigger line.number condition ((nonBlank taken).map (childOf cap))]
        fun reads => .trigger text opening (body _) reads, block, after, ?_, facts⟩
      exact congrArg (line :: ·) (List.append_assoc taken place.front _).symm
  | @gene line name own rest statements text opening inside stop reads ih =>
      rcases List.mem_cons.1 mem with here | mem
      · cases here
        let place : GenePlace cap :=
          ⟨name, [], line, [], text, fun inside stop reads => .gene text opening inside stop reads⟩
        exact ⟨place, own, rest, rfl, rfl, rfl, inside, stop⟩
      · obtain ⟨place, block, after, rfl, facts⟩ := ih mem
        have ended : ∀ rest, ∀ next ∈ (place.front ++ place.header :: rest).head?,
            next.isEmpty = true := by
          intro rest
          rw [head?_append_cons _ _ _ (block ++ after)]
          exact stop
        refine ⟨place.behind (line :: own) [.gene line.number (.ofLines name own)]
          fun reads => .gene text opening inside (ended _) reads, block, after, ?_, facts⟩
        exact congrArg (line :: ·) (List.append_assoc own place.front _).symm

def isFilled (row : List Char) : Bool := !(trim row).isEmpty

/-- The rows below a line, up to the first empty one. -/
def blockBelow (source : String) (number : Nat) : List (List Char) :=
  ((rows source).drop number).takeWhile isFilled

/-- The source with another block below a line. -/
def withBlock (source : String) (number : Nat) (block : List (List Char)) : String :=
  ofRows ((rows source).take number ++ (block ++ ((rows source).drop number).dropWhile isFilled))

theorem areFilled_blockBelow (source : String) (number : Nat) :
    AreFilled (blockBelow source number) := by
  intro row mem
  have filled : isFilled row = true := List.mem_takeWhile_imp mem
  have old : row ∈ rows source :=
    List.mem_of_mem_drop ((List.takeWhile_sublist isFilled).subset mem)
  exact ⟨by simpa [isFilled] using filled, not_mem_of_mem_rows old⟩

/-- Numbered rows are numbered wherever they are cut. -/
theorem numbered_eq_append {start : Nat} {rows : List (List Char)} {front after : List Line}
    (split : numbered start rows = front ++ after) :
    front = numbered start (front.map Line.raw) ∧
      after = numbered (start + front.length) (after.map Line.raw) := by
  have raws : rows = front.map Line.raw ++ after.map Line.raw := by
    rw [← List.map_append, ← split, map_raw_numbered]
  rw [raws, numbered_append, List.length_map] at split
  have length : (numbered start (front.map Line.raw)).length = front.length := by
    simp [numbered]
  exact (List.append_inj split length).imp Eq.symm Eq.symm

/-- The lines of a gene's block are the maximal run of rows with text. -/
theorem span_isFilled {block after : List Line} (inside : ∀ line ∈ block, line.isEmpty = false)
    (stop : ∀ next ∈ after.head?, next.isEmpty = true) :
    (block.map Line.raw ++ after.map Line.raw).takeWhile isFilled = block.map Line.raw ∧
      (block.map Line.raw ++ after.map Line.raw).dropWhile isFilled = after.map Line.raw := by
  have filled : ∀ row ∈ block.map Line.raw, isFilled row = true := by
    rw [List.forall_mem_map]
    intro line mem
    exact congrArg not (inside line mem)
  rw [List.takeWhile_append_of_pos filled, List.dropWhile_append_of_pos filled]
  cases after with
  | nil => exact ⟨List.append_nil _, rfl⟩
  | cons next later =>
      have empty : isFilled next.raw = false := congrArg not (stop next rfl)
      simp [empty]

/-- The place of a gene in a source. Its block is the block below it, and the source with another
block there has lines for it at the same place. -/
theorem exists_place {source : String} {cap : UInt8} {number : Nat} {decl : GeneDecl}
    (mem : .gene number decl ∈ (parse source cap).statements) :
    ∃ place : GenePlace cap, place.header.number = number ∧
      decl = (GeneDecl.ofName place.name).updated (lastValue? · (blockBelow source number)) ∧
      ∀ other, AreFilled other → ∃ block after,
        Line.ofSource (withBlock source number other) =
          place.front ++ place.header :: (block ++ after) ∧
        block.map Line.raw = other ∧ ∀ next ∈ after.head?, next.isEmpty = true := by
  obtain ⟨place, block, after, split, rfl, rfl, inside, stop⟩ :=
    (statementsOf_reads cap (Line.ofSource source)).split_gene mem
  have position : place.header.number = 1 + place.front.length :=
    congrArg Line.number (List.cons.inj (numbered_eq_append split).2).1
  rw [List.append_cons] at split
  let upper := (place.front ++ [place.header]).map Line.raw
  have length : upper.length = place.header.number := by
    simp [upper, position, Nat.add_comm]
  have raws : rows source = upper ++ (block.map Line.raw ++ after.map Line.raw) := by
    rw [← List.map_append, ← List.map_append, ← split, Line.ofSource_eq, map_raw_numbered]
  have take : (rows source).take place.header.number = upper := by
    rw [raws, List.take_left' length]
  have drop : (rows source).drop place.header.number =
      block.map Line.raw ++ after.map Line.raw := by
    rw [raws, List.drop_left' length]
  obtain ⟨taken, left⟩ := span_isFilled inside stop
  refine ⟨place, rfl, ?_, fun other filled => ?_⟩
  · rw [blockBelow, drop, taken, GeneDecl.ofLines_eq]
  · refine ⟨numbered (1 + upper.length) other,
      numbered (1 + upper.length + other.length) (after.map Line.raw), ?_, map_raw_numbered _ _, ?_⟩
    · have single : ∀ row ∈ upper ++ (other ++ after.map Line.raw), '\n' ∉ row := by
        have old : ∀ row ∈ rows source, '\n' ∉ row := fun row => not_mem_of_mem_rows
        rw [raws, List.forall_mem_append, List.forall_mem_append] at old
        rw [List.forall_mem_append, List.forall_mem_append]
        exact ⟨old.1, fun row mem => (filled row mem).2, old.2.2⟩
      have nonempty : upper ++ (other ++ after.map Line.raw) ≠ [] := by simp [upper]
      rw [withBlock, take, drop, left, Line.ofSource_eq, rows_ofRows nonempty single,
        numbered_append, numbered_append, ← (numbered_eq_append split).1, List.append_assoc,
        List.singleton_append]
    · intro next found
      cases after with
      | nil => cases found
      | cons line later =>
          obtain rfl := Option.some.inj found
          exact stop line rfl

/-- A gene is declared with what the last row for each key in the block below it says. Rows with
different keys may change places, and rows without a known key may come and go: the same gene is
declared. -/
theorem last_directive_counts {source : String} {cap : UInt8} {number : Nat} {decl : GeneDecl}
    (mem : .gene number decl ∈ (parse source cap).statements) :
    let block := blockBelow source number
    decl =
        { name := decl.name
          desc := (lastValue? "desc" block).map directiveValue
          cmd := (lastValue? "cmd" block).map directiveValue
          inputs := ((lastValue? "inputs" block).map directiveList).getD []
          outputs := ((lastValue? "outputs" block).map directiveList).getD [] } ∧
      ∀ other, Relation.EqvGen Rearranged block other →
        .gene number decl ∈ (parse (withBlock source number other) cap).statements := by
  intro block
  obtain ⟨place, rfl, rfl, again⟩ := exists_place mem
  refine ⟨by simp [GeneDecl.updated, GeneDecl.ofName, block], fun other rearranged => ?_⟩
  obtain ⟨kept, same⟩ := rearranged_spec rearranged
  have filled := kept.1 (areFilled_blockBelow source _)
  obtain ⟨lines, after, split, rfl, stop⟩ := again other filled
  have inside : ∀ line ∈ lines, line.isEmpty = false := by
    intro line mem
    exact List.isEmpty_eq_false_iff.2 (filled line.raw (List.mem_map_of_mem mem)).1
  have reads := place.reads inside stop (statementsOf_reads cap after)
  rw [← split, GeneDecl.ofLines_eq, GeneDecl.updated_congr _ same] at reads
  have whole := reads.eq_statementsOf
  rw [parse, ← whole]
  exact List.mem_append_right _ List.mem_cons_self

/-- A block with a key that comes twice, a value with a colon and a row without a key. The row is
taken away, two rows change places, and a row with an unknown key is added. -/
theorem last_directive_counts_noise :
    let source := "gene g:\ndesc: a:b\nemit\ninputs: p\ndesc: \"c\"\n\nz"
    let decl : GeneDecl := ⟨"g", some "c", none, ["p"], []⟩
    let other := ["desc: a:b".toList, "desc: \"c\"".toList, "inputs: p".toList, "cmds: d".toList]
    .gene 1 decl ∈ (parse source 7).statements ∧
      Relation.EqvGen Rearranged (blockBelow source 1) other ∧
      withBlock source 1 other = "gene g:\ndesc: a:b\ndesc: \"c\"\ninputs: p\ncmds: d\n\nz" ∧
      .gene 1 decl ∈ (parse (withBlock source 1 other) 7).statements := by
  intro source decl other
  have lines : Line.ofSource source =
      ⟨1, "gene g:".toList⟩ :: (Line.ofSource source).tail := by
    decide +kernel
  have opening : openingOf 7 ⟨1, "gene g:".toList⟩ = .gene "g" := rfl
  have declared : GeneDecl.ofLines "g" ((Line.ofSource source).tail.takeWhile (!·.isEmpty)) =
      decl := by
    decide +kernel
  have mem : .gene 1 decl ∈ (parse source 7).statements := by
    rw [parse, lines, statementsOf, if_neg (by decide +kernel), opening, ← declared]
    exact List.mem_cons_self
  have block : blockBelow source 1 =
      ["desc: a:b".toList] ++ "emit".toList :: ["inputs: p".toList, "desc: \"c\"".toList] := by
    decide +kernel
  have removed : Rearranged (["desc: a:b".toList] ++ ["inputs: p".toList, "desc: \"c\"".toList])
      (blockBelow source 1) := by
    rw [block]
    exact .insert (by decide +kernel) (by decide +kernel) (by decide +kernel)
  have swapped : Rearranged (["desc: a:b".toList] ++ ["inputs: p".toList, "desc: \"c\"".toList])
      (["desc: a:b".toList] ++ ["desc: \"c\"".toList, "inputs: p".toList]) :=
    .swap (by decide +kernel)
  have added : Rearranged
      (["desc: a:b".toList, "desc: \"c\"".toList, "inputs: p".toList] ++ []) other :=
    .insert (by decide +kernel) (by decide +kernel) (by decide +kernel)
  have rearranged : Relation.EqvGen Rearranged (blockBelow source 1) other :=
    .trans _ _ _ (.symm _ _ (.rel _ _ removed)) (.trans _ _ _ (.rel _ _ swapped) (.rel _ _ added))
  exact ⟨mem, rearranged, by decide +kernel, (last_directive_counts mem).2 other rearranged⟩

end PlainVerse.Poem
