import PlainVerse.Proofs.Json.Records
import PlainVerse.Proofs.Poem.Spelling

/-!
# What is recognised in written rows

Each recogniser takes the row of its own form apart and gets the parts that the row was written
with. The recognisers that are tried before it refuse the row, since it begins with another keyword.
-/
namespace PlainVerse.Poem

open Text

theorem trim_space (text : List Char) : trim (' ' :: text) = trim text := by
  have blank : ∀ c ∈ [' '], isBlank c = true := forall_mem_of_all (by decide)
  exact trim_blanks_append blank text

theorem IsTrimmed.trim_eq {text : List Char} (trimmed : IsTrimmed text) : trim text = text :=
  trimmed.bare.dropEnds_eq

theorem IsRun.stops {p q : Char → Bool} {text : List Char} (run : IsRun p text)
    (apart : ∀ c, p c = true → q c = false) (rest : List Char) : Stops q (text ++ rest) := by
  apply Stops.append_right _ run.nonempty
  exact fun c head => apart c (run.inside c (List.mem_of_mem_head? head))

/-- Quotes around a text are dropped with the blanks around them. -/
theorem dropEnds_quoted {p : Char → Bool} (quote : p '"' = true) {text : List Char}
    (trimmed : IsTrimmed text) (bare : Bare p text) (quotes : Bool) :
    dropEnds p (trim (Style.quoted quotes text)) = text := by
  cases quotes with
  | false => rw [Style.quoted, if_neg Bool.false_ne_true, trimmed.trim_eq, bare.dropEnds_eq]
  | true =>
      have mark : ∀ c ∈ ['"'], p c = true := List.forall_mem_singleton.2 quote
      have solid : Bare isBlank ('"' :: (text ++ ['"'])) :=
        ⟨stops_cons (by decide) _, stops_reverse_append (by decide) (by simp) ('"' :: text)⟩
      rw [Style.quoted, if_pos rfl, trim, solid.dropEnds_eq, ← List.singleton_append,
        dropEnds_of_pos_append mark, dropEnds_append_of_pos mark, bare.dropEnds_eq]

section
variable {α : Type} {f : List Char → α} (blind : ∀ piece, f (' ' :: piece) = f piece)
include blind

theorem map_splitOn_space (text : List Char) :
    ((' ' :: text).splitOn ',').map f = (text.splitOn ',').map f := by
  obtain ⟨first, rest, split⟩ := List.exists_cons_of_ne_nil (List.splitOn_ne_nil ',' text)
  rw [List.splitOn_cons_eq_if_modifyHead, if_neg (by decide), split, List.modifyHead_cons,
    List.map_cons, List.map_cons, blind]

/-- A list is cut at its commas, and the spaces after them do not matter. -/
theorem map_splitOn_commas {pieces : List (List Char)} (nonempty : pieces ≠ [])
    (noComma : ∀ piece ∈ pieces, ',' ∉ piece) :
    ((Style.commas pieces).splitOn ',').map f = pieces.map f := by
  induction pieces with
  | nil => exact absurd rfl nonempty
  | cons piece rest ih =>
      rw [List.forall_mem_cons] at noComma
      cases rest with
      | nil =>
          rw [Style.commas_singleton, List.splitOn_eq_singleton noComma.1]
      | cons next rest =>
          rw [Style.commas_cons_cons, List.splitOn_append_cons_self, List.map_append,
            map_splitOn_space blind, ih (List.cons_ne_nil _ _) noComma.2,
            List.splitOn_eq_singleton noComma.1]
          rfl

end

theorem stops_commas {p : Char → Bool} {pieces : List (List Char)}
    (filled : ∀ piece ∈ pieces, piece ≠ []) (first : ∀ piece ∈ pieces.head?, Stops p piece) :
    Stops p (Style.commas pieces) := by
  cases pieces with
  | nil => exact stops_nil p
  | cons piece rest =>
      have here : Stops p piece := first piece rfl
      cases rest with
      | nil => rwa [Style.commas_singleton]
      | cons next rest =>
          rw [Style.commas_cons_cons]
          exact here.append_right (filled piece List.mem_cons_self) _

theorem stops_commas_reverse {p : Char → Bool} {pieces : List (List Char)}
    (filled : ∀ piece ∈ pieces, piece ≠ [])
    (last : ∀ piece ∈ pieces.getLast?, Stops p piece.reverse) :
    Stops p (Style.commas pieces).reverse := by
  induction pieces with
  | nil => exact stops_nil p
  | cons piece rest ih =>
      rw [List.forall_mem_cons] at filled
      cases rest with
      | nil =>
          rw [Style.commas_singleton]
          exact last piece rfl
      | cons next rest =>
          rw [List.getLast?_cons_cons] at last
          have later : Style.commas (next :: rest) ≠ [] := by
            cases rest with
            | nil => simpa using filled.2
            | cons => simp [Style.commas_cons_cons]
          have split : Style.commas (piece :: next :: rest) =
              (piece ++ [',', ' ']) ++ Style.commas (next :: rest) := by
            simp [Style.commas_cons_cons]
          rw [split]
          exact stops_reverse_append (ih filled.2 last) later _

theorem afterWord?_keyworded {word : String} {rest : List Char} (stop : Stops isBlank rest) :
    afterWord? word.toList (Style.keyworded word rest) = some rest :=
  afterWord?_space word.toList stop

theorem refuses_keyworded {α : Type} {accept : List Char → Option α} {word : List Char}
    (begins : BeginsWith accept word) (other : String)
    (apart : ¬ word <+: other.toList ∧ ¬ other.toList <+: word) (rest : List Char) :
    accept (Style.keyworded other rest) = none :=
  begins.refuses apart _

theorem name?_spelled {name : String} (phrase : IsPhrase name.toList) :
    name? (Style.keyworded "name" name.toList) = some name := by
  simp only [name?, Option.bind_eq_bind, afterWord?_keyworded phrase.bare.1, Option.bind_some,
    ne_eq, phrase.nonempty, not_false_eq_true, if_true, phrase.trim_eq, String.ofList_toList]

theorem payload?_spelled {payload : Option String}
    (phrase : ∀ text ∈ payload, IsPhrase text.toList) :
    payload? (Style.payload payload) = payload := by
  cases payload with
  | none => rfl
  | some text =>
      have phrase := phrase text rfl
      simp only [payload?, Style.payload, Option.bind_eq_bind, afterBlanks?_space phrase.bare.1,
        Option.bind_some, ne_eq, phrase.nonempty, not_false_eq_true, if_true, phrase.trim_eq,
        String.ofList_toList]

theorem emit?_spelled {topic : String} {payload : Option String} (signal : IsSignal topic payload) :
    emit? (Style.keyworded "emit" ('"' :: (topic.toList ++ '"' :: Style.payload payload))) =
      some (topic, payload) := by
  have quote : ∀ rest, Stops isBlank ('"' :: rest) := stops_cons (by decide)
  have mark : ∀ rest, after? ['"'] ('"' :: rest) = some rest := after?_append ['"']
  have stop : Stops (· != '"') ('"' :: Style.payload payload) := stops_cons (by decide) _
  have run := run?_append signal.run.nonempty signal.run.inside stop
  simp only [emit?, Option.bind_eq_bind, afterWord?_keyworded (quote _), Option.bind_some, mark,
    run, payload?_spelled signal.payload, String.ofList_toList]

theorem condition?_spelled {condition : String} (phrase : IsPhrase condition.toList)
    (noColon : ':' ∉ condition.toList) :
    condition? (Style.keyworded "when" (condition.toList ++ [':'])) = some condition := by
  have stop : Stops isBlank (condition.toList ++ [':']) :=
    phrase.bare.1.append_right phrase.nonempty _
  simp only [condition?, Option.bind_eq_bind, afterWord?_keyworded stop, Option.bind_some,
    splitOnce?_append noColon, phrase.trim_eq, ne_eq, phrase.nonempty, not_false_eq_true, if_true,
    String.ofList_toList]

theorem argument?_space (text : List Char) : argument? (' ' :: text) = argument? text := by
  have plain : (' ' != ':') = true := by decide
  have drop : (' ' :: text).dropWhile (· != ':') = text.dropWhile (· != ':') :=
    List.dropWhile_cons_of_pos plain
  have take : (' ' :: text).takeWhile (· != ':') = ' ' :: text.takeWhile (· != ':') :=
    List.takeWhile_cons_of_pos plain
  simp only [argument?, splitOnce?, drop, take]
  cases text.dropWhile (· != ':') with
  | nil => rfl
  | cons colon rest => simp only [Option.map_some, trim_space]

theorem argument?_spelled (style : Style) {entry : String × String} (plain : IsArgument entry) :
    argument? (style.argument entry) = some entry := by
  simp only [argument?, Style.argument, splitOnce?_append plain.noColon, Option.map_some,
    trim_space, plain.key.trim_eq, dropEnds_quoted (by decide) plain.value plain.unquoted,
    String.ofList_toList]

theorem arguments_spelled (style : Style) {args : OrderedMap String}
    (plain : ∀ entry ∈ args.entries, IsArgument entry) (nonempty : args.entries ≠ []) :
    arguments (Style.commas (args.entries.map style.argument)) = args := by
  have noComma : ∀ piece ∈ args.entries.map style.argument, ',' ∉ piece := by
    rw [List.forall_mem_map]
    intro entry mem
    exact style.not_mem_argument (by decide) (by decide) (by decide) (plain entry mem).noComma
  have pieces := map_splitOn_commas argument?_space (mt List.map_eq_nil_iff.1 nonempty) noComma
  have found : (args.entries.map style.argument).map argument? = args.entries.map some := by
    rw [List.map_map]
    exact List.map_congr_left fun entry mem => argument?_spelled style (plain entry mem)
  rw [found] at pieces
  have kept := congrArg (List.filterMap id) pieces
  rw [List.filterMap_map, List.filterMap_map, Function.id_comp, Function.id_comp,
    List.filterMap_some] at kept
  rw [arguments, kept, OrderedMap.ofList_entries]

theorem parenthesized?_spelled {inside : List Char} (nonempty : inside ≠ [])
    (noEnd : ')' ∉ inside) : parenthesized? ('(' :: (inside ++ [')'])) = some inside := by
  have skip : ('(' :: (inside ++ [')'])).dropWhile isBlank = '(' :: (inside ++ [')']) :=
    dropWhile_eq_self (stops_cons (by decide) _)
  have stop : Stops (· != ')') [')'] := stops_cons (by decide) []
  have run := run?_append nonempty (forall_mem_bne noEnd) stop
  have start : after? ['('] ('(' :: (inside ++ [')'])) = some (inside ++ [')']) := after?_append _ _
  simp only [parenthesized?, Option.bind_eq_bind, skip, start, Option.bind_some, run]
  rfl

/-- The arguments are read back. Between empty parentheses nothing is found, as if there were none. -/
theorem parenthesized?_arguments (style : Style) {args : OrderedMap String}
    (plain : ∀ entry ∈ args.entries, IsArgument entry) :
    ((parenthesized? (style.arguments args)).map arguments).getD .empty = args := by
  by_cases none : args.entries = []
  · have empty : args = .empty := OrderedMap.ext none
    have nothing : parenthesized? (style.arguments args) = Option.none := by
      rw [Style.arguments, none]
      split <;> rfl
    rw [nothing, empty]
    rfl
  · have inside : Style.commas (args.entries.map style.argument) ≠ [] := by
      obtain ⟨entry, rest, split⟩ := List.exists_cons_of_ne_nil none
      cases rest <;> simp [split, Style.commas_cons_cons, Style.argument]
    have noEnd : ')' ∉ Style.commas (args.entries.map style.argument) := by
      apply Style.not_mem_commas (by decide) (by decide)
      rw [List.forall_mem_map]
      intro entry mem
      exact style.not_mem_argument (by decide) (by decide) (by decide) (plain entry mem).noEnd
    rw [Style.arguments, if_neg (fun h => none h.1), parenthesized?_spelled inside noEnd,
      Option.map_some, Option.getD_some, arguments_spelled style plain none]

theorem invoke?_spelled (style : Style) {tool : ToolPath} {args : OrderedMap String}
    (call : IsCall tool args) :
    invoke? (Style.keyworded "use" (tool.dotted.toList ++ style.arguments args)) =
      some (.ofDotted tool.dotted, args) := by
  have solid : Stops isBlank (tool.dotted.toList ++ style.arguments args) :=
    call.tool.stops (fun _ => isBlank_of_isToolChar) _
  have stop : Stops isToolChar (style.arguments args) := by
    unfold Style.arguments
    split
    · exact stops_nil _
    · exact stops_cons (by decide) _
  have run := run?_append call.tool.nonempty call.tool.inside stop
  simp only [invoke?, Option.bind_eq_bind, afterWord?_keyworded solid, Option.bind_some, run,
    parenthesized?_arguments style call.args, String.ofList_toList]

theorem run?_colon {text : List Char} (run : IsRun isWord text) (rest : List Char) :
    run? isWord (text ++ ':' :: rest) = some (text, ':' :: rest) :=
  run?_append run.nonempty run.inside (stops_cons (by decide +kernel) rest)

theorem remember?_spelled {key value : String} (word : IsRun isWord key.toList)
    (phrase : IsPhrase value.toList) :
    remember? (Style.keyworded "remember" (key.toList ++ ':' :: ' ' :: value.toList)) =
      some (key, value) := by
  have colon : ∀ rest, after? [':'] (':' :: rest) = some rest := after?_append [':']
  have blank : isBlank ' ' = true := by decide
  have skip : (' ' :: value.toList).dropWhile isBlank = value.toList := by
    rw [List.dropWhile_cons_of_pos blank, dropWhile_eq_self phrase.bare.1]
  simp only [remember?, Option.bind_eq_bind,
    afterWord?_keyworded (word.stops (fun _ => isBlank_of_isWord) _), Option.bind_some,
    run?_colon word, colon, skip, ne_eq, phrase.nonempty, not_false_eq_true, if_true,
    phrase.trim_eq, String.ofList_toList]

theorem geneName?_spelled {name : String} (word : IsRun isWord name.toList) :
    geneName? (Style.keyworded "gene" (name.toList ++ [':'])) = some name := by
  simp only [geneName?, Option.bind_eq_bind,
    afterWord?_keyworded (word.stops (fun _ => isBlank_of_isWord) _), Option.bind_some,
    run?_colon word, after?, if_true, String.ofList_toList]

theorem directiveValue_quoted {text : List Char} (plain : IsDirectiveText text) (quotes : Bool) :
    directiveValue (Style.quoted quotes text) = String.ofList text := by
  rw [directiveValue, dropEnds_quoted (by decide) plain.toIsTrimmed plain.unquoted]

section
variable {items : List String} (plain : AreItems items)
include plain

theorem stops_items {p : Char → Bool} (first : ∀ item ∈ items.head?, Stops p item.toList) :
    Stops p (Style.commas (items.map String.toList)) := by
  apply stops_commas
  · rw [List.forall_mem_map]
    exact fun item mem => (plain.phrase item mem).nonempty
  · simpa using first

theorem stops_items_reverse {p : Char → Bool}
    (last : ∀ item ∈ items.getLast?, Stops p item.toList.reverse) :
    Stops p (Style.commas (items.map String.toList)).reverse := by
  apply stops_commas_reverse
  · rw [List.forall_mem_map]
    exact fun item mem => (plain.phrase item mem).nonempty
  · simpa using last

/-- Brackets are dropped at the ends of the list only, where no item has one. -/
theorem unbracketed_listValue (style : Style) :
    dropWhileEnd (· = ']')
        ((trim (style.listValue (items.map String.toList))).dropWhile (· = '[')) =
      Style.commas (items.map String.toList) := by
  have first := stops_items plain plain.first
  have last := stops_items_reverse plain plain.last
  unfold Style.listValue
  generalize inside_eq : Style.commas (items.map String.toList) = inside at first last ⊢
  split
  · have bare : Bare isBlank ('[' :: (inside ++ [']'])) :=
      ⟨stops_cons (by decide) _, stops_reverse_append (by decide) (by simp) ('[' :: inside)⟩
    have start : ∀ c ∈ ['['], decide (c = '[') = true := by simp
    have close : ∀ c ∈ [']'], decide (c = ']') = true := by simp
    have inner : Stops (· = '[') (inside ++ [']']) := first.append (by decide)
    have outer : ('[' :: (inside ++ [']'])).dropWhile (· = '[') = inside ++ [']'] :=
      inner.dropWhile_eq start
    rw [trim, bare.dropEnds_eq, outer, dropWhileEnd_append_of_pos close,
      dropWhileEnd_eq_self last]
  · have bare : Bare isBlank inside := by
      rw [← inside_eq]
      exact ⟨stops_items plain fun item head =>
          (plain.phrase item (List.mem_of_mem_head? head)).bare.1,
        stops_items_reverse plain fun item tail =>
          (plain.phrase item (List.mem_of_mem_getLast? tail)).bare.2⟩
    rw [trim, bare.dropEnds_eq, dropWhile_eq_self first, dropWhileEnd_eq_self last]

theorem directiveList_spelled (style : Style) :
    directiveList (style.listValue (items.map String.toList)) = items := by
  simp only [directiveList, unbracketed_listValue plain style]
  cases items with
  | nil => rfl
  | cons item rest =>
      have noComma : ∀ piece ∈ (item :: rest).map String.toList, ',' ∉ piece :=
        List.forall_mem_map.2 plain.noComma
      have trimmed : ((item :: rest).map String.toList).map trim =
          (item :: rest).map String.toList := by
        rw [List.map_map]
        exact List.map_congr_left fun item mem => (plain.phrase item mem).trim_eq
      have filled : ((item :: rest).map String.toList).filter (!·.isEmpty) =
          (item :: rest).map String.toList := by
        rw [List.filter_eq_self, List.forall_mem_map]
        intro item mem
        simpa using (plain.phrase item mem).nonempty
      rw [map_splitOn_commas trim_space (by simp) noComma, trimmed, filled, List.map_map]
      simp

end

/-- A directive is cut at the colon after its key. What it says is trimmed at the end already. -/
theorem splitOnce?_directive (n : Nat) {key : String} (phrase : IsPhrase key.toList)
    (noColon : ':' ∉ key.toList) (value : List Char) :
    splitOnce? ':' (trim (Style.spaces n ++ Style.directive key value)) =
      some (key.toList, dropWhileEnd isBlank (' ' :: value)) := by
  have first : Stops isBlank (key.toList ++ ':' :: ' ' :: value) :=
    phrase.bare.1.append_right phrase.nonempty _
  have last : Stops isBlank (key.toList ++ [':']).reverse :=
    stops_reverse_append (by decide) (by simp) _
  have split : key.toList ++ ':' :: ' ' :: value = (key.toList ++ [':']) ++ (' ' :: value) := by
    simp
  rw [trim_blanks_append (Style.isBlank_spaces n), trim, dropEnds, Style.directive,
    dropWhile_eq_self first, split, dropWhileEnd_append last, List.append_assoc]
  exact splitOnce?_append noColon _

namespace GeneDecl

/-- What a gene becomes by a row below its header. -/
def withRow (style : Style) (gene : GeneDecl) (row : List Char) : GeneDecl :=
  gene.withDirective ⟨0, Style.spaces style.directiveIndent ++ row⟩

theorem withRow_directive (style : Style) (gene : GeneDecl) (value : List Char) :
    gene.withRow style (Style.directive "desc" value) =
        { gene with desc := some (directiveValue value) } ∧
      gene.withRow style (Style.directive "cmd" value) =
        { gene with cmd := some (directiveValue value) } ∧
      gene.withRow style (Style.directive "inputs" value) =
        { gene with inputs := directiveList value } ∧
      gene.withRow style (Style.directive "outputs" value) =
        { gene with outputs := directiveList value } := by
  have same : trim (dropWhileEnd isBlank (' ' :: value)) = trim value := by
    rw [trim_dropWhileEnd, trim_space]
  simp only [withRow, withDirective, Line.text, directiveValue, directiveList]
  refine ⟨?_, ?_, ?_, ?_⟩
  all_goals
    rw [splitOnce?_directive _ (by decide) (by decide), ← same]
    rfl

section
variable (style : Style) {key : String}

theorem foldl_textDirective (set : Option String → GeneDecl)
    (step : ∀ value, (set none).withRow style (Style.directive key value) =
      set (some (directiveValue value)))
    {value : Option String} (plain : ∀ text ∈ value, IsDirectiveText text.toList) :
    (style.textDirective key value).foldl (withRow style) (set none) = set value := by
  cases value with
  | none => rfl
  | some text =>
      have found := step (Style.quoted style.quotedDirectives text.toList)
      rwa [directiveValue_quoted (plain text rfl), String.ofList_toList] at found

theorem foldl_listDirective (set : List String → GeneDecl)
    (step : ∀ value, (set []).withRow style (Style.directive key value) =
      set (directiveList value))
    {items : List String} (plain : AreItems items) :
    (style.listDirective key items).foldl (withRow style) (set []) = set items := by
  unfold Style.listDirective
  split
  · rename_i left
    rw [left.1]
    rfl
  · have found := step (style.listValue (items.map String.toList))
    rwa [directiveList_spelled plain style] at found

end

/-- The directives give the gene its parts one after the other. -/
theorem ofLines_spelled (style : Style) {decl : GeneDecl} (spellable : decl.IsSpellable)
    (start line : Nat) :
    ofLines decl.name (numbered start (style.below (.gene line decl))) = decl := by
  have rows : ∀ lines : List Line, ofLines decl.name lines =
      (lines.map Line.raw).foldl (fun gene row => gene.withDirective ⟨0, row⟩)
        (ofName decl.name) := by
    intro lines
    rw [List.foldl_map]
    rfl
  have desc := foldl_textDirective style (⟨decl.name, ·, none, [], []⟩)
    (fun value => (withRow_directive style _ value).1) spellable.desc
  have cmd := foldl_textDirective style (⟨decl.name, decl.desc, ·, [], []⟩)
    (fun value => (withRow_directive style _ value).2.1) spellable.cmd
  have inputs := foldl_listDirective style (⟨decl.name, decl.desc, decl.cmd, ·, []⟩)
    (fun value => (withRow_directive style _ value).2.2.1) spellable.inputs
  have outputs := foldl_listDirective style (⟨decl.name, decl.desc, decl.cmd, decl.inputs, ·⟩)
    (fun value => (withRow_directive style _ value).2.2.2) spellable.outputs
  rw [rows, map_raw_numbered, Style.below, List.foldl_map]
  change (style.directives decl).foldl (withRow style) ⟨decl.name, none, none, [], []⟩ = decl
  simp only [Style.directives, List.foldl_append]
  rw [desc, cmd, inputs, outputs]

end GeneDecl

theorem beginsWith_name? : BeginsWith name? "name".toList := beginsWith_afterWord? _

theorem beginsWith_emit? : BeginsWith emit? "emit".toList := beginsWith_afterWord? _

theorem beginsWith_condition? : BeginsWith condition? "when".toList := beginsWith_afterWord? _

theorem beginsWith_invoke? : BeginsWith invoke? "use".toList := beginsWith_afterWord? _

theorem beginsWith_remember? : BeginsWith remember? "remember".toList := beginsWith_afterWord? _

/-- What the row of a statement opens. -/
def Statement.opening (cap : UInt8) (line : Line) : Statement → Opening
  | .trigger _ condition _ => .trigger condition
  | .gene _ decl => .gene decl.name
  | statement => .single (statement.onLine cap line)

section
variable {style : Style} {cap : UInt8} {line : Line}

/-- No two keywords begin alike, so that the recogniser of a statement is the first to accept it. -/
theorem openingOf_spelled {statement : Statement} (spellable : statement.IsSpellable)
    (row : line.text = style.header statement) :
    openingOf cap line = statement.opening cap line := by
  unfold openingOf
  cases statement with
  | name number given =>
      rw [row, Style.header, name?_spelled spellable]
      rfl
  | emit number topic payload =>
      rw [row, Style.header, refuses_keyworded beginsWith_name? "emit" (by decide),
        emit?_spelled spellable]
      rfl
  | trigger number condition children =>
      rw [row, Style.header, refuses_keyworded beginsWith_name? "when" (by decide),
        refuses_keyworded beginsWith_emit? "when" (by decide),
        condition?_spelled spellable.1 spellable.2.1]
      rfl
  | invoke number tool args =>
      rw [row, Style.header, refuses_keyworded beginsWith_name? "use" (by decide),
        refuses_keyworded beginsWith_emit? "use" (by decide),
        refuses_keyworded beginsWith_condition? "use" (by decide), invoke?_spelled style spellable]
      rfl
  | remember number key value =>
      rw [row, Style.header, refuses_keyworded beginsWith_name? "remember" (by decide),
        refuses_keyworded beginsWith_emit? "remember" (by decide),
        refuses_keyworded beginsWith_condition? "remember" (by decide),
        refuses_keyworded beginsWith_invoke? "remember" (by decide),
        remember?_spelled spellable.1 spellable.2]
      rfl
  | gene number decl =>
      rw [row, Style.header, refuses_keyworded beginsWith_name? "gene" (by decide),
        refuses_keyworded beginsWith_emit? "gene" (by decide),
        refuses_keyworded beginsWith_condition? "gene" (by decide),
        refuses_keyworded beginsWith_invoke? "gene" (by decide),
        refuses_keyworded beginsWith_remember? "gene" (by decide), geneName?_spelled spellable.name]
      rfl
  | text number words score =>
      obtain ⟨-, refused⟩ := spellable
      rw [Style.header] at row
      rw [textOf, row, refused.name, refused.emit, refused.condition, refused.invoke,
        refused.remember, refused.geneName, String.ofList_toList]
      rfl

theorem childOf_spelled {child : Statement} (spellable : child.IsSpellableInside)
    (row : line.text = style.header child) : childOf cap line = child.onLine cap line := by
  unfold childOf
  cases child with
  | emit number topic payload =>
      rw [row, Style.header, emit?_spelled spellable]
      rfl
  | invoke number tool args =>
      rw [row, Style.header, refuses_keyworded beginsWith_emit? "use" (by decide),
        invoke?_spelled style spellable]
      rfl
  | text number words score =>
      obtain ⟨-, refused⟩ := spellable
      rw [Style.header] at row
      rw [textOf, row, refused.emit, refused.invoke, String.ofList_toList]
      rfl
  | _ => exact spellable.elim

end

end PlainVerse.Poem
