import PlainVerse.Proofs.Poem.Directives
import PlainVerse.Proofs.Poem.RoundTrip
import PlainVerse.Proofs.Poem.Scoring
import PlainVerse.Proofs.Poem.Spelling

/-!
# What is read is well formed

Whatever the source, the parts of a statement keep what the recognisers promise: they have no blank
at their ends, no mark in them at which they were cut, and they are not empty where the form asks
for something. A line becomes text only if no form accepts it. Each promise is proved for the
recogniser that makes it, then for the statement a line makes, then for all that is read.
-/
namespace PlainVerse.Poem

open Text

/-- A text that is not empty and has no blank at its ends. -/
structure IsTight (text : List Char) : Prop where
  nonempty : text ≠ []
  bare : Bare isBlank text

theorem isTight_trim {text : List Char} (nonempty : trim text ≠ []) : IsTight (trim text) :=
  ⟨nonempty, bare_dropEnds isBlank text⟩

/-- Blanks within the quotes belong to a value, so it may have them at its ends. -/
structure IsReadArgument (entry : String × String) : Prop where
  key : Bare isBlank entry.1.toList
  noColon : ':' ∉ entry.1.toList
  noComma : ',' ∉ entry.1.toList ∧ ',' ∉ entry.2.toList
  noEnd : ')' ∉ entry.1.toList ∧ ')' ∉ entry.2.toList
  unquoted : Bare isQuoteMark entry.2.toList

structure IsReadTool (tool : ToolPath) : Prop extends tool.IsPlain where
  solid : ∀ segment ∈ tool.segments, ∀ c ∈ segment.toList, isBlank c = false ∧ c ≠ '('
  dotted : tool.dotted ≠ ""

structure GeneDecl.IsRead (decl : GeneDecl) : Prop where
  name : IsRun isWord decl.name.toList
  desc : ∀ text ∈ decl.desc, Bare (· = '"') text.toList
  cmd : ∀ text ∈ decl.cmd, Bare (· = '"') text.toList
  inputs : ∀ item ∈ decl.inputs, IsTight item.toList ∧ ',' ∉ item.toList
  outputs : ∀ item ∈ decl.outputs, IsTight item.toList ∧ ',' ∉ item.toList

/-- What is promised about the parts of a statement, without the statements inside it. -/
def Statement.IsRead : Statement → Prop
  | .name _ given => IsTight given.toList
  | .emit _ topic payload =>
      IsRun (· != '"') topic.toList ∧ ∀ text ∈ payload, IsTight text.toList
  | .trigger _ condition _ => IsTight condition.toList ∧ ':' ∉ condition.toList
  | .invoke _ tool args => IsReadTool tool ∧ ∀ entry ∈ args.entries, IsReadArgument entry
  | .remember _ key value => IsRun isWord key.toList ∧ IsTight value.toList
  | .gene _ decl => decl.IsRead
  | .text _ words _ => IsTight words.toList

variable {text : List Char}

/-- What is left behind blanks is kept unless there is nothing left. -/
theorem isTight_of_kept {given : String} (stop : Stops isBlank text)
    (kept : (if text ≠ [] then some (String.ofList (trim text)) else none) = some given) :
    IsTight given.toList := by
  obtain ⟨nonempty, same⟩ := Option.ite_none_right_eq_some.1 kept
  rw [← Option.some.inj same, String.toList_ofList]
  exact isTight_trim (trim_ne_nil stop nonempty)

theorem isTight_name? {name : String} (h : name? text = some name) : IsTight name.toList := by
  obtain ⟨rest, found, kept⟩ := Option.bind_eq_some_iff.1 h
  exact isTight_of_kept (stops_of_afterWord? found) kept

theorem isTight_payload? {payload : String} (h : payload? text = some payload) :
    IsTight payload.toList := by
  obtain ⟨rest, found, kept⟩ := Option.bind_eq_some_iff.1 h
  exact isTight_of_kept (stops_of_afterBlanks? found) kept

theorem isRun_of_run? {p : Char → Bool} {run rest : List Char}
    (h : run? p text = some (run, rest)) : IsRun p (String.ofList run).toList := by
  obtain ⟨-, nonempty, inside, -⟩ := run?_eq_some.1 h
  rw [String.toList_ofList]
  exact ⟨nonempty, inside⟩

theorem isRead_emit? {topic : String} {payload : Option String}
    (h : emit? text = some (topic, payload)) :
    IsRun (· != '"') topic.toList ∧ ∀ text ∈ payload, IsTight text.toList := by
  obtain ⟨rest, -, h⟩ := Option.bind_eq_some_iff.1 h
  obtain ⟨inner, -, h⟩ := Option.bind_eq_some_iff.1 h
  obtain ⟨⟨run, behind⟩, found, h⟩ := Option.bind_eq_some_iff.1 h
  obtain ⟨last, -, same⟩ := Option.bind_eq_some_iff.1 h
  cases same
  exact ⟨isRun_of_run? found, fun text said => isTight_payload? said⟩

theorem isRead_condition? {condition : String} (h : condition? text = some condition) :
    IsTight condition.toList ∧ ':' ∉ condition.toList := by
  obtain ⟨rest, -, h⟩ := Option.bind_eq_some_iff.1 h
  obtain ⟨⟨front, behind⟩, found, kept⟩ := Option.bind_eq_some_iff.1 h
  obtain ⟨nonempty, same⟩ := Option.ite_none_right_eq_some.1 kept
  rw [← Option.some.inj same, String.toList_ofList]
  refine ⟨isTight_trim nonempty, fun mem => ?_⟩
  exact (splitOnce?_eq_some.1 found).2 ((dropEnds_sublist _ _).subset mem)

theorem isRead_remember? {key value : String} (h : remember? text = some (key, value)) :
    IsRun isWord key.toList ∧ IsTight value.toList := by
  obtain ⟨rest, -, h⟩ := Option.bind_eq_some_iff.1 h
  obtain ⟨⟨run, behind⟩, found, h⟩ := Option.bind_eq_some_iff.1 h
  obtain ⟨last, -, kept⟩ := Option.bind_eq_some_iff.1 h
  obtain ⟨nonempty, same⟩ := Option.ite_none_right_eq_some.1 kept
  cases same
  refine ⟨isRun_of_run? found, ?_⟩
  rw [String.toList_ofList]
  exact isTight_trim (trim_ne_nil (stops_dropWhile isBlank last) nonempty)

theorem isRun_geneName? {name : String} (h : geneName? text = some name) :
    IsRun isWord name.toList := by
  obtain ⟨rest, -, h⟩ := Option.bind_eq_some_iff.1 h
  obtain ⟨⟨run, behind⟩, found, h⟩ := Option.bind_eq_some_iff.1 h
  obtain ⟨last, -, same⟩ := Option.bind_eq_some_iff.1 h
  cases same
  exact isRun_of_run? found

theorem isReadTool_ofDotted {run : List Char} (h : IsRun isToolChar run) :
    IsReadTool (.ofDotted (String.ofList run)) where
  toIsPlain := ToolPath.isPlain_ofDotted _
  solid := by
    intro segment mem c inside
    obtain ⟨piece, found, rfl⟩ := List.mem_map.1 mem
    rw [String.toList_ofList] at found inside
    simpa [isToolChar] using h.inside c (subset_of_mem_splitOn found inside)
  dotted := by
    rw [ToolPath.dotted_ofDotted]
    simpa using h.nonempty

/-- What is cut out of a text has only characters of the text in it. -/
theorem not_mem_argument? {entry : String × String} (h : argument? text = some entry) {c : Char}
    (absent : c ∉ text) : c ∉ entry.1.toList ∧ c ∉ entry.2.toList := by
  obtain ⟨⟨key, value⟩, found, rfl⟩ := Option.map_eq_some_iff.1 h
  obtain ⟨rfl, -⟩ := splitOnce?_eq_some.1 found
  rw [List.mem_append, List.mem_cons, not_or, not_or] at absent
  rw [String.toList_ofList, String.toList_ofList]
  refine ⟨fun mem => absent.1 ((dropEnds_sublist _ _).subset mem), fun mem => absent.2.2 ?_⟩
  exact (dropEnds_sublist _ _).subset ((dropEnds_sublist _ _).subset mem)

theorem isReadArgument_argument? {entry : String × String} (h : argument? text = some entry)
    (noComma : ',' ∉ text) (noEnd : ')' ∉ text) : IsReadArgument entry where
  noComma := not_mem_argument? h noComma
  noEnd := not_mem_argument? h noEnd
  key := by
    obtain ⟨⟨key, value⟩, -, rfl⟩ := Option.map_eq_some_iff.1 h
    rw [String.toList_ofList]
    exact bare_dropEnds isBlank key
  noColon := by
    obtain ⟨⟨key, value⟩, found, rfl⟩ := Option.map_eq_some_iff.1 h
    rw [String.toList_ofList]
    exact fun mem => (splitOnce?_eq_some.1 found).2 ((dropEnds_sublist _ _).subset mem)
  unquoted := by
    obtain ⟨⟨key, value⟩, -, rfl⟩ := Option.map_eq_some_iff.1 h
    rw [String.toList_ofList]
    exact bare_dropEnds isQuoteMark _

theorem isReadArgument_arguments {inside : List Char} (noEnd : ')' ∉ inside) :
    ∀ entry ∈ (arguments inside).entries, IsReadArgument entry := by
  intro entry mem
  obtain ⟨piece, found, made⟩ := List.mem_filterMap.1 (OrderedMap.mem_ofList mem)
  exact isReadArgument_argument? made (not_mem_of_mem_splitOn found)
    fun inner => noEnd (subset_of_mem_splitOn found inner)

theorem not_mem_parenthesized? {inside : List Char} (h : parenthesized? text = some inside) :
    ')' ∉ inside := by
  obtain ⟨rest, -, h⟩ := Option.bind_eq_some_iff.1 h
  obtain ⟨⟨run, behind⟩, found, h⟩ := Option.bind_eq_some_iff.1 h
  obtain ⟨last, -, same⟩ := Option.bind_eq_some_iff.1 h
  cases same
  intro mem
  simpa using (run?_eq_some.1 found).2.2.1 ')' mem

theorem isRead_invoke? {tool : ToolPath} {args : OrderedMap String}
    (h : invoke? text = some (tool, args)) :
    IsReadTool tool ∧ ∀ entry ∈ args.entries, IsReadArgument entry := by
  obtain ⟨rest, -, h⟩ := Option.bind_eq_some_iff.1 h
  obtain ⟨⟨run, behind⟩, found, same⟩ := Option.bind_eq_some_iff.1 h
  obtain ⟨-, nonempty, inside, -⟩ := run?_eq_some.1 found
  cases same
  refine ⟨isReadTool_ofDotted ⟨nonempty, inside⟩, ?_⟩
  cases parenthesis : parenthesized? behind with
  | none => exact List.forall_mem_nil _
  | some inside => exact isReadArgument_arguments (not_mem_parenthesized? parenthesis)

theorem bare_directiveValue (value : List Char) :
    Bare (· = '"') (directiveValue value).toList := by
  rw [directiveValue, String.toList_ofList]
  exact bare_dropEnds _ _

theorem isTight_directiveList {value : List Char} :
    ∀ item ∈ directiveList value, IsTight item.toList ∧ ',' ∉ item.toList := by
  intro item mem
  obtain ⟨trimmed, kept, rfl⟩ := List.mem_map.1 mem
  obtain ⟨mem, nonempty⟩ := List.mem_filter.1 kept
  obtain ⟨piece, found, rfl⟩ := List.mem_map.1 mem
  rw [String.toList_ofList]
  refine ⟨isTight_trim (by simpa using nonempty), fun inside => ?_⟩
  exact not_mem_of_mem_splitOn found ((dropEnds_sublist _ _).subset inside)

theorem GeneDecl.isRead_ofLines {name : String} (word : IsRun isWord name.toList)
    (lines : List Line) : (ofLines name lines).IsRead := by
  rw [ofLines_eq]
  have value : ∀ found : Option (List Char), ∀ text ∈ (found.map directiveValue).or none,
      Bare (· = '"') text.toList := by
    intro found text mem
    rw [Option.or_none] at mem
    obtain ⟨value, -, rfl⟩ := Option.map_eq_some_iff.1 mem
    exact bare_directiveValue value
  have list : ∀ found : Option (List Char), ∀ item ∈ (found.map directiveList).getD [],
      IsTight item.toList ∧ ',' ∉ item.toList := by
    intro found
    cases found with
    | none => exact List.forall_mem_nil _
    | some value => exact isTight_directiveList
  exact ⟨word, value _, value _, list _, list _⟩

/-- A statement that is text is the text of its line, which is refused by the forms that are tried
at its place, and its score keeps to the cap. -/
def Statement.IsTextOf (lines : List Line) (cap : UInt8) (refused : List Char → Prop) :
    Statement → Prop
  | .text number words score =>
      (∃ line ∈ lines, line.number = number ∧ words.toList = trim line.raw) ∧
        refused words.toList ∧ score ≤ cap
  | _ => True

theorem lineScore_le (raw : List Char) (cap : UInt8) : lineScore raw cap ≤ cap := by
  rw [UInt8.le_iff_toNat_le, toNat_lineScore]
  exact Nat.min_le_left _ _

theorem isTextOf_textOf {lines : List Line} {line : Line} (mem : line ∈ lines) (cap : UInt8)
    {refused : List Char → Prop} (h : refused line.text) :
    (textOf cap line).IsTextOf lines cap refused := by
  have words : (String.ofList line.text).toList = trim line.raw := String.toList_ofList
  refine ⟨⟨line, mem, rfl, words⟩, ?_, lineScore_le _ _⟩
  rw [words]
  exact h

theorem isRead_textOf {line : Line} (text : line.isEmpty = false) (cap : UInt8) :
    (textOf cap line).IsRead := by
  have nonempty : line.text ≠ [] := List.isEmpty_eq_false_iff.1 text
  change IsTight (String.ofList line.text).toList
  rw [String.toList_ofList]
  exact isTight_trim nonempty

theorem childOf_wellFormed {lines : List Line} {line : Line} (mem : line ∈ lines)
    (text : line.isEmpty = false) (cap : UInt8) :
    (childOf cap line).IsRead ∧ (childOf cap line).IsTextOf lines cap RefusedInside := by
  unfold childOf
  split
  · rename_i found
    exact ⟨isRead_emit? found, trivial⟩
  · rename_i emit
    split
    · rename_i found
      exact ⟨isRead_invoke? found, trivial⟩
    · rename_i invoke
      refine ⟨isRead_textOf text cap, isTextOf_textOf mem cap ⟨?_, ?_⟩⟩
      · exact Option.eq_none_iff_forall_ne_some.2 fun signal => emit signal.1 signal.2
      · exact Option.eq_none_iff_forall_ne_some.2 fun call => invoke call.1 call.2

/-- What is promised about what a line makes at the top level. -/
def Opening.IsWellFormed (lines : List Line) (cap : UInt8) : Opening → Prop
  | .single statement => statement.IsRead ∧ statement.IsTextOf lines cap RefusedOutside
  | .trigger condition => IsTight condition.toList ∧ ':' ∉ condition.toList
  | .gene name => IsRun isWord name.toList

/-- A line becomes text only when all forms have been tried. -/
theorem openingOf_wellFormed {lines : List Line} {line : Line} (mem : line ∈ lines)
    (text : line.isEmpty = false) (cap : UInt8) :
    (openingOf cap line).IsWellFormed lines cap := by
  unfold openingOf
  split
  · rename_i found
    exact ⟨isTight_name? found, trivial⟩
  rename_i name
  split
  · rename_i found
    exact ⟨isRead_emit? found, trivial⟩
  rename_i emit
  split
  · rename_i found
    exact isRead_condition? found
  rename_i condition
  split
  · rename_i found
    exact ⟨isRead_invoke? found, trivial⟩
  rename_i invoke
  split
  · rename_i found
    exact ⟨isRead_remember? found, trivial⟩
  rename_i remember
  split
  · rename_i found
    exact isRun_geneName? found
  rename_i geneName
  refine ⟨isRead_textOf text cap, isTextOf_textOf mem cap ⟨⟨?_, ?_⟩, ?_, ?_, ?_, ?_⟩⟩
  · exact Option.eq_none_iff_forall_ne_some.2 fun signal => emit signal.1 signal.2
  · exact Option.eq_none_iff_forall_ne_some.2 fun call => invoke call.1 call.2
  · exact Option.eq_none_iff_forall_ne_some.2 name
  · exact Option.eq_none_iff_forall_ne_some.2 condition
  · exact Option.eq_none_iff_forall_ne_some.2 fun entry => remember entry.1 entry.2
  · exact Option.eq_none_iff_forall_ne_some.2 geneName

/-- What is promised about a statement at the top level and the statements inside it. -/
structure Statement.IsWellFormed (lines : List Line) (cap : UInt8) (statement : Statement) :
    Prop where
  parts : ∀ node ∈ statement.nodes, node.IsRead
  outside : statement.IsTextOf lines cap RefusedOutside
  inside : ∀ node ∈ statement.nodes, ∀ child ∈ node.children,
    child.IsTextOf lines cap RefusedInside

variable {lines : List Line} {cap : UInt8}

/-- A statement without others inside it is all there is to look at. -/
theorem wellFormed_of_kind {statement : Statement} (kind : statement.kind ≠ .trigger)
    (read : statement.IsRead) (outside : statement.IsTextOf lines cap RefusedOutside) :
    statement.IsWellFormed lines cap := by
  refine ⟨?_, outside, ?_⟩
  · rw [nodes_of_kind kind, List.forall_mem_singleton]
    exact read
  · rw [nodes_of_kind kind, List.forall_mem_singleton, children_of_kind kind]
    exact List.forall_mem_nil _

theorem wellFormed_trigger {number : Nat} {condition : String} {taken : List Line}
    (read : IsTight condition.toList ∧ ':' ∉ condition.toList)
    (body : ∀ line ∈ taken, line ∈ lines ∧ line.isEmpty = false) :
    (Statement.trigger number condition (taken.map (childOf cap))).IsWellFormed lines cap := by
  have child : ∀ line ∈ taken,
      (childOf cap line).IsRead ∧ (childOf cap line).IsTextOf lines cap RefusedInside :=
    fun line mem => childOf_wellFormed (body line mem).1 (body line mem).2 cap
  refine ⟨?_, trivial, ?_⟩
  · rw [Statement.nodes, nodesOf_children, List.forall_mem_cons, List.forall_mem_map]
    exact ⟨read, fun line mem => (child line mem).1⟩
  · rw [Statement.nodes, nodesOf_children, List.forall_mem_cons, List.forall_mem_map]
    refine ⟨List.forall_mem_map.2 fun line mem => (child line mem).2, fun line _ => ?_⟩
    rw [children_of_kind (childOf_kind_ne_trigger cap line)]
    exact List.forall_mem_nil _

/-- All that is read from some of the lines is well formed. The lines where text is looked up stay
the same while those that are left to read get fewer. -/
theorem Reads.wellFormed {part : List Line} {statements : List Statement}
    (h : Reads cap part statements) (sub : part ⊆ lines) :
    ∀ statement ∈ statements, statement.IsWellFormed lines cap := by
  induction h with
  | done => exact List.forall_mem_nil _
  | blank _ _ ih => exact ih (List.cons_subset.1 sub).2
  | @single line statement _ _ text opening _ ih =>
      obtain ⟨here, later⟩ := List.cons_subset.1 sub
      have made := openingOf_wellFormed here text cap
      rw [opening] at made
      have kind := (openingOf_single opening).2.1
      exact List.forall_mem_cons.2 ⟨wellFormed_of_kind kind made.1 made.2, ih later⟩
  | @trigger line condition taken after _ text opening _ _ ih =>
      obtain ⟨here, later⟩ := List.cons_subset.1 sub
      obtain ⟨body, later⟩ := List.append_subset.1 later
      have made := openingOf_wellFormed here text cap
      rw [opening] at made
      refine List.forall_mem_cons.2 ⟨wellFormed_trigger made fun line mem => ?_, ih later⟩
      exact (mem_nonBlank.1 mem).imp_left fun mem => body mem
  | @gene line name block after _ text opening _ _ _ ih =>
      obtain ⟨here, later⟩ := List.cons_subset.1 sub
      have made := openingOf_wellFormed here text cap
      rw [opening] at made
      have gene := GeneDecl.isRead_ofLines made block
      refine List.forall_mem_cons.2 ⟨wellFormed_of_kind (by simp [Statement.kind]) gene trivial, ?_⟩
      exact ih (List.append_subset.1 later).2

/-- What is promised about a program: its statements are well formed, and its name is the one that
the first name statement gives. -/
structure Program.IsWellFormed (source : String) (cap : UInt8) (program : Program) : Prop where
  statements : ∀ statement ∈ program.statements,
    statement.IsWellFormed (Line.ofSource source) cap
  named : ∀ given, program.name = some given ↔
    ∃ before number after, program.statements = before ++ .name number given :: after ∧
      ∀ statement ∈ before, statement.kind ≠ .name
  nameless : program.name = none ↔ ∀ statement ∈ program.statements, statement.kind ≠ .name

/-- The name that a statement gives to its poem. -/
def Statement.givenName? : Statement → Option String
  | .name _ given => some given
  | _ => none

theorem givenName?_eq_none {statement : Statement} :
    statement.givenName? = none ↔ statement.kind ≠ .name := by
  cases statement <;> simp [Statement.givenName?, Statement.kind]

theorem givenName?_eq_some {statement : Statement} {given : String} :
    statement.givenName? = some given ↔ ∃ number, statement = .name number given := by
  cases statement <;> simp [Statement.givenName?]

theorem nameOf_eq_findSome? (statements : List Statement) :
    nameOf statements = statements.findSome? Statement.givenName? := rfl

theorem nameOf_eq_some {statements : List Statement} {given : String} :
    nameOf statements = some given ↔
      ∃ before number after, statements = before ++ .name number given :: after ∧
        ∀ statement ∈ before, statement.kind ≠ .name := by
  simp only [nameOf_eq_findSome?, List.findSome?_eq_some_iff, givenName?_eq_none,
    givenName?_eq_some]
  constructor
  · rintro ⟨before, -, after, split, ⟨number, rfl⟩, earlier⟩
    exact ⟨before, number, after, split, earlier⟩
  · rintro ⟨before, number, after, split, earlier⟩
    exact ⟨before, _, after, split, ⟨number, rfl⟩, earlier⟩

theorem nameOf_eq_none {statements : List Statement} :
    nameOf statements = none ↔ ∀ statement ∈ statements, statement.kind ≠ .name := by
  simp only [nameOf_eq_findSome?, List.findSome?_eq_none_iff, givenName?_eq_none]

/-- Every program that is read is well formed. -/
theorem parse_isWellFormed (source : String) (cap : UInt8) :
    (parse source cap).IsWellFormed source cap where
  statements := (statementsOf_reads cap (Line.ofSource source)).wellFormed (List.Subset.refl _)
  named _ := nameOf_eq_some
  nameless := nameOf_eq_none

end PlainVerse.Poem
