import PlainVerse.Poem.Parse
import PlainVerse.Proofs.Poem.Rows
import PlainVerse.Proofs.Text.Normal

/-!
# Poems as they are written

A statement is written as a row of its own, with a keyword in front unless it is text. The children
of a trigger and the directives of a gene stand in indented rows below it. What the language leaves
open is a matter of style. A statement can be written if its parts have no mark in them at which the
reader would cut them, and nothing at their ends that the reader would drop.
-/
namespace PlainVerse.Poem

open Text

/-- A text within one row that has no blank at its ends. -/
structure IsTrimmed (text : List Char) : Prop where
  bare : Bare isBlank text
  row : '\n' ∉ text

instance (text : List Char) : Decidable (IsTrimmed text) :=
  decidable_of_iff (Bare isBlank text ∧ '\n' ∉ text) ⟨fun h => ⟨h.1, h.2⟩, fun h => ⟨h.1, h.2⟩⟩

structure IsPhrase (text : List Char) : Prop extends IsTrimmed text where
  nonempty : text ≠ []

instance (text : List Char) : Decidable (IsPhrase text) :=
  decidable_of_iff (IsTrimmed text ∧ text ≠ []) ⟨fun h => ⟨h.1, h.2⟩, fun h => ⟨h.1, h.2⟩⟩

/-- A text that is found again as a maximal run of characters with `p`. -/
structure IsRun (p : Char → Bool) (text : List Char) : Prop where
  nonempty : text ≠ []
  inside : ∀ c ∈ text, p c = true

instance (p : Char → Bool) (text : List Char) : Decidable (IsRun p text) :=
  have := List.decidableBAll (p · = true) text
  decidable_of_iff (text ≠ [] ∧ ∀ c ∈ text, p c = true) ⟨fun h => ⟨h.1, h.2⟩, fun h => ⟨h.1, h.2⟩⟩

/-- The topic may have blanks at its ends, since it stands between quotes. -/
structure IsSignal (topic : String) (payload : Option String) : Prop where
  run : IsRun (· != '"') topic.toList
  row : '\n' ∉ topic.toList
  payload : ∀ text ∈ payload, IsPhrase text.toList

instance (topic : String) (payload : Option String) : Decidable (IsSignal topic payload) :=
  decidable_of_iff
    (IsRun (· != '"') topic.toList ∧ '\n' ∉ topic.toList ∧ ∀ text ∈ payload, IsPhrase text.toList)
    ⟨fun h => ⟨h.1, h.2.1, h.2.2⟩, fun h => ⟨h.1, h.2, h.3⟩⟩

/-- Both the key and the value may be empty. -/
structure IsArgument (entry : String × String) : Prop where
  key : IsTrimmed entry.1.toList
  value : IsTrimmed entry.2.toList
  noColon : ':' ∉ entry.1.toList
  noComma : ',' ∉ entry.1.toList ∧ ',' ∉ entry.2.toList
  noEnd : ')' ∉ entry.1.toList ∧ ')' ∉ entry.2.toList
  unquoted : Bare isQuoteMark entry.2.toList

instance (entry : String × String) : Decidable (IsArgument entry) :=
  decidable_of_iff
    (IsTrimmed entry.1.toList ∧ IsTrimmed entry.2.toList ∧ ':' ∉ entry.1.toList ∧
      (',' ∉ entry.1.toList ∧ ',' ∉ entry.2.toList) ∧
      (')' ∉ entry.1.toList ∧ ')' ∉ entry.2.toList) ∧ Bare isQuoteMark entry.2.toList)
    ⟨fun ⟨a, b, c, d, e, f⟩ => ⟨a, b, c, d, e, f⟩, fun ⟨a, b, c, d, e, f⟩ => ⟨a, b, c, d, e, f⟩⟩

structure IsCall (tool : ToolPath) (args : OrderedMap String) : Prop where
  tool : IsRun isToolChar tool.dotted.toList
  args : ∀ entry ∈ args.entries, IsArgument entry

instance (tool : ToolPath) (args : OrderedMap String) : Decidable (IsCall tool args) :=
  have := List.decidableBAll IsArgument args.entries
  decidable_of_iff (IsRun isToolChar tool.dotted.toList ∧ ∀ entry ∈ args.entries, IsArgument entry)
    ⟨fun h => ⟨h.1, h.2⟩, fun h => ⟨h.1, h.2⟩⟩

structure IsDirectiveText (text : List Char) : Prop extends IsTrimmed text where
  unquoted : Bare (· = '"') text

instance (text : List Char) : Decidable (IsDirectiveText text) :=
  decidable_of_iff (IsTrimmed text ∧ Bare (· = '"') text)
    ⟨fun h => ⟨h.1, h.2⟩, fun h => ⟨h.1, h.2⟩⟩

/-- Only the outer ends of a list have to be kept apart from the brackets around it. -/
structure AreItems (items : List String) : Prop where
  phrase : ∀ item ∈ items, IsPhrase item.toList
  noComma : ∀ item ∈ items, ',' ∉ item.toList
  first : ∀ item ∈ items.head?, Stops (· = '[') item.toList
  last : ∀ item ∈ items.getLast?, Stops (· = ']') item.toList.reverse

instance (items : List String) : Decidable (AreItems items) :=
  have := List.decidableBAll (fun item : String => IsPhrase item.toList) items
  have := List.decidableBAll (fun item : String => ',' ∉ item.toList) items
  decidable_of_iff
    ((∀ item ∈ items, IsPhrase item.toList) ∧ (∀ item ∈ items, ',' ∉ item.toList) ∧
      (∀ item ∈ items.head?, Stops (· = '[') item.toList) ∧
      ∀ item ∈ items.getLast?, Stops (· = ']') item.toList.reverse)
    ⟨fun ⟨a, b, c, d⟩ => ⟨a, b, c, d⟩, fun ⟨a, b, c, d⟩ => ⟨a, b, c, d⟩⟩

structure GeneDecl.IsSpellable (decl : GeneDecl) : Prop where
  name : IsRun isWord decl.name.toList
  desc : ∀ text ∈ decl.desc, IsDirectiveText text.toList
  cmd : ∀ text ∈ decl.cmd, IsDirectiveText text.toList
  inputs : AreItems decl.inputs
  outputs : AreItems decl.outputs

instance (decl : GeneDecl) : Decidable decl.IsSpellable :=
  decidable_of_iff
    (IsRun isWord decl.name.toList ∧ (∀ text ∈ decl.desc, IsDirectiveText text.toList) ∧
      (∀ text ∈ decl.cmd, IsDirectiveText text.toList) ∧ AreItems decl.inputs ∧
      AreItems decl.outputs)
    ⟨fun ⟨a, b, c, d, e⟩ => ⟨a, b, c, d, e⟩, fun ⟨a, b, c, d, e⟩ => ⟨a, b, c, d, e⟩⟩

/-- No form that is known inside a trigger accepts a text. -/
structure RefusedInside (text : List Char) : Prop where
  emit : emit? text = none
  invoke : invoke? text = none

instance (text : List Char) : Decidable (RefusedInside text) :=
  have {α : Type} (found : Option α) : Decidable (found = none) := Option.decidableEqNone found
  decidable_of_iff (emit? text = none ∧ invoke? text = none)
    ⟨fun h => ⟨h.1, h.2⟩, fun h => ⟨h.1, h.2⟩⟩

/-- No form that is known at the top level accepts a text. -/
structure RefusedOutside (text : List Char) : Prop extends RefusedInside text where
  name : name? text = none
  condition : condition? text = none
  remember : remember? text = none
  geneName : geneName? text = none

instance (text : List Char) : Decidable (RefusedOutside text) :=
  have {α : Type} (found : Option α) : Decidable (found = none) := Option.decidableEqNone found
  decidable_of_iff
    (RefusedInside text ∧ name? text = none ∧ condition? text = none ∧ remember? text = none ∧
      geneName? text = none)
    ⟨fun ⟨a, b, c, d, e⟩ => ⟨a, b, c, d, e⟩, fun ⟨a, b, c, d, e⟩ => ⟨a, b, c, d, e⟩⟩

namespace Statement

/-- What can be written inside a trigger, where only signals and tools are recognised. -/
def IsSpellableInside : Statement → Prop
  | .emit _ topic payload => IsSignal topic payload
  | .invoke _ tool args => IsCall tool args
  | .text _ words _ => IsPhrase words.toList ∧ RefusedInside words.toList
  | _ => False

instance : (statement : Statement) → Decidable statement.IsSpellableInside
  | .emit .. => inferInstanceAs (Decidable (IsSignal _ _))
  | .invoke .. => inferInstanceAs (Decidable (IsCall _ _))
  | .text .. => inferInstanceAs (Decidable (_ ∧ _))
  | .name .. | .trigger .. | .remember .. | .gene .. => isFalse not_false

/-- Text can be written if it is not taken for anything else. -/
def IsSpellable : Statement → Prop
  | .name _ given => IsPhrase given.toList
  | .emit _ topic payload => IsSignal topic payload
  | .trigger _ condition children =>
      IsPhrase condition.toList ∧ ':' ∉ condition.toList ∧
        ∀ child ∈ children, child.IsSpellableInside
  | .invoke _ tool args => IsCall tool args
  | .remember _ key value => IsRun isWord key.toList ∧ IsPhrase value.toList
  | .gene _ decl => decl.IsSpellable
  | .text _ words _ => IsPhrase words.toList ∧ RefusedOutside words.toList

instance : (statement : Statement) → Decidable statement.IsSpellable
  | .name .. => inferInstanceAs (Decidable (IsPhrase _))
  | .emit .. => inferInstanceAs (Decidable (IsSignal _ _))
  | .trigger _ _ children =>
      have := List.decidableBAll IsSpellableInside children
      inferInstanceAs (Decidable (_ ∧ _ ∧ _))
  | .invoke .. => inferInstanceAs (Decidable (IsCall _ _))
  | .remember .. => inferInstanceAs (Decidable (_ ∧ _))
  | .gene _ decl => inferInstanceAs (Decidable decl.IsSpellable)
  | .text .. => inferInstanceAs (Decidable (_ ∧ _))

end Statement

/-- What the language leaves open: how far the children of a trigger and the directives of a gene
are indented, how many empty rows there are between statements and at the end, what is quoted,
whether lists have brackets, and whether arguments and lists are written even if they are empty. -/
structure Style where
  indent : Nat
  indented : 0 < indent
  directiveIndent : Nat
  gap : Nat
  ending : Nat
  quotedArguments : Bool
  quotedDirectives : Bool
  brackets : Bool
  emptyArguments : Bool
  emptyLists : Bool

namespace Style

def spaces (n : Nat) : List Char := List.replicate n ' '

def commas (pieces : List (List Char)) : List Char := [',', ' '].intercalate pieces

def quoted (quotes : Bool) (text : List Char) : List Char :=
  if quotes then '"' :: (text ++ ['"']) else text

def keyworded (word : String) (rest : List Char) : List Char := word.toList ++ ' ' :: rest

def payload : Option String → List Char
  | none => []
  | some text => ' ' :: text.toList

variable (style : Style)

def argument (entry : String × String) : List Char :=
  entry.1.toList ++ ':' :: ' ' :: quoted style.quotedArguments entry.2.toList

def arguments (args : OrderedMap String) : List Char :=
  if args.entries = [] ∧ style.emptyArguments = false then []
  else '(' :: (commas (args.entries.map style.argument) ++ [')'])

/-- The row that a statement begins with. -/
def header : Statement → List Char
  | .name _ name => keyworded "name" name.toList
  | .emit _ topic text => keyworded "emit" ('"' :: (topic.toList ++ '"' :: payload text))
  | .trigger _ condition _ => keyworded "when" (condition.toList ++ [':'])
  | .invoke _ tool args => keyworded "use" (tool.dotted.toList ++ style.arguments args)
  | .remember _ key value => keyworded "remember" (key.toList ++ ':' :: ' ' :: value.toList)
  | .gene _ decl => keyworded "gene" (decl.name.toList ++ [':'])
  | .text _ text _ => text.toList

def directive (key : String) (value : List Char) : List Char := key.toList ++ ':' :: ' ' :: value

def listValue (items : List (List Char)) : List Char :=
  if style.brackets then '[' :: (commas items ++ [']']) else commas items

def textDirective (key : String) : Option String → List (List Char)
  | none => []
  | some text => [directive key (quoted style.quotedDirectives text.toList)]

def listDirective (key : String) (items : List String) : List (List Char) :=
  if items = [] ∧ style.emptyLists = false then []
  else [directive key (style.listValue (items.map String.toList))]

def directives (decl : GeneDecl) : List (List Char) :=
  style.textDirective "desc" decl.desc ++ (style.textDirective "cmd" decl.cmd ++
    (style.listDirective "inputs" decl.inputs ++ style.listDirective "outputs" decl.outputs))

def childRow (child : Statement) : List Char := spaces style.indent ++ style.header child

/-- The rows below the header. -/
def below : Statement → List (List Char)
  | .trigger _ _ children => children.map style.childRow
  | .gene _ decl => (style.directives decl).map (spaces style.directiveIndent ++ ·)
  | _ => []

/-- The empty rows between a statement and the rest. The block of a gene ends only there. -/
def emptyRows (statement : Statement) (rest : List Statement) : Nat :=
  if rest.isEmpty then style.ending
  else if statement.kind = .gene then max 1 style.gap
  else style.gap

def rowsOf : List Statement → List (List Char)
  | [] => []
  | statement :: rest =>
      style.header statement :: (style.below statement ++
        (List.replicate (style.emptyRows statement rest) [] ++ rowsOf rest))

/-- The text of a poem with the given statements. -/
def spelled (statements : List Statement) : String := ofRows (style.rowsOf statements)

end Style

/-- A statement at a line: with the number of the line and, for text, its score. Of a tool path, the
segments are those of its dotted form. -/
def Statement.onLine (cap : UInt8) (line : Line) : Statement → Statement
  | .name _ given => .name line.number given
  | .emit _ topic payload => .emit line.number topic payload
  | .trigger _ condition children => .trigger line.number condition children
  | .invoke _ tool args => .invoke line.number (.ofDotted tool.dotted) args
  | .remember _ key value => .remember line.number key value
  | .gene _ decl => .gene line.number decl
  | .text _ words _ => .text line.number words (lineScore line.raw cap)

namespace Style
variable (style : Style) (cap : UInt8)

/-- The children of a trigger stand at the lines below it, one after the other. -/
def placedAt (number : Nat) : Statement → Statement
  | .trigger _ condition children =>
      .trigger number condition
        (List.zipWith (Statement.onLine cap) (numbered (number + 1) (children.map style.childRow))
          children)
  | statement => statement.onLine cap ⟨number, style.header statement⟩

/-- The statements at the lines where they are written, if the first is written at `number`. -/
def placed : (number : Nat) → List Statement → List Statement
  | _, [] => []
  | number, statement :: rest =>
      style.placedAt cap number statement ::
        placed (number + 1 + (style.below statement).length + style.emptyRows statement rest) rest

end Style

/-- What a row can end with. -/
structure IsEnding (text : List Char) : Prop where
  last : Stops isBlank text.reverse
  row : '\n' ∉ text
  nonempty : text ≠ []

instance (text : List Char) : Decidable (IsEnding text) :=
  decidable_of_iff (Stops isBlank text.reverse ∧ '\n' ∉ text ∧ text ≠ [])
    ⟨fun h => ⟨h.1, h.2.1, h.2.2⟩, fun h => ⟨h.1, h.2, h.3⟩⟩

theorem IsPhrase.isEnding {text : List Char} (phrase : IsPhrase text) : IsEnding text :=
  ⟨phrase.bare.2, phrase.row, phrase.nonempty⟩

theorem IsEnding.append {text : List Char} (ending : IsEnding text) {front : List Char}
    (row : '\n' ∉ front) : IsEnding (front ++ text) where
  last := stops_reverse_append ending.last ending.nonempty front
  row := by simp [row, ending.row]
  nonempty := List.append_ne_nil_of_right_ne_nil front ending.nonempty

theorem IsEnding.cons {text : List Char} (ending : IsEnding text) {c : Char} (row : '\n' ≠ c) :
    IsEnding (c :: text) :=
  ending.append (mt List.mem_singleton.1 row)

theorem IsPhrase.append {first last : List Char} (phrase : IsPhrase first)
    (ending : IsEnding last) : IsPhrase (first ++ last) where
  bare := ⟨phrase.bare.1.append_right phrase.nonempty last,
    stops_reverse_append ending.last ending.nonempty first⟩
  row := (ending.append phrase.row).row
  nonempty := List.append_ne_nil_of_left_ne_nil phrase.nonempty last

theorem IsRun.isEnding {p : Char → Bool} {text : List Char} (run : IsRun p text)
    (solid : ∀ c, p c = true → isBlank c = false) : IsEnding text where
  last := by
    intro c head
    exact solid c (run.inside c (List.mem_reverse.1 (List.mem_of_mem_head? head)))
  row := by
    intro mem
    exact absurd (solid '\n' (run.inside '\n' mem)) (by decide)
  nonempty := run.nonempty

theorem isBlank_of_isToolChar {c : Char} (h : isToolChar c = true) : isBlank c = false := by
  have both : isBlank c = false ∧ c ≠ '(' := by simpa [isToolChar] using h
  exact both.1

namespace Style

@[simp] theorem commas_singleton (piece : List Char) : commas [piece] = piece :=
  List.intercalate_singleton

theorem commas_cons_cons (piece next : List Char) (rest : List (List Char)) :
    commas (piece :: next :: rest) = piece ++ ',' :: ' ' :: commas (next :: rest) := by
  simp [commas, List.intercalate_cons_cons]

/-- The characters of a list are those of its items, commas and spaces. -/
theorem forall_mem_commas {p : Char → Prop} {pieces : List (List Char)} (comma : p ',')
    (space : p ' ') (inside : ∀ piece ∈ pieces, ∀ c ∈ piece, p c) : ∀ c ∈ commas pieces, p c := by
  induction pieces with
  | nil => exact List.forall_mem_nil _
  | cons piece rest ih =>
      rw [List.forall_mem_cons] at inside
      cases rest with
      | nil => simpa using inside.1
      | cons next rest =>
          simp only [commas_cons_cons, List.forall_mem_append, List.forall_mem_cons]
          exact ⟨inside.1, comma, space, ih inside.2⟩

theorem not_mem_commas {c : Char} {pieces : List (List Char)} (comma : c ≠ ',') (space : c ≠ ' ')
    (absent : ∀ piece ∈ pieces, c ∉ piece) : c ∉ commas pieces := by
  have other := forall_mem_commas (p := (c ≠ ·)) comma space fun piece mem d inside same =>
    absent piece mem (same ▸ inside)
  exact fun mem => other c mem rfl

theorem isBlank_spaces (n : Nat) : ∀ c ∈ spaces n, isBlank c = true := by
  intro c mem
  rw [List.eq_of_mem_replicate mem]
  decide

theorem not_mem_spaces (n : Nat) : '\n' ∉ spaces n := by
  intro mem
  exact absurd (List.eq_of_mem_replicate mem) (by decide)

theorem not_mem_quoted {c : Char} (quote : c ≠ '"') {text : List Char} (absent : c ∉ text)
    (quotes : Bool) : c ∉ quoted quotes text := by
  cases quotes <;> simp [quoted, quote, absent]

variable (style : Style)

theorem isPhrase_keyworded {word : String} {rest : List Char} (phrase : IsPhrase word.toList)
    (ending : IsEnding rest) : IsPhrase (keyworded word rest) :=
  phrase.append (ending.cons (by decide))

theorem isPhrase_emit {topic : String} {payload : Option String} (signal : IsSignal topic payload)
    (line : Nat) : IsPhrase (style.header (.emit line topic payload)) := by
  have last : IsEnding ('"' :: Style.payload payload) := by
    cases payload with
    | none => decide
    | some text =>
        have phrase := signal.payload text rfl
        exact (phrase.isEnding.cons (by decide)).cons (by decide)
  have topic := last.append signal.row
  exact isPhrase_keyworded (by decide) (topic.cons (by decide))

theorem not_mem_argument {entry : String × String} {c : Char} (space : c ≠ ' ') (colon : c ≠ ':')
    (quote : c ≠ '"') (absent : c ∉ entry.1.toList ∧ c ∉ entry.2.toList) :
    c ∉ style.argument entry := by
  have value := not_mem_quoted quote absent.2 style.quotedArguments
  simp [argument, absent.1, value, space, colon]

theorem isPhrase_invoke {tool : ToolPath} {args : OrderedMap String} (call : IsCall tool args)
    (line : Nat) : IsPhrase (style.header (.invoke line tool args)) := by
  have path : IsEnding tool.dotted.toList := call.tool.isEnding fun _ => isBlank_of_isToolChar
  have last : IsEnding (tool.dotted.toList ++ style.arguments args) := by
    unfold arguments
    split
    · rwa [List.append_nil]
    · have inside : '\n' ∉ commas (args.entries.map style.argument) := by
        apply not_mem_commas (by decide) (by decide)
        rw [List.forall_mem_map]
        intro entry mem
        have plain := call.args entry mem
        exact style.not_mem_argument (by decide) (by decide) (by decide)
          ⟨plain.key.row, plain.value.row⟩
      have close : IsEnding [')'] := by decide
      exact ((close.append inside).cons (by decide)).append path.row
  exact isPhrase_keyworded (by decide) last

/-- A statement begins with a row that is neither empty nor indented. -/
theorem isPhrase_header {statement : Statement} (spellable : statement.IsSpellable) :
    IsPhrase (style.header statement) := by
  have colon : IsEnding [':'] := by decide
  cases statement with
  | name line given => exact isPhrase_keyworded (by decide) spellable.isEnding
  | emit line topic payload => exact style.isPhrase_emit spellable line
  | trigger line condition children =>
      exact isPhrase_keyworded (by decide) (colon.append spellable.1.row)
  | invoke line tool args => exact style.isPhrase_invoke spellable line
  | remember line key value =>
      have key := spellable.1.isEnding fun _ => isBlank_of_isWord
      have last : IsEnding (' ' :: value.toList) := spellable.2.isEnding.cons (by decide)
      have rest : IsEnding (':' :: ' ' :: value.toList) := last.cons (by decide)
      exact isPhrase_keyworded (by decide) (rest.append key.row)
  | gene line decl =>
      have name := spellable.name.isEnding fun _ => isBlank_of_isWord
      exact isPhrase_keyworded (by decide) (colon.append name.row)
  | text line words score => exact spellable.1

theorem isPhrase_child {child : Statement} (spellable : child.IsSpellableInside) :
    IsPhrase (style.header child) := by
  cases child with
  | emit line topic payload => exact style.isPhrase_emit spellable line
  | invoke line tool args => exact style.isPhrase_invoke spellable line
  | text line words score => exact spellable.1
  | _ => exact spellable.elim

theorem row_textDirective {key : String} (row : '\n' ∉ key.toList) {value : Option String}
    (plain : ∀ text ∈ value, IsDirectiveText text.toList) :
    ∀ row ∈ style.textDirective key value, '\n' ∉ row := by
  cases value with
  | none => exact List.forall_mem_nil _
  | some text =>
      have inside := not_mem_quoted (by decide) (plain text rfl).row style.quotedDirectives
      rw [textDirective, List.forall_mem_singleton]
      simp [directive, row, inside]

theorem row_listDirective {key : String} (row : '\n' ∉ key.toList) {items : List String}
    (plain : AreItems items) : ∀ row ∈ style.listDirective key items, '\n' ∉ row := by
  have inside : '\n' ∉ commas (items.map String.toList) := by
    apply not_mem_commas (by decide) (by decide)
    rw [List.forall_mem_map]
    exact fun item mem => (plain.phrase item mem).row
  unfold listDirective
  split
  · exact List.forall_mem_nil _
  · rw [List.forall_mem_singleton]
    simp only [directive, listValue]
    split <;> simp [row, inside]

theorem row_below {statement : Statement} (spellable : statement.IsSpellable) :
    ∀ row ∈ style.below statement, '\n' ∉ row := by
  cases statement with
  | trigger line condition children =>
      rw [below, List.forall_mem_map]
      intro child mem
      simp [childRow, not_mem_spaces, (style.isPhrase_child (spellable.2.2 child mem)).row]
  | gene line decl =>
      have rows : ∀ row ∈ style.directives decl, '\n' ∉ row := by
        simp only [directives, List.forall_mem_append]
        exact ⟨style.row_textDirective (by decide) spellable.desc,
          style.row_textDirective (by decide) spellable.cmd,
          style.row_listDirective (by decide) spellable.inputs,
          style.row_listDirective (by decide) spellable.outputs⟩
      rw [below, List.forall_mem_map]
      intro row mem
      simp [not_mem_spaces, rows row mem]
  | _ => exact List.forall_mem_nil _

/-- The rows of a poem are found again in its text. -/
theorem rows_spelled {statements : List Statement}
    (spellable : ∀ statement ∈ statements, statement.IsSpellable) (nonempty : statements ≠ []) :
    rows (style.spelled statements) = style.rowsOf statements := by
  have single : ∀ row ∈ style.rowsOf statements, '\n' ∉ row := by
    clear nonempty
    induction statements with
    | nil => exact List.forall_mem_nil _
    | cons statement rest ih =>
        rw [List.forall_mem_cons] at spellable
        simp only [rowsOf, List.forall_mem_cons, List.forall_mem_append]
        refine ⟨(style.isPhrase_header spellable.1).row, style.row_below spellable.1, ?_,
          ih spellable.2⟩
        intro row mem
        rw [List.eq_of_mem_replicate mem]
        exact List.not_mem_nil
  apply rows_ofRows _ single
  cases statements with
  | nil => exact absurd rfl nonempty
  | cons statement rest => exact List.cons_ne_nil _ _

end Style
end PlainVerse.Poem
