import PlainVerse.Proofs.Text.Normal
import PlainVerse.Proofs.Text.Number
import PlainVerse.Proofs.Text.Search
import PlainVerse.Step.PlainLine
import Mathlib.Data.List.Forall2

/-!
# The grammar of plain lines

A command has one of six forms. A form is a row of fixed words, which are read in any case, and of
parts that stand as they are. The recognisers take runs as long as possible and are tried in a fixed
order, but the grammar leaves them no choice: a line is made up of the parts of a form in at most
one way, and the forms exclude each other, except that a quoted command is also a plain one.
-/
namespace PlainVerse.Step

open Text

inductive TimeUnit where
  | s
  | sec
  | seconds
deriving DecidableEq, Repr

def TimeUnit.word : TimeUnit → String
  | .s => "s"
  | .sec => " sec"
  | .seconds => " seconds"

inductive Form where
  | download
  | quotedRun
  | run
  | every
  | sleep
  | write
deriving DecidableEq, Repr

/-- A form with the parts that it leaves open. -/
inductive PlainCommand where
  | download (url path : List Char)
  | quotedRun (command : List Char)
  | run (command : List Char)
  | every (digits : List Char) (unit : TimeUnit) (command : List Char)
  | sleep (digits : List Char)
  | write (data path : List Char)
deriving DecidableEq, Repr

inductive Piece where
  | word (letters : String)
  | part (text : List Char)

/-- A line is made up of pieces. A word is read under simple case folding. -/
def Fits : List Piece → List Char → Prop
  | [], line => line = []
  | .word letters :: pieces, line =>
      ∃ spelling rest, line = spelling ++ rest ∧ spelling.map foldChar = letters.toList ∧
        Fits pieces rest
  | .part text :: pieces, line => ∃ rest, line = text ++ rest ∧ Fits pieces rest

/-- A text without blanks that is not empty. -/
def IsSolid (text : List Char) : Prop := text ≠ [] ∧ ∀ c ∈ text, isBlank c = false

namespace PlainCommand

def form : PlainCommand → Form
  | .download .. => .download
  | .quotedRun .. => .quotedRun
  | .run .. => .run
  | .every .. => .every
  | .sleep .. => .sleep
  | .write .. => .write

def pieces : PlainCommand → List Piece
  | .download url path => [.word "download ", .part url, .word " to ", .part path]
  | .quotedRun command => [.word "run \"", .part command, .word "\""]
  | .run command => [.word "run ", .part command]
  | .every digits unit command =>
      [.word "every ", .part digits, .word unit.word, .word ": ", .part command]
  | .sleep digits => [.word "sleep ", .part digits]
  | .write data path => [.word "write '", .part data, .word "' to ", .part path]

def WellFormed : PlainCommand → Prop
  | .download url path => IsSolid url ∧ IsSolid path
  | .quotedRun command => command ≠ []
  | .run command => command ≠ []
  | .every digits _ command => IsWord64 digits ∧ command ≠ []
  | .sleep digits => IsWord64 digits
  | .write _ path => IsSolid path

def steps : PlainCommand → List Step
  | .download url path => [httpGet (String.ofList url), writeLast (String.ofList path)]
  | .quotedRun command => [Step.run (String.ofList command)]
  | .run command => [Step.run (String.ofList command)]
  | .every digits _ command =>
      [loop (UInt64.ofNat (Nat.ofDigitChars 10 digits 0)) (String.ofList command)]
  | .sleep digits => [Step.sleep (UInt64.ofNat (Nat.ofDigitChars 10 digits 0))]
  | .write data path => [writeData (String.ofList path) (String.ofList data)]

end PlainCommand

/-- A line is a command of the grammar. -/
def Reads (line : List Char) (command : PlainCommand) : Prop :=
  Fits command.pieces line ∧ command.WellFormed

/-- The steps that a line stands for. A command in quotes is not taken with its quotes, and only a
line that is no command is a comment. -/
inductive Means (line : List Char) : List Step → Prop
  | command {command : PlainCommand} (reads : Reads line command)
      (unquoted : command.form = .run → ∀ inside, ¬ Reads line (.quotedRun inside)) :
      Means line command.steps
  | comment (none : ∀ command, ¬ Reads line command) : Means line [comment (String.ofList line)]

theorem afterFolded?_eq_some {word text rest : List Char} :
    afterFolded? word text = some rest ↔
      ∃ spelling, text = spelling ++ rest ∧ spelling.map foldChar = word := by
  induction word generalizing text with
  | nil => simp [afterFolded?]
  | cons w word ih =>
      cases text with
      | nil => simp [afterFolded?]
      | cons c text =>
          by_cases same : w = foldChar c
          · rw [afterFolded?, if_pos same, ih]
            constructor
            · rintro ⟨spelling, rfl, rfl⟩
              exact ⟨c :: spelling, rfl, by rw [List.map_cons, same]⟩
            · rintro ⟨spelling, split, folded⟩
              cases spelling with
              | nil => cases folded
              | cons d spelling =>
                  cases split
                  exact ⟨spelling, rfl, (List.cons.inj folded).2⟩
          · rw [afterFolded?, if_neg same]
            apply iff_of_false (by simp)
            rintro ⟨spelling, split, folded⟩
            cases spelling with
            | nil => cases folded
            | cons d spelling =>
                cases split
                exact same (List.cons.inj folded).1.symm

section
variable {letters : String} {pieces : List Piece} {text line : List Char}

theorem fits_word_cons : Fits (.word letters :: pieces) line ↔
    ∃ rest, afterFolded? letters.toList line = some rest ∧ Fits pieces rest := by
  simp only [Fits, afterFolded?_eq_some]
  constructor
  · rintro ⟨spelling, rest, split, folded, fits⟩
    exact ⟨rest, ⟨spelling, split, folded⟩, fits⟩
  · rintro ⟨rest, ⟨spelling, split, folded⟩, fits⟩
    exact ⟨spelling, rest, split, folded, fits⟩

theorem fits_part_cons : Fits (.part text :: pieces) line ↔
    ∃ rest, line = text ++ rest ∧ Fits pieces rest :=
  Iff.rfl

theorem fits_nil : Fits [] line ↔ line = [] := Iff.rfl

/-- What begins with a word begins with its first letter, in any case. -/
theorem head?_of_afterFolded? {w : Char} {word rest : List Char}
    (h : afterFolded? (w :: word) line = some rest) : ∃ c ∈ line.head?, foldChar c = w := by
  obtain ⟨spelling, rfl, folded⟩ := afterFolded?_eq_some.1 h
  cases spelling with
  | nil => cases folded
  | cons c spelling => exact ⟨c, rfl, (List.cons.inj folded).1⟩

theorem stops_of_afterFolded? {p : Char → Bool} {w : Char} {word rest : List Char}
    (h : afterFolded? (w :: word) line = some rest) (other : ∀ c, foldChar c = w → p c = false) :
    Stops p line := by
  obtain ⟨c, head, folded⟩ := head?_of_afterFolded? h
  intro d head'
  obtain rfl : c = d := Option.some.inj (head.symm.trans head')
  exact other c folded

/-- A word that a text begins with begins the folded text. -/
theorem prefix_of_afterFolded? {word rest : List Char} (h : afterFolded? word line = some rest) :
    word <+: line.map foldChar := by
  obtain ⟨spelling, rfl, rfl⟩ := afterFolded?_eq_some.1 h
  rw [List.map_append]
  exact List.prefix_append _ _

end

/-- The characters that are folded to another one. -/
def folded : List Char := "ABCDEFGHIJKLMNOPQRSTUVWXYZ\u017f\u212a".toList

theorem foldChar_eq_self {c : Char} (h : c ∉ folded) : foldChar c = c := by
  have capital : ∀ n, 65 ≤ n → n ≤ 90 → Char.ofNat n ∈ folded := by decide +kernel
  have long : c ≠ '\u017f' := fun same => h (same ▸ by decide)
  have kelvin : c ≠ '\u212a' := fun same => h (same ▸ by decide)
  rw [foldChar, if_neg long, if_neg kelvin]
  apply dif_neg
  rintro ⟨lower, upper⟩
  have mem := capital c.toNat (UInt32.le_iff_toNat_le.1 lower) (UInt32.le_iff_toNat_le.1 upper)
  rw [Char.ofNat_toNat] at mem
  exact h mem

theorem eq_of_foldChar {c w : Char} (h : foldChar c = w) (plain : ∀ d ∈ folded, foldChar d ≠ w) :
    c = w := by
  by_cases mem : c ∈ folded
  · exact absurd h (plain c mem)
  · rw [← h, foldChar_eq_self mem]

theorem eq_space_of_foldChar {c : Char} (h : foldChar c = ' ') : c = ' ' :=
  eq_of_foldChar h (forall_mem_of_all (by decide +kernel))

theorem isInk_of_fold_space {c : Char} (h : foldChar c = ' ') : isInk c = false := by
  rw [eq_space_of_foldChar h]
  decide

/-- Neither form of the first letter of a time unit is a digit. -/
theorem isDecimalDigit_of_fold_unit {c : Char} (h : foldChar c = 's' ∨ foldChar c = ' ') :
    isDecimalDigit c = false := by
  by_cases mem : c ∈ folded
  · exact forall_mem_of_all (p := fun c => isDecimalDigit c = false) (by decide +kernel) c mem
  · rw [foldChar_eq_self mem] at h
    rcases h with rfl | rfl
    · decide +kernel
    · decide +kernel

section
variable {line url path command digits data : List Char}

theorem reads_download : Reads line (.download url path) ↔
    ∃ rest tail, afterFolded? "download ".toList line = some rest ∧
      run? isInk rest = some (url, tail) ∧ afterFolded? " to ".toList tail = some path ∧
      IsSolid path := by
  simp only [Reads, PlainCommand.pieces, PlainCommand.WellFormed, fits_word_cons, fits_part_cons,
    fits_nil, exists_eq_right, List.append_nil, run?_eq_some]
  constructor
  · rintro ⟨⟨_, keyword, tail, rfl, middle⟩, ⟨nonempty, solid⟩, last⟩
    refine ⟨_, tail, keyword, ⟨rfl, nonempty, ?_, ?_⟩, middle, last⟩
    · intro c mem
      simp [isInk, solid c mem]
    · exact stops_of_afterFolded? middle fun c => isInk_of_fold_space
  · rintro ⟨_, tail, keyword, ⟨rfl, nonempty, ink, -⟩, middle, last⟩
    refine ⟨⟨_, keyword, tail, rfl, middle⟩, ⟨nonempty, ?_⟩, last⟩
    intro c mem
    simpa [isInk] using ink c mem

theorem reads_quotedRun : Reads line (.quotedRun command) ↔
    afterFolded? "run \"".toList line = some (command ++ ['"']) ∧ command ≠ [] := by
  have quote : ∀ {text : List Char}, afterFolded? "\"".toList text = some [] ↔ text = ['"'] := by
    intro text
    rw [afterFolded?_eq_some]
    constructor
    · rintro ⟨spelling, rfl, fold⟩
      cases spelling with
      | nil => cases fold
      | cons c spelling =>
          obtain ⟨first, others⟩ := List.cons.inj fold
          rw [eq_of_foldChar first (forall_mem_of_all (by decide +kernel)),
            List.map_eq_nil_iff.1 others]
          rfl
    · rintro rfl
      exact ⟨['"'], rfl, by decide⟩
  simp only [Reads, PlainCommand.pieces, PlainCommand.WellFormed, fits_word_cons, fits_part_cons,
    fits_nil, exists_eq_right, quote]

theorem reads_run : Reads line (.run command) ↔
    afterFolded? "run ".toList line = some command ∧ command ≠ [] := by
  simp only [Reads, PlainCommand.pieces, PlainCommand.WellFormed, fits_word_cons, fits_part_cons,
    fits_nil, exists_eq_right, List.append_nil]

theorem reads_sleep : Reads line (.sleep digits) ↔
    afterFolded? "sleep ".toList line = some digits ∧ IsWord64 digits := by
  simp only [Reads, PlainCommand.pieces, PlainCommand.WellFormed, fits_word_cons, fits_part_cons,
    fits_nil, exists_eq_right, List.append_nil]

theorem afterFolded?_append {first second text rest : List Char} :
    afterFolded? (first ++ second) text = some rest ↔
      ∃ middle, afterFolded? first text = some middle ∧ afterFolded? second middle = some rest := by
  simp only [afterFolded?_eq_some]
  constructor
  · rintro ⟨spelling, rfl, fold⟩
    obtain ⟨a, b, rfl, rfl, rfl⟩ := List.map_eq_append_iff.1 fold
    exact ⟨b ++ rest, ⟨a, List.append_assoc _ _ _, rfl⟩, b, rfl, rfl⟩
  · rintro ⟨_, ⟨a, rfl, rfl⟩, b, rfl, rfl⟩
    exact ⟨a ++ b, (List.append_assoc _ _ _).symm, List.map_append⟩

/-- A time unit with the colon and the space behind it. -/
def TimeUnit.closing (unit : TimeUnit) : List Char := unit.word.toList ++ ": ".toList

theorem TimeUnit.stops {unit : TimeUnit} {tail rest : List Char}
    (h : afterFolded? unit.closing tail = some rest) : Stops isDecimalDigit tail := by
  cases unit with
  | s => exact stops_of_afterFolded? h fun c fold => isDecimalDigit_of_fold_unit (Or.inl fold)
  | sec => exact stops_of_afterFolded? h fun c fold => isDecimalDigit_of_fold_unit (Or.inr fold)
  | seconds => exact stops_of_afterFolded? h fun c fold => isDecimalDigit_of_fold_unit (Or.inr fold)

theorem reads_every {unit : TimeUnit} : Reads line (.every digits unit command) ↔
    ∃ rest tail, afterFolded? "every ".toList line = some rest ∧
      run? isDecimalDigit rest = some (digits, tail) ∧
      afterFolded? unit.closing tail = some command ∧ IsWord64 digits ∧ command ≠ [] := by
  simp only [Reads, PlainCommand.pieces, PlainCommand.WellFormed, fits_word_cons, fits_part_cons,
    fits_nil, exists_eq_right, List.append_nil, run?_eq_some, ← afterFolded?_append,
    ← TimeUnit.closing.eq_1]
  constructor
  · rintro ⟨⟨_, keyword, tail, rfl, last⟩, number, nonempty⟩
    refine ⟨_, tail, keyword, ⟨rfl, number.1, ?_, TimeUnit.stops last⟩, last, number, nonempty⟩
    exact fun c mem => isDecimalDigit_of_isDigit (number.2.1 c mem)
  · rintro ⟨_, tail, keyword, ⟨rfl, -, -, -⟩, last, number, nonempty⟩
    exact ⟨⟨_, keyword, tail, rfl, last⟩, number, nonempty⟩

/-- The path is read from the end of the line. -/
theorem reads_write : Reads line (.write data path) ↔
    ∃ rest before, afterFolded? "write '".toList line = some rest ∧
      run? isInk rest.reverse = some (path.reverse, before) ∧
      afterFolded? " ot '".toList before = some data.reverse := by
  simp only [Reads, PlainCommand.pieces, PlainCommand.WellFormed, fits_word_cons, fits_part_cons,
    fits_nil, exists_eq_right, List.append_nil, run?_eq_some]
  constructor
  · rintro ⟨⟨_, keyword, _, rfl, middle⟩, nonempty, solid⟩
    obtain ⟨spelling, rfl, fold⟩ := afterFolded?_eq_some.1 middle
    have backwards : afterFolded? " ot '".toList (spelling.reverse ++ data.reverse) =
        some data.reverse := by
      refine afterFolded?_eq_some.2 ⟨spelling.reverse, rfl, ?_⟩
      rw [List.map_reverse, fold]
      decide
    refine ⟨_, _, keyword, ⟨by simp, by simpa using nonempty, ?_, ?_⟩, backwards⟩
    · intro c mem
      simp [isInk, solid c (List.mem_reverse.1 mem)]
    · exact stops_of_afterFolded? backwards fun c => isInk_of_fold_space
  · rintro ⟨rest, before, keyword, ⟨split, nonempty, ink, -⟩, backwards⟩
    obtain ⟨spelling, rfl, fold⟩ := afterFolded?_eq_some.1 backwards
    have forwards : afterFolded? "' to ".toList (spelling.reverse ++ path) = some path := by
      refine afterFolded?_eq_some.2 ⟨spelling.reverse, rfl, ?_⟩
      rw [List.map_reverse, fold]
      decide
    have whole : rest = data ++ (spelling.reverse ++ path) := by
      rw [← List.reverse_reverse rest, split]
      simp
    refine ⟨⟨rest, keyword, _, whole, forwards⟩, by simpa using nonempty, ?_⟩
    intro c mem
    simpa [isInk] using ink c (List.mem_reverse.2 mem)

end

section
variable {line : List Char}

theorem TimeUnit.eq_of_closing {unit other : TimeUnit} {tail rest rest' : List Char}
    (h : afterFolded? unit.closing tail = some rest)
    (h' : afterFolded? other.closing tail = some rest') : unit = other := by
  have apart : ∀ unit other : TimeUnit, unit.closing <+: other.closing → unit = other := by
    intro unit other
    cases unit <;> cases other <;> decide
  rcases List.prefix_or_prefix_of_prefix (prefix_of_afterFolded? h) (prefix_of_afterFolded? h') with
    inside | inside
  · exact apart unit other inside
  · exact (apart other unit inside).symm

/-- A line is made up of the parts of one form in at most one way. -/
theorem Reads.eq_of_form {command other : PlainCommand} (h : Reads line command)
    (h' : Reads line other) (same : command.form = other.form) : command = other := by
  cases command <;> cases other <;> try cases same
  case download url path url' path' =>
    obtain ⟨rest, tail, keyword, run, last, -⟩ := reads_download.1 h
    obtain ⟨rest', tail', keyword', run', last', -⟩ := reads_download.1 h'
    obtain rfl := Option.some.inj (keyword.symm.trans keyword')
    obtain ⟨rfl, rfl⟩ := Prod.mk.inj (Option.some.inj (run.symm.trans run'))
    obtain rfl := Option.some.inj (last.symm.trans last')
    rfl
  case quotedRun inside inside' =>
    have whole := Option.some.inj ((reads_quotedRun.1 h).1.symm.trans (reads_quotedRun.1 h').1)
    rw [List.append_cancel_right whole]
  case run text text' =>
    rw [Option.some.inj ((reads_run.1 h).1.symm.trans (reads_run.1 h').1)]
  case every digits unit text digits' unit' text' =>
    obtain ⟨rest, tail, keyword, run, last, -⟩ := reads_every.1 h
    obtain ⟨rest', tail', keyword', run', last', -⟩ := reads_every.1 h'
    obtain rfl := Option.some.inj (keyword.symm.trans keyword')
    obtain ⟨rfl, rfl⟩ := Prod.mk.inj (Option.some.inj (run.symm.trans run'))
    obtain rfl := TimeUnit.eq_of_closing last last'
    obtain rfl := Option.some.inj (last.symm.trans last')
    rfl
  case sleep digits digits' =>
    rw [Option.some.inj ((reads_sleep.1 h).1.symm.trans (reads_sleep.1 h').1)]
  case write data path data' path' =>
    obtain ⟨rest, before, keyword, run, last⟩ := reads_write.1 h
    obtain ⟨rest', before', keyword', run', last'⟩ := reads_write.1 h'
    obtain rfl := Option.some.inj (keyword.symm.trans keyword')
    obtain ⟨paths, rfl⟩ := Prod.mk.inj (Option.some.inj (run.symm.trans run'))
    have datas := Option.some.inj (last.symm.trans last')
    rw [List.reverse_injective paths, List.reverse_injective datas]

/-- The letter that lines of a form begin with. -/
def Form.initial : Form → Char
  | .download => 'd'
  | .quotedRun => 'r'
  | .run => 'r'
  | .every => 'e'
  | .sleep => 's'
  | .write => 'w'

theorem Reads.head? {command : PlainCommand} (h : Reads line command) :
    line.head?.map foldChar = some command.form.initial := by
  have initial : ∃ word pieces,
      command.pieces = .word (String.ofList (command.form.initial :: word)) :: pieces := by
    cases command <;> exact ⟨_, _, rfl⟩
  obtain ⟨word, pieces, start⟩ := initial
  have fits := h.1
  rw [start, fits_word_cons, String.toList_ofList] at fits
  obtain ⟨rest, keyword, -⟩ := fits
  obtain ⟨c, head, fold⟩ := head?_of_afterFolded? keyword
  rw [Option.mem_def.1 head, Option.map_some, fold]

/-- Only a command in quotes is of two forms. -/
theorem Reads.form_eq_or {command other : PlainCommand} (h : Reads line command)
    (h' : Reads line other) :
    command.form = other.form ∨ (command.form = .run ∧ other.form = .quotedRun) ∨
      (command.form = .quotedRun ∧ other.form = .run) := by
  have initials := Option.some.inj (h.head?.symm.trans h'.head?)
  generalize command.form = form at initials ⊢
  generalize other.form = form' at initials ⊢
  revert initials
  cases form <;> cases form' <;> decide

theorem exists_quotedRun {command : PlainCommand} (form : command.form = .quotedRun) :
    ∃ inside, command = .quotedRun inside := by
  cases command with
  | quotedRun inside => exact ⟨inside, rfl⟩
  | _ => cases form

theorem Means.unique {steps steps' : List Step} (h : Means line steps) (h' : Means line steps') :
    steps = steps' := by
  cases h with
  | comment none =>
      cases h' with
      | comment => rfl
      | command reads _ => exact absurd reads (none _)
  | command reads unquoted =>
      cases h' with
      | comment none => exact absurd reads (none _)
      | command reads' unquoted' =>
          rcases reads.form_eq_or reads' with same | ⟨run, quoted⟩ | ⟨quoted, run⟩
          · rw [reads.eq_of_form reads' same]
          · obtain ⟨inside, rfl⟩ := exists_quotedRun quoted
            exact absurd reads' (unquoted run inside)
          · obtain ⟨inside, rfl⟩ := exists_quotedRun quoted
            exact absurd reads (unquoted' run inside)

end

section
variable {line : List Char} {steps : List Step}

theorem findSome?_cons_eq_orElse {α β : Type} (f : α → Option β) (a : α) (rest : List α) :
    (a :: rest).findSome? f = (f a <|> rest.findSome? f) := by
  rw [List.findSome?_cons]
  cases f a <;> rfl

def TimeUnit.all : List TimeUnit := [.s, .sec, .seconds]

theorem afterUnit?_eq_findSome? (tail : List Char) :
    afterUnit? tail = TimeUnit.all.findSome? fun unit => afterFolded? unit.closing tail := by
  have s : TimeUnit.s.closing = "s: ".toList := by decide
  have sec : TimeUnit.sec.closing = " sec: ".toList := by decide
  have seconds : TimeUnit.seconds.closing = " seconds: ".toList := by decide
  rw [TimeUnit.all, findSome?_cons_eq_orElse, findSome?_cons_eq_orElse, List.findSome?_singleton, s,
    sec, seconds]
  rfl

/-- Which unit is tried first does not matter. -/
theorem afterUnit?_eq_some {tail command : List Char} :
    afterUnit? tail = some command ↔
      ∃ unit : TimeUnit, afterFolded? unit.closing tail = some command := by
  rw [afterUnit?_eq_findSome?]
  constructor
  · intro found
    obtain ⟨unit, -, closing⟩ := List.exists_of_findSome?_eq_some found
    exact ⟨unit, closing⟩
  · rintro ⟨unit, closing⟩
    have some : (TimeUnit.all.findSome? fun unit => afterFolded? unit.closing tail).isSome := by
      refine List.findSome?_isSome_iff.2 ⟨unit, ?_, Option.isSome_of_mem closing⟩
      cases unit <;> decide
    obtain ⟨other, found⟩ := Option.isSome_iff_exists.1 some
    obtain ⟨unit', -, closing'⟩ := List.exists_of_findSome?_eq_some found
    obtain rfl := TimeUnit.eq_of_closing closing closing'
    rw [found, ← closing', closing]

theorem inkToEnd?_eq_some {text path : List Char} :
    inkToEnd? text = some path ↔ text = path ∧ IsSolid path := by
  have ink : (text ≠ [] ∧ text.all isInk = true) ↔ IsSolid text := by
    simp [IsSolid, isInk]
  unfold inkToEnd?
  by_cases solid : IsSolid text
  · rw [if_pos (ink.2 solid), Option.some.injEq]
    exact ⟨fun same => ⟨same, same ▸ solid⟩, And.left⟩
  · rw [if_neg (mt ink.1 solid)]
    refine iff_of_false (by simp) ?_
    rintro ⟨rfl, h⟩
    exact solid h

def recognise : Form → List Char → Option (List Step)
  | .download => download?
  | .quotedRun => runQuoted?
  | .run => runPlain?
  | .every => every?
  | .sleep => sleep?
  | .write => write?

/-- The order in which the forms are tried. -/
def Form.all : List Form := [.download, .quotedRun, .run, .every, .sleep, .write]

theorem Form.mem_all (form : Form) : form ∈ Form.all := by
  cases form <;> decide

theorem ofLine_eq : ofLine line =
    (Form.all.findSome? (recognise · line)).getD [comment (String.ofList line)] := by
  simp only [Form.all, findSome?_cons_eq_orElse _ _ (_ :: _), List.findSome?_singleton]
  rfl

theorem recognise_of_reads {command : PlainCommand} (h : Reads line command) :
    recognise command.form line = some command.steps := by
  cases command with
  | download url path =>
      obtain ⟨rest, tail, keyword, run, last, solid⟩ := reads_download.1 h
      have path : inkToEnd? path = some path := inkToEnd?_eq_some.2 ⟨rfl, solid⟩
      simp only [PlainCommand.form, recognise, download?, keyword, run, last, path,
        Option.bind_eq_bind, Option.bind_some, PlainCommand.steps]
  | quotedRun command =>
      obtain ⟨keyword, nonempty⟩ := reads_quotedRun.1 h
      have quoted : (command ++ ['"']).getLast? = some '"' ∧ command ≠ [] :=
        ⟨List.getLast?_concat, nonempty⟩
      simp only [PlainCommand.form, recognise, runQuoted?, keyword, Option.bind_eq_bind,
        Option.bind_some, List.dropLast_concat, if_pos quoted, PlainCommand.steps]
  | run command =>
      obtain ⟨keyword, nonempty⟩ := reads_run.1 h
      simp only [PlainCommand.form, recognise, runPlain?, keyword, Option.bind_eq_bind,
        Option.bind_some, if_pos nonempty, PlainCommand.steps]
  | every digits unit command =>
      obtain ⟨rest, tail, keyword, run, last, number, nonempty⟩ := reads_every.1 h
      have unit := afterUnit?_eq_some.2 ⟨unit, last⟩
      have value := word64?_eq_some.2 ⟨number, rfl⟩
      simp only [PlainCommand.form, recognise, every?, keyword, run, unit, value,
        Option.bind_eq_bind, Option.bind_some, if_pos nonempty, PlainCommand.steps]
  | sleep digits =>
      obtain ⟨keyword, number⟩ := reads_sleep.1 h
      have value := word64?_eq_some.2 ⟨number, rfl⟩
      simp only [PlainCommand.form, recognise, sleep?, keyword, value, Option.bind_eq_bind,
        Option.bind_some, PlainCommand.steps]
  | write data path =>
      obtain ⟨rest, before, keyword, run, last⟩ := reads_write.1 h
      simp only [PlainCommand.form, recognise, write?, keyword, run, last, Option.bind_eq_bind,
        Option.bind_some, List.reverse_reverse, PlainCommand.steps]

theorem exists_reads_of_recognise {form : Form} (h : recognise form line = some steps) :
    ∃ command : PlainCommand, command.form = form ∧ Reads line command ∧ command.steps = steps := by
  cases form with
  | download =>
      obtain ⟨rest, keyword, h⟩ := Option.bind_eq_some_iff.1 h
      obtain ⟨⟨url, tail⟩, run, h⟩ := Option.bind_eq_some_iff.1 h
      obtain ⟨last, middle, h⟩ := Option.bind_eq_some_iff.1 h
      obtain ⟨path, ending, h⟩ := Option.bind_eq_some_iff.1 h
      obtain ⟨rfl, solid⟩ := inkToEnd?_eq_some.1 ending
      exact ⟨.download url last, rfl, reads_download.2 ⟨rest, tail, keyword, run, middle, solid⟩,
        Option.some.inj h⟩
  | quotedRun =>
      obtain ⟨rest, keyword, h⟩ := Option.bind_eq_some_iff.1 h
      dsimp only at h
      split at h
      · rename_i quoted
        have whole : rest.dropLast ++ ['"'] = rest := List.dropLast_append_getLast? _ quoted.1
        rw [← whole] at keyword
        exact ⟨.quotedRun rest.dropLast, rfl, reads_quotedRun.2 ⟨keyword, quoted.2⟩,
          Option.some.inj h⟩
      · cases h
  | run =>
      obtain ⟨rest, keyword, h⟩ := Option.bind_eq_some_iff.1 h
      split at h
      · rename_i nonempty
        exact ⟨.run rest, rfl, reads_run.2 ⟨keyword, nonempty⟩, Option.some.inj h⟩
      · cases h
  | every =>
      obtain ⟨rest, keyword, h⟩ := Option.bind_eq_some_iff.1 h
      obtain ⟨⟨digits, tail⟩, run, h⟩ := Option.bind_eq_some_iff.1 h
      obtain ⟨command, closing, h⟩ := Option.bind_eq_some_iff.1 h
      obtain ⟨unit, last⟩ := afterUnit?_eq_some.1 closing
      obtain ⟨value, valued, h⟩ := Option.bind_eq_some_iff.1 h
      obtain ⟨number, rfl⟩ := word64?_eq_some.1 valued
      split at h
      · rename_i nonempty
        exact ⟨.every digits unit command, rfl,
          reads_every.2 ⟨rest, tail, keyword, run, last, number, nonempty⟩, Option.some.inj h⟩
      · cases h
  | sleep =>
      obtain ⟨digits, keyword, h⟩ := Option.bind_eq_some_iff.1 h
      obtain ⟨value, valued, h⟩ := Option.bind_eq_some_iff.1 h
      obtain ⟨number, rfl⟩ := word64?_eq_some.1 valued
      exact ⟨.sleep digits, rfl, reads_sleep.2 ⟨keyword, number⟩, Option.some.inj h⟩
  | write =>
      obtain ⟨rest, keyword, h⟩ := Option.bind_eq_some_iff.1 h
      obtain ⟨⟨path, before⟩, run, h⟩ := Option.bind_eq_some_iff.1 h
      obtain ⟨data, last, h⟩ := Option.bind_eq_some_iff.1 h
      refine ⟨.write data.reverse path.reverse, rfl, reads_write.2 ⟨rest, before, keyword, ?_, ?_⟩,
        Option.some.inj h⟩
      · rw [List.reverse_reverse, run]
      · rw [List.reverse_reverse, last]

/-- The quoted form of a run is tried before the plain one, so a plain run has not been quoted. -/
theorem means_ofLine (line : List Char) : Means line (ofLine line) := by
  rw [ofLine_eq]
  cases found : Form.all.findSome? (recognise · line) with
  | none =>
      refine .comment fun command reads => ?_
      have refused := List.findSome?_eq_none_iff.1 found command.form (Form.mem_all _)
      rw [recognise_of_reads reads] at refused
      cases refused
  | some steps =>
      obtain ⟨before, form, after, order, accepted, refused⟩ := List.findSome?_eq_some_iff.1 found
      obtain ⟨command, rfl, reads, rfl⟩ := exists_reads_of_recognise accepted
      refine .command reads fun run inside quoted => ?_
      have tried : Form.quotedRun ∈ before := by
        rw [run, Form.all] at order
        rcases before with _ | ⟨first, _ | ⟨second, before⟩⟩
        · cases order
        · cases order
        · obtain rfl : Form.quotedRun = second := (List.cons.inj (List.cons.inj order).2).1
          exact List.mem_cons_of_mem _ List.mem_cons_self
      have none := refused _ tried
      rw [show Form.quotedRun = (PlainCommand.quotedRun inside).form from rfl,
        recognise_of_reads quoted] at none
      cases none

end

theorem means_iff {line : List Char} {steps : List Step} :
    Means line steps ↔ ofLine line = steps :=
  ⟨(means_ofLine line).unique, fun same => same ▸ means_ofLine line⟩

theorem forall₂_means {lines : List (List Char)} {meanings : List (List Step)} :
    List.Forall₂ Means lines meanings ↔ lines.map ofLine = meanings := by
  have same : Means = fun line steps => ofLine line = steps := by
    funext line steps
    exact propext means_iff
  rw [same, ← List.forall₂_map_left_iff (R := (· = ·)), List.forall₂_eq_eq_eq]

theorem plainLines_eq (text : String) : StepProgram.plainLines text =
    ((text.toList.splitOn '\n').map trim).filter (· ≠ []) := by
  apply List.filter_congr
  intro line _
  cases line <;> rfl

/-- The steps of a text are those that its trimmed lines stand for, one line after the other,
without the lines that are empty. Every line stands for one list of steps. It is made up of the
parts of each form in at most one way, and it is of two forms only if it is a command in quotes. -/
theorem compile_eq_meanings (text : String) :
    (∀ steps, (StepProgram.compile text).steps = steps ↔
      ∃ meanings, List.Forall₂ Means
        (((text.toList.splitOn '\n').map trim).filter (· ≠ [])) meanings ∧
        steps = meanings.flatten) ∧
    (∀ line, ∃! steps, Means line steps) ∧
    (∀ line (command other : PlainCommand), Reads line command → Reads line other →
      (command.form = other.form → command = other) ∧
      (command.form ≠ other.form → (command.form = .run ∧ other.form = .quotedRun) ∨
        (command.form = .quotedRun ∧ other.form = .run))) := by
  refine ⟨fun steps => ?_, fun line => ⟨ofLine line, means_ofLine line, ?_⟩, ?_⟩
  · rw [← plainLines_eq, StepProgram.compile, List.flatMap]
    constructor
    · rintro rfl
      exact ⟨_, forall₂_means.2 rfl, rfl⟩
    · rintro ⟨meanings, each, rfl⟩
      rw [forall₂_means.1 each]
  · intro other meaning
    exact meaning.unique (means_ofLine line)
  · intro line command other reads reads'
    exact ⟨reads.eq_of_form reads', fun apart => (reads.form_eq_or reads').resolve_left apart⟩

/-- A keyword with a long s, data with the closing words inside, and a number that is too large. -/
def oddLines : String := "\u017fLEEP 007\n\n  write 'a' to b' to c \nsleep 18446744073709551616"

theorem compile_oddLines :
    (Reads "write 'a' to b' to c".toList (.write "a' to b".toList "c".toList) ∧
      ∀ data path, Reads "write 'a' to b' to c".toList (.write data path) →
        PlainCommand.write data path = .write "a' to b".toList "c".toList) ∧
    (StepProgram.compile oddLines).steps =
        [sleep 7, writeData "c" "a' to b", comment "sleep 18446744073709551616"] ∧
      ∃ meanings, List.Forall₂ Means
        (((oddLines.toList.splitOn '\n').map trim).filter (· ≠ [])) meanings ∧
        [sleep 7, writeData "c" "a' to b", comment "sleep 18446744073709551616"] =
          meanings.flatten := by
  have reads : Reads "write 'a' to b' to c".toList (.write "a' to b".toList "c".toList) := by
    refine reads_write.2 ⟨_, _, rfl, rfl, rfl⟩
  have steps : (StepProgram.compile oddLines).steps =
      [sleep 7, writeData "c" "a' to b", comment "sleep 18446744073709551616"] := rfl
  refine ⟨⟨reads, fun data path reads' => ?_⟩, steps, ((compile_eq_meanings oddLines).1 _).1 steps⟩
  exact ((compile_eq_meanings oddLines).2.2 _ _ _ reads' reads).1 rfl

end PlainVerse.Step
