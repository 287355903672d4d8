import PlainVerse.CommandLine.Run
import PlainVerse.Proofs.CommandLine.Written
import PlainVerse.Proofs.Text.Number

/-!
# What the command line prints

A choice is a task with the values that are given for its options. It fixes what is printed for a
text and the exit code, however the choice is written and wherever the text comes from. Only the
options that belong to the task are looked at, and each of them by what is written for it.
-/
namespace PlainVerse.CommandLine

/-- A seed is a number of 64 bits, with a plus sign in front if one likes. -/
inductive IsSeed (text : String) (value : UInt64) : Prop
  | plain (denotes : Text.Denotes text.toList value.toNat)
  | plus {digits : List Char} (sign : text.toList = '+' :: digits)
      (denotes : Text.Denotes digits value.toNat)

/-- A cap is a number of 8 bits, with a plus sign in front if one likes, or a negative zero. -/
inductive IsCap (text : String) (value : UInt8) : Prop
  | plain (denotes : Text.Denotes text.toList value.toNat)
  | plus {digits : List Char} (sign : text.toList = '+' :: digits)
      (denotes : Text.Denotes digits value.toNat)
  | minus {digits : List Char} (sign : text.toList = '-' :: digits)
      (denotes : Text.Denotes digits 0) (zero : value = 0)

/-- A task and the values of its options, as far as they are given. -/
inductive Choice where
  | compile (seed : Option UInt64) (codec : Option String) (strict : Bool)
  | plain
  | parse (cap : Option UInt8)
  | lower (gene cmd : Option String)
  | introns
deriving DecidableEq, Repr

/-- An option is set to a value, or is not set. -/
def Sets {α : Type} (settings : List (Flag × String)) (flag : Flag) (Means : String → α → Prop) :
    Option α → Prop
  | none => ∀ text, (flag, text) ∉ settings
  | some value => ∃ text, (flag, text) ∈ settings ∧ Means text value

namespace Choice

def verb : Choice → Verb
  | compile .. => .compile
  | plain => .plain
  | parse _ => .parse
  | lower .. => .lower
  | introns => .introns

/-- The settings that a choice is made by. -/
def Given (settings : List (Flag × String)) : Choice → Prop
  | compile seed codec strict =>
      Sets settings .seed IsSeed seed ∧ Sets settings .codec Eq codec ∧
        (strict = true ↔ ∃ text, (Flag.strict, text) ∈ settings)
  | parse cap => Sets settings .scoreCap IsCap cap
  | lower gene cmd =>
      Sets settings .defaultGene Eq gene ∧ Sets settings .defaultCmd Eq cmd
  | plain | introns => True

/-- Compiles a command under the given options and the usual ones. -/
def compiled (seed : Option UInt64) (codec : Option String) (text : String) :
    Except Command.CompileError Plan :=
  Command.compile { codec := codec.getD "fibpi3d", seed := seed.getD 42 } text

/-- The value that is printed. -/
def result (text : String) : Choice → Json
  | compile seed codec _ =>
      match compiled seed codec text with
      | .ok plan => plan.toJson
      | .error error => error.toJson
  | plain => (StepProgram.compile text).toJson
  | parse cap => (Poem.parse text (cap.getD 7)).toJson
  | lower gene cmd =>
      (Gene.Document.ofProgram (Poem.parse text 7) ⟨gene.getD "bio:main", cmd⟩).toJson
  | introns => (Poem.Profile.ofSource text).toJson

/-- The exit code. -/
def exit (text : String) : Choice → UInt32
  | compile seed codec strict =>
      match compiled seed codec text with
      | .ok plan => if strict = true ∧ plan.dangling ≠ [] then 1 else 0
      | .error _ => 1
  | _ => 0

def outcome (choice : Choice) (text : String) : Outcome :=
  ⟨choice.exit text, (choice.result text).pretty ++ "\n"⟩

def task : Choice → Task
  | compile seed codec strict =>
      .compile { codec := codec.getD "fibpi3d", seed := seed.getD 42 } strict
  | plain => .plain
  | parse cap => .parse (cap.getD 7)
  | lower gene cmd => .lower ⟨gene.getD "bio:main", cmd⟩
  | introns => .introns

theorem compileExit_ok (strict : Bool) (plan : Plan) :
    compileExit strict (.ok plan) = if strict = true ∧ plan.dangling ≠ [] then 1 else 0 := by
  simp [compileExit]

theorem perform_compile (seed : Option UInt64) (codec : Option String) (strict : Bool)
    (text : String) :
    (compile seed codec strict).task.perform text =
      .printed (compileExit strict (compiled seed codec text))
        (Command.outcome (compiled seed codec text)) :=
  rfl

theorem perform_task (choice : Choice) (text : String) :
    choice.task.perform text = choice.outcome text := by
  cases choice with
  | compile seed codec strict =>
      rw [perform_compile, outcome, exit, result]
      cases compiled seed codec text with
      | error error => rfl
      | ok plan =>
          rw [compileExit_ok]
          rfl
  | plain | parse | lower | introns => rfl

end Choice

section
variable {text : String}

theorem not_denotes_of_sign {c : Char} {digits : List Char} {n : Nat} (sign : c.isDigit = false) :
    ¬ Text.Denotes (c :: digits) n := by
  intro denotes
  have digit := denotes.2.1 c List.mem_cons_self
  rw [sign] at digit
  cases digit

theorem seed?_eq_some {value : UInt64} : seed? text = some value ↔ IsSeed text value := by
  unfold seed?
  split
  · rename_i digits sign
    rw [Text.word64?_eq_some_iff_denotes]
    constructor
    · exact .plus sign
    · rintro (denotes | ⟨sign', denotes⟩)
      · rw [sign] at denotes
        exact absurd denotes (not_denotes_of_sign (by decide))
      · cases sign.symm.trans sign'
        exact denotes
  · rename_i other
    rw [Text.word64?_eq_some_iff_denotes]
    constructor
    · exact .plain
    · rintro (denotes | ⟨sign, -⟩)
      · exact denotes
      · exact absurd sign (other _)

theorem word8?_eq_some_iff_denotes {digits : List Char} {value : UInt8} :
    (Text.decimal? UInt8.size digits).map UInt8.ofNat = some value ↔
      Text.Denotes digits value.toNat :=
  Text.decimal?_map_eq_some (fun _ => UInt8.ofNat_toNat) (fun _ => UInt8.toNat_ofNat_of_lt')
    UInt8.toNat_lt

theorem cap?_eq_some {value : UInt8} : cap? text = some value ↔ IsCap text value := by
  unfold cap?
  simp only
  split
  · rename_i digits sign
    rw [word8?_eq_some_iff_denotes]
    constructor
    · exact .plus sign
    · rintro (denotes | ⟨sign', denotes⟩ | ⟨sign', -, -⟩)
      · rw [sign] at denotes
        exact absurd denotes (not_denotes_of_sign (by decide))
      · cases sign.symm.trans sign'
        exact denotes
      · exact absurd (sign.symm.trans sign') (by simp)
  · rename_i digits sign
    rw [Option.map_eq_some_iff]
    constructor
    · rintro ⟨n, found, rfl⟩
      obtain ⟨denotes, small⟩ := Text.decimal?_eq_some.1 found
      obtain rfl : n = 0 := by omega
      exact .minus sign denotes rfl
    · rintro (denotes | ⟨sign', -⟩ | ⟨sign', denotes, rfl⟩)
      · rw [sign] at denotes
        exact absurd denotes (not_denotes_of_sign (by decide))
      · exact absurd (sign.symm.trans sign') (by simp)
      · cases sign.symm.trans sign'
        exact ⟨0, Text.decimal?_eq_some.2 ⟨denotes, Nat.one_pos⟩, rfl⟩
  · rename_i noPlus noMinus
    rw [word8?_eq_some_iff_denotes]
    constructor
    · exact .plain
    · rintro (denotes | ⟨sign, -⟩ | ⟨sign, -, -⟩)
      · exact denotes
      · exact absurd sign (noPlus _)
      · exact absurd sign (noMinus _)

end

section
variable {settings : List (Flag × String)} {flag : Flag}

theorem lookup_eq_none : settings.lookup flag = none ↔ ∀ text, (flag, text) ∉ settings := by
  rw [List.lookup_eq_none_iff]
  constructor
  · intro absent text mem
    exact absurd (absent _ mem) (by simp)
  · intro absent setting mem
    refine bne_iff_ne.2 fun same => absent setting.2 ?_
    rw [same]
    exact mem

/-- An option that is given once has the value that is given for it. -/
theorem lookup_eq_some (once : (settings.map Prod.fst).Nodup) {text : String} :
    settings.lookup flag = some text ↔ (flag, text) ∈ settings :=
  OrderedMap.lookup_eq_some_iff_mem once

theorem isSome_lookup : (settings.lookup flag).isSome = true ↔ ∃ text, (flag, text) ∈ settings := by
  rw [← not_iff_not, Bool.not_eq_true, Option.isSome_eq_false_iff, Option.isNone_iff_eq_none,
    lookup_eq_none, not_exists]

variable (once : (settings.map Prod.fst).Nodup)
include once

theorem sets_eq_iff {value : Option String} :
    Sets settings flag Eq value ↔ settings.lookup flag = value := by
  cases value with
  | none => exact lookup_eq_none.symm
  | some text =>
      rw [lookup_eq_some once]
      constructor
      · rintro ⟨_, mem, rfl⟩
        exact mem
      · intro mem
        exact ⟨text, mem, rfl⟩

theorem given?_eq_some {α : Type} {Means : String → α → Prop} {meaning : String → Option α}
    (means : ∀ {text value}, meaning text = some value ↔ Means text value) {default value : α} :
    given? (settings.lookup flag) meaning default = some value ↔
      ∃ choice, Sets settings flag Means choice ∧ choice.getD default = value := by
  cases found : settings.lookup flag with
  | none =>
      have absent := lookup_eq_none.1 found
      constructor
      · intro same
        exact ⟨none, absent, Option.some.inj same⟩
      · rintro ⟨choice, sets, rfl⟩
        cases choice with
        | none => rfl
        | some value =>
            obtain ⟨text, mem, -⟩ := sets
            exact absurd mem (absent text)
  | some text =>
      have mem := (lookup_eq_some once).1 found
      constructor
      · intro read
        exact ⟨some value, ⟨text, mem, means.1 read⟩, rfl⟩
      · rintro ⟨choice, sets, rfl⟩
        cases choice with
        | none => exact absurd mem (sets text)
        | some value =>
            obtain ⟨other, mem', read⟩ := sets
            rw [(lookup_eq_some once).2 mem'] at found
            cases found
            exact means.2 read

theorem Choice.Given.task?_eq {choice : Choice} (given : choice.Given settings)
    (words : List String) : Request.task? choice.verb ⟨settings, words⟩ = some choice.task := by
  cases choice with
  | compile seed codec strict =>
      obtain ⟨hseed, hcodec, hstrict⟩ := given
      have read : given? (settings.lookup .seed) seed? 42 = some (seed.getD 42) :=
        (given?_eq_some once seed?_eq_some).2 ⟨seed, hseed, rfl⟩
      have name : settings.lookup .codec = codec := (sets_eq_iff once).1 hcodec
      have flag : (settings.lookup .strict).isSome = strict :=
        Bool.eq_iff_iff.2 (isSome_lookup.trans hstrict.symm)
      simp only [verb, Request.task?, Arguments.value?, read, name, flag, Option.bind_eq_bind,
        Option.bind_some, task]
  | plain => rfl
  | parse cap =>
      have read : given? (settings.lookup .scoreCap) cap? 7 = some (cap.getD 7) :=
        (given?_eq_some once cap?_eq_some).2 ⟨cap, given, rfl⟩
      exact congrArg (Option.map Task.parse) read
  | lower gene cmd =>
      have name : settings.lookup .defaultGene = gene := (sets_eq_iff once).1 given.1
      have command : settings.lookup .defaultCmd = cmd := (sets_eq_iff once).1 given.2
      simp only [verb, Request.task?, Arguments.value?, name, command, Option.or_none, task]
  | introns => rfl

theorem exists_given {verb : Verb} {words : List String} {task : Task}
    (found : Request.task? verb ⟨settings, words⟩ = some task) :
    ∃ choice : Choice, choice.verb = verb ∧ choice.Given settings ∧ choice.task = task := by
  cases verb with
  | compile =>
      obtain ⟨seed, read, same⟩ := Option.bind_eq_some_iff.1 found
      obtain ⟨choice, sets, rfl⟩ := (given?_eq_some once seed?_eq_some).1 read
      refine ⟨.compile choice (settings.lookup .codec) (settings.lookup .strict).isSome, rfl,
        ⟨sets, (sets_eq_iff once).2 rfl, isSome_lookup⟩, ?_⟩
      exact Option.some.inj same
  | plain => exact ⟨.plain, rfl, trivial, Option.some.inj found⟩
  | parse =>
      obtain ⟨cap, read, rfl⟩ := Option.map_eq_some_iff.1 found
      obtain ⟨choice, sets, rfl⟩ := (given?_eq_some once cap?_eq_some).1 read
      exact ⟨.parse choice, rfl, sets, rfl⟩
  | lower =>
      refine ⟨.lower (settings.lookup .defaultGene) (settings.lookup .defaultCmd), rfl,
        ⟨(sets_eq_iff once).2 rfl, (sets_eq_iff once).2 rfl⟩, ?_⟩
      rw [← Option.some.inj found, Option.or_none]
      rfl
  | introns => exact ⟨.introns, rfl, trivial, Option.some.inj found⟩

end

/-- Where the input comes from: a file if one is named, and then there are no words; else the words
if there are any; else standard input. -/
inductive Asks (settings : List (Flag × String)) (words : List String) : Source → Prop
  | file {path : String} (named : (Flag.file, path) ∈ settings) (nonempty : path ≠ "")
      (alone : words = []) : Asks settings words (.file path)
  | words (unnamed : ∀ path, (Flag.file, path) ∉ settings) (present : words ≠ []) :
      Asks settings words (.words words)
  | standardInput (unnamed : ∀ path, (Flag.file, path) ∉ settings) (absent : words = []) :
      Asks settings words .standardInput

/-- The text that a source holds: the words joined by single spaces, or the text that the bytes are
the encoding of. -/
inductive Holds (files : String → Option ByteArray) (stdin : Option ByteArray) :
    Source → String → Prop
  | file {path text : String} (bytes : files path = some text.toUTF8) :
      Holds files stdin (.file path) text
  | words (words : List String) : Holds files stdin (.words words) (String.intercalate " " words)
  | standardInput {text : String} (bytes : stdin = some text.toUTF8) :
      Holds files stdin .standardInput text

theorem bind_fromUTF8?_eq_some {bytes : Option ByteArray} {text : String} :
    bytes.bind String.fromUTF8? = some text ↔ bytes = some text.toUTF8 := by
  rw [Option.bind_eq_some_iff]
  constructor
  · rintro ⟨encoded, rfl, decoded⟩
    unfold String.fromUTF8? at decoded
    split at decoded
    · cases decoded
      rfl
    · cases decoded
  · rintro rfl
    exact ⟨_, rfl, dif_pos text.isValidUTF8⟩

theorem text?_eq_some {files : String → Option ByteArray} {stdin : Option ByteArray}
    {source : Source} {text : String} :
    source.text? files stdin = some text ↔ Holds files stdin source text := by
  cases source with
  | file path =>
      refine bind_fromUTF8?_eq_some.trans ⟨.file, fun holds => ?_⟩
      cases holds with
      | file bytes => exact bytes
  | words words =>
      constructor
      · intro same
        rw [← Option.some.inj same]
        exact .words words
      · intro holds
        cases holds
        rfl
  | standardInput =>
      refine bind_fromUTF8?_eq_some.trans ⟨.standardInput, fun holds => ?_⟩
      cases holds with
      | standardInput bytes => exact bytes

section
variable {settings : List (Flag × String)} {words : List String} {source : Source}

theorem isConsistent_iff : (Arguments.mk settings words).isConsistent = true ↔
    (settings.map Prod.fst).Nodup ∧ (settings.lookup .file = none ∨ words = []) := by
  simp [Arguments.isConsistent, Arguments.value?]

theorem Asks.isConsistent (once : (settings.map Prod.fst).Nodup)
    (asks : Asks settings words source) :
    (Arguments.mk settings words).isConsistent = true := by
  refine isConsistent_iff.2 ⟨once, ?_⟩
  cases asks with
  | file _ _ alone => exact Or.inr alone
  | words unnamed => exact Or.inl (lookup_eq_none.2 unnamed)
  | standardInput _ absent => exact Or.inr absent

theorem Asks.source?_eq (once : (settings.map Prod.fst).Nodup) (asks : Asks settings words source) :
    Request.source? ⟨settings, words⟩ = some source := by
  unfold Request.source? Arguments.value?
  cases asks with
  | file named nonempty => simp [(lookup_eq_some once).2 named, nonempty]
  | words unnamed present => simp [lookup_eq_none.2 unnamed, present]
  | standardInput unnamed absent => simp [lookup_eq_none.2 unnamed, absent]

theorem asks_of_source? (consistent : (Arguments.mk settings words).isConsistent = true)
    (found : Request.source? ⟨settings, words⟩ = some source) : Asks settings words source := by
  obtain ⟨once, alone⟩ := isConsistent_iff.1 consistent
  unfold Request.source? Arguments.value? at found
  cases file : settings.lookup .file with
  | none =>
      have unnamed := lookup_eq_none.1 file
      cases words with
      | nil =>
          simp only [file] at found
          cases found
          exact .standardInput unnamed rfl
      | cons word rest =>
          simp only [file] at found
          cases found
          exact .words unnamed (List.cons_ne_nil word rest)
  | some path =>
      simp only [file] at found
      split at found
      · cases found
      · rename_i nonempty
        cases found
        exact .file ((lookup_eq_some once).1 file) nonempty (alone.resolve_left (by simp [file]))

end

/-- The arguments make a choice and name a source for the input. -/
def Invokes (choice : Choice) (source : Source) (arguments : List String) : Prop :=
  ∃ settings words rest, arguments = choice.verb.name :: rest ∧
    Written choice.verb settings words rest ∧ (settings.map Prod.fst).Nodup ∧
    choice.Given settings ∧ Asks settings words source

theorem Invokes.ofArguments?_eq {choice : Choice} {source : Source} {arguments : List String}
    (invokes : Invokes choice source arguments) :
    Request.ofArguments? arguments = some ⟨choice.task, source⟩ := by
  obtain ⟨settings, words, rest, rfl, written, once, given, asks⟩ := invokes
  simp only [Request.ofArguments?, ofName?_eq_some.2 rfl, written.collect?_eq,
    asks.isConsistent once, given.task?_eq once, asks.source?_eq once, Option.bind_eq_bind,
    Option.bind_some, Bool.not_true, Bool.false_eq_true, if_false]

theorem exists_invokes {arguments : List String} {request : Request}
    (found : Request.ofArguments? arguments = some request) :
    ∃ choice : Choice, choice.task = request.task ∧ Invokes choice request.source arguments := by
  cases arguments with
  | nil => cases found
  | cons name rest =>
      obtain ⟨verb, isVerb, found⟩ := Option.bind_eq_some_iff.1 found
      obtain ⟨⟨settings, words⟩, collects, found⟩ := Option.bind_eq_some_iff.1 found
      cases consistent : (Arguments.mk settings words).isConsistent with
      | false =>
          rw [consistent] at found
          cases found
      | true =>
          rw [consistent] at found
          obtain ⟨task, isTask, found⟩ := Option.bind_eq_some_iff.1 found
          obtain ⟨source, isSource, found⟩ := Option.bind_eq_some_iff.1 found
          cases found
          have once := (isConsistent_iff.1 consistent).1
          obtain ⟨choice, rfl, given, same⟩ := exists_given once isTask
          refine ⟨choice, same, settings, words, rest, ?_, collect?_eq_some.1 collects, once, given,
            asks_of_source? consistent isSource⟩
          rw [ofName?_eq_some.1 isVerb]

section
variable {files : String → Option ByteArray} {stdin : Option ByteArray} {choice : Choice}
  {source : Source} {arguments : List String}

theorem Invokes.run_eq (invokes : Invokes choice source arguments) {text : String}
    (holds : Holds files stdin source text) :
    run files stdin arguments = choice.outcome text := by
  simp only [run, invokes.ofArguments?_eq, text?_eq_some.2 holds, Choice.perform_task]

theorem Invokes.run_unreadable (invokes : Invokes choice source arguments)
    (unreadable : ∀ text, ¬ Holds files stdin source text) :
    run files stdin arguments = ⟨1, ""⟩ := by
  have none : source.text? files stdin = none :=
    Option.eq_none_iff_forall_ne_some.2 fun text found => unreadable text (text?_eq_some.1 found)
  simp only [run, invokes.ofArguments?_eq, none]
  rfl

theorem exists_invokes_of_exit (accepted : (run files stdin arguments).exit ≠ 2) :
    ∃ choice source, Invokes choice source arguments := by
  cases found : Request.ofArguments? arguments with
  | none =>
      refine absurd ?_ accepted
      simp only [run, found]
      rfl
  | some request =>
      obtain ⟨choice, -, invokes⟩ := exists_invokes found
      exact ⟨choice, request.source, invokes⟩

end

theorem Sets.concat_other {α : Type} {settings : List (Flag × String)} {flag other : Flag}
    {Means : String → α → Prop} {value : Option α} (sets : Sets settings flag Means value)
    (different : flag ≠ other) (text : String) :
    Sets (settings ++ [(other, text)]) flag Means value := by
  cases value with
  | none =>
      intro given mem
      rcases List.mem_append.1 mem with old | new
      · exact sets given old
      · exact different (Prod.mk.inj (List.mem_singleton.1 new)).1
  | some value =>
      obtain ⟨given, mem, means⟩ := sets
      exact ⟨given, List.mem_append_left _ mem, means⟩

/-- Naming a file changes nothing about the choice. -/
theorem Choice.Given.concat_file {choice : Choice} {settings : List (Flag × String)}
    (given : choice.Given settings) (path : String) :
    choice.Given (settings ++ [(.file, path)]) := by
  cases choice with
  | compile seed codec strict =>
      obtain ⟨hseed, hcodec, hstrict⟩ := given
      refine ⟨hseed.concat_other (by decide) path, hcodec.concat_other (by decide) path, ?_⟩
      simpa using hstrict
  | parse cap => exact Sets.concat_other given (by decide) path
  | lower gene cmd =>
      exact ⟨given.1.concat_other (by decide) path, given.2.concat_other (by decide) path⟩
  | plain | introns => trivial

section
variable {choice : Choice} {settings : List (Flag × String)} {options : List String}
  (spelled : Spelled choice.verb settings options) (once : (settings.map Prod.fst).Nodup)
  (given : choice.Given settings) (unnamed : ∀ path, (Flag.file, path) ∉ settings)
include spelled once given unnamed

theorem invokes_words {words : List String} (present : words ≠ []) :
    Invokes choice (.words words) (choice.verb.name :: (options ++ "--" :: words)) := by
  have written := spelled.written (.separator words)
  rw [List.append_nil] at written
  exact ⟨settings, words, _, rfl, written, once, given, .words unnamed present⟩

theorem invokes_standardInput : Invokes choice .standardInput (choice.verb.name :: options) := by
  have written := spelled.written .nil
  rw [List.append_nil, List.append_nil] at written
  exact ⟨settings, [], _, rfl, written, once, given, .standardInput unnamed rfl⟩

theorem invokes_file {path : String} {spelledFile : List String} (nonempty : path ≠ "")
    (spells : Spells .file path spelledFile) :
    Invokes choice (.file path) (choice.verb.name :: (options ++ spelledFile)) := by
  have written := spelled.written (.option (file_mem_flags choice.verb) spells .nil)
  rw [List.append_nil] at written
  refine ⟨_, [], _, rfl, written, ?_, given.concat_file path,
    .file (List.mem_append_right _ List.mem_cons_self) nonempty rfl⟩
  rw [List.map_append, List.nodup_append]
  refine ⟨once, List.pairwise_singleton _ _, ?_⟩
  rintro _ mem _ single rfl
  obtain ⟨⟨flag, text⟩, found, rfl⟩ := List.mem_map.1 mem
  obtain rfl : flag = .file := List.mem_singleton.1 single
  exact unnamed text found

end

/-- An argument before the separator asks for a help page. -/
def AsksHelp (arguments : List String) : Prop :=
  arguments.head? = some "help" ∨
    ∃ argument ∈ arguments.takeWhile (· ≠ "--"),
      argument = "--help" ∨ ['-', 'h'] <+: argument.toList

/-- However a choice is written, and wherever the text comes from, what is printed and the exit code
are those of the choice and the text. An input that holds no text prints nothing. Arguments that
make no choice are rejected; nothing is said here about those that ask for help. In particular a
text may be one word after the separator, stand on standard input or be in a file, and several words
are like one in which they are joined. -/
theorem run_agreement (files : String → Option ByteArray) (stdin : Option ByteArray) :
    (∀ choice source arguments text, Invokes choice source arguments →
      Holds files stdin source text →
      run files stdin arguments = ⟨choice.exit text, (choice.result text).pretty ++ "\n"⟩) ∧
    (∀ choice source arguments, Invokes choice source arguments →
      (∀ text, ¬ Holds files stdin source text) → run files stdin arguments = ⟨1, ""⟩) ∧
    (∀ arguments, ¬ AsksHelp arguments → (run files stdin arguments).exit ≠ 2 →
      ∃ choice source, Invokes choice source arguments) ∧
    (∀ (choice : Choice) (settings : List (Flag × String)) (options : List String),
      Spelled choice.verb settings options → (settings.map Prod.fst).Nodup →
      choice.Given settings → (∀ path, (Flag.file, path) ∉ settings) → ∀ text,
      run files stdin (choice.verb.name :: (options ++ ["--", text])) = choice.outcome text ∧
      run files (some text.toUTF8) (choice.verb.name :: options) = choice.outcome text ∧
      (∀ path spelled, path ≠ "" → Spells .file path spelled →
        files path = some text.toUTF8 →
        run files stdin (choice.verb.name :: (options ++ spelled)) = choice.outcome text) ∧
      ∀ words, words ≠ [] →
        run files stdin (choice.verb.name :: (options ++ "--" :: words)) =
          run files stdin
            (choice.verb.name :: (options ++ ["--", String.intercalate " " words]))) := by
  refine ⟨fun choice source arguments text invokes holds => invokes.run_eq holds,
    fun choice source arguments invokes => invokes.run_unreadable,
    fun arguments _ => exists_invokes_of_exit, ?_⟩
  intro choice settings options spelled once given unnamed text
  have onWords : ∀ words, words ≠ [] →
      run files stdin (choice.verb.name :: (options ++ "--" :: words)) =
        choice.outcome (String.intercalate " " words) := fun words present =>
    (invokes_words spelled once given unnamed present).run_eq (.words words)
  refine ⟨onWords [text] (List.cons_ne_nil _ _), ?_, ?_, ?_⟩
  · exact (invokes_standardInput spelled once given unnamed).run_eq (.standardInput rfl)
  · intro path spelledFile nonempty spells bytes
    exact (invokes_file spelled once given unnamed nonempty spells).run_eq (.file bytes)
  · intro words present
    rw [onWords words present]
    exact (onWords [String.intercalate " " words] (List.cons_ne_nil _ _)).symm

/-- A seed with a sign and the check of references are chosen. The text refers to what is not there,
so the plan is printed and the run fails in all four ways, and without an input it fails at once. -/
theorem run_agreement_strict :
    (∃ outcome : Outcome, outcome.exit = 1 ∧
      outcome = (Choice.compile (some 7) none true).outcome "attest it" ∧
      run (fun _ => some "attest it".toUTF8) none
        ["compile", "--seed=+7", "--strict", "--", "attest it"] = outcome ∧
      run (fun _ => none) (some "attest it".toUTF8) ["compile", "--seed=+7", "--strict"] =
        outcome ∧
      run (fun _ => some "attest it".toUTF8) none
        ["compile", "--seed=+7", "--strict", "-f", "it"] = outcome ∧
      run (fun _ => some "attest it".toUTF8) none
        ["compile", "--seed=+7", "--strict", "--", "attest", "it"] = outcome) ∧
    run (fun _ => none) none ["compile", "--seed=+7", "--strict"] = ⟨1, ""⟩ := by
  let choice : Choice := .compile (some 7) none true
  have seed : IsSeed "+7" 7 := seed?_eq_some.1 (by decide)
  have spelled : Spelled .compile [(.seed, "+7"), (.strict, "")] ["--seed=+7", "--strict"] :=
    .cons (by decide) (.attached rfl (.longValue .seed "+7"))
      (.cons (by decide) (.alone rfl (.long .strict)) .nil)
  have once : ([(.seed, "+7"), (.strict, "")].map Prod.fst : List Flag).Nodup := by decide
  have given : choice.Given [(.seed, "+7"), (.strict, "")] :=
    ⟨⟨"+7", by decide, seed⟩, by simp [Sets], by simp⟩
  have unnamed : ∀ path, (Flag.file, path) ∉ [(Flag.seed, "+7"), (Flag.strict, "")] := by simp
  have plain : ¬ Hyphened "it" := isValue_iff.1 (by decide)
  obtain ⟨-, -, -, ways⟩ := run_agreement (fun _ => some "attest it".toUTF8) none
  obtain ⟨-, unreadable, -, other⟩ := run_agreement (fun _ => none) none
  obtain ⟨word, -, file, words⟩ := ways choice _ _ spelled once given unnamed "attest it"
  obtain ⟨-, input, -⟩ := other choice _ _ spelled once given unnamed "attest it"
  refine ⟨⟨choice.outcome "attest it", by decide +kernel, rfl, word, input, ?_, ?_⟩, ?_⟩
  · exact file "it" ["-f", "it"] (by decide) (.apart rfl .short plain) rfl
  · exact (words ["attest", "it"] (List.cons_ne_nil _ _)).trans word
  · refine unreadable choice .standardInput _
      (invokes_standardInput spelled once given unnamed) ?_
    intro text holds
    cases holds with
    | standardInput bytes => cases bytes

end PlainVerse.CommandLine
