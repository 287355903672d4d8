import PlainVerse.CommandLine.Arguments
import PlainVerse.Proofs.Text.Search

/-!
# How arguments are written

The arguments after the name of a task are words and options in any order, and after a separator
words only. An option has a long name, a file also a short one, and the value of an option stands
in the same argument or in the next one. What is collected from arguments is exactly what can be
written by them.
-/
namespace PlainVerse.CommandLine

/-- An argument with a hyphen in front, other than a hyphen alone. -/
def Hyphened (argument : String) : Prop := ∃ c rest, argument.toList = '-' :: c :: rest

/-- An argument that names an option, with the value that stands in it. -/
inductive Opens : Flag → Option String → String → Prop
  | long (flag : Flag) : Opens flag none ("--" ++ flag.name)
  | longValue (flag : Flag) (value : String) :
      Opens flag (some value) ("--" ++ flag.name ++ "=" ++ value)
  | short : Opens .file none "-f"
  | shortValue {value : String} (nonempty : value ≠ "") (apart : value.toList.head? ≠ some '=') :
      Opens .file (some value) ("-f" ++ value)
  | shortEquals (value : String) : Opens .file (some value) ("-f=" ++ value)

/-- The arguments that set an option to a value. -/
inductive Spells : Flag → String → List String → Prop
  | attached {flag : Flag} {value argument : String} (takes : flag.takesValue = true)
      (opens : Opens flag (some value) argument) : Spells flag value [argument]
  | apart {flag : Flag} {value argument : String} (takes : flag.takesValue = true)
      (opens : Opens flag none argument) (plain : ¬ Hyphened value) :
      Spells flag value [argument, value]
  | alone {flag : Flag} {argument : String} (takes : flag.takesValue = false)
      (opens : Opens flag none argument) : Spells flag "" [argument]

/-- The options with their values, the words, and the arguments they are written by. -/
inductive Written (verb : Verb) : List (Flag × String) → List String → List String → Prop
  | nil : Written verb [] [] []
  | word {settings : List (Flag × String)} {words arguments : List String} {word : String}
      (plain : ¬ Hyphened word) (rest : Written verb settings words arguments) :
      Written verb settings (word :: words) (word :: arguments)
  | option {settings : List (Flag × String)} {words arguments spelled : List String}
      {flag : Flag} {value : String} (known : flag ∈ verb.flags)
      (spells : Spells flag value spelled) (rest : Written verb settings words arguments) :
      Written verb ((flag, value) :: settings) words (spelled ++ arguments)
  | separator (words : List String) : Written verb [] words ("--" :: words)

theorem isValue_iff {argument : String} : isValue argument = true ↔ ¬ Hyphened argument := by
  unfold isValue Hyphened
  split
  · rename_i c rest found
    exact iff_of_false Bool.false_ne_true fun plain => plain ⟨c, rest, found⟩
  · rename_i other
    refine iff_of_true rfl ?_
    rintro ⟨c, rest, found⟩
    exact other c rest found

theorem flag?_name {verb : Verb} {flag : Flag} (known : flag ∈ verb.flags) :
    verb.flag? flag.name.toList = some flag := by
  revert known
  cases verb <;> cases flag <;> decide

theorem flag?_eq_some {verb : Verb} {name : List Char} {flag : Flag} :
    verb.flag? name = some flag ↔ flag ∈ verb.flags ∧ flag.name.toList = name := by
  constructor
  · intro found
    rw [Verb.flag?] at found
    have same := List.find?_some found
    exact ⟨List.mem_of_find?_eq_some found, of_decide_eq_true same⟩
  · rintro ⟨known, rfl⟩
    exact flag?_name known

theorem ofName?_eq_some {name : String} {verb : Verb} :
    Verb.ofName? name = some verb ↔ verb.name = name := by
  constructor
  · intro found
    rw [Verb.ofName?] at found
    have same := List.find?_some found
    exact of_decide_eq_true same
  · rintro rfl
    cases verb <;> decide

theorem name_ne_equals (flag : Flag) : ∀ c ∈ flag.name.toList, (c != '=') = true := by
  cases flag <;> exact Text.forall_mem_of_all (by decide)

theorem name_ne_nil (flag : Flag) : flag.name.toList ≠ [] := by
  cases flag <;> decide

/-- What follows the name of a long option. -/
def suffix : Option (List Char) → List Char
  | none => []
  | some value => '=' :: value

theorem longArgument_name {verb : Verb} {flag : Flag} (known : flag ∈ verb.flags)
    (attached : Option (List Char)) :
    longArgument verb (flag.name.toList ++ suffix attached) = .flag flag attached := by
  have name := name_ne_equals flag
  unfold longArgument
  cases attached with
  | none =>
      have dropped : flag.name.toList.dropWhile (· != '=') = [] :=
        List.dropWhile_eq_nil_iff.2 name
      simp only [suffix, List.append_nil, dropped, flag?_name known]
  | some value =>
      have dropped : (flag.name.toList ++ '=' :: value).dropWhile (· != '=') = '=' :: value := by
        rw [List.dropWhile_append_of_pos name]
        rfl
      have taken : (flag.name.toList ++ '=' :: value).takeWhile (· != '=') =
          flag.name.toList := by
        rw [List.takeWhile_append_of_pos name]
        exact List.append_nil _
      simp only [suffix, dropped, taken, flag?_name known]

theorem longArgument_eq_flag {verb : Verb} {text : List Char} {flag : Flag}
    {attached : Option (List Char)} :
    longArgument verb text = .flag flag attached ↔
      flag ∈ verb.flags ∧ text = flag.name.toList ++ suffix attached := by
  constructor
  · intro found
    unfold longArgument at found
    cases rest : text.dropWhile (· != '=') with
    | nil =>
        simp only [rest] at found
        cases name : verb.flag? text with
        | none => simp [name] at found
        | some other =>
            simp only [name] at found
            cases found
            obtain ⟨known, rfl⟩ := flag?_eq_some.1 name
            exact ⟨known, (List.append_nil _).symm⟩
    | cons c value =>
        have equals : c = '=' := by
          have stopped := List.head?_dropWhile_not (· != '=') text
          rw [rest] at stopped
          simpa using stopped
        subst equals
        simp only [rest] at found
        cases name : verb.flag? (text.takeWhile (· != '=')) with
        | none => simp [name] at found
        | some other =>
            simp only [name] at found
            cases found
            obtain ⟨known, same⟩ := flag?_eq_some.1 name
            refine ⟨known, ?_⟩
            rw [suffix, same, ← rest, List.takeWhile_append_dropWhile]
  · rintro ⟨known, rfl⟩
    exact longArgument_name known attached

theorem toList_long (name : String) : ("--" ++ name).toList = '-' :: '-' :: name.toList :=
  String.toList_append

theorem toList_longValue (name value : String) :
    ("--" ++ name ++ "=" ++ value).toList = '-' :: '-' :: (name.toList ++ '=' :: value.toList) := by
  rw [String.toList_append, String.toList_append, String.toList_append, List.append_assoc,
    List.append_assoc]
  rfl

theorem toList_short (text : String) : ("-f" ++ text).toList = '-' :: 'f' :: text.toList :=
  String.toList_append

theorem toList_shortEquals (value : String) :
    ("-f=" ++ value).toList = '-' :: 'f' :: '=' :: value.toList :=
  String.toList_append

theorem argumentOf_long {verb : Verb} {argument : String} {text : List Char} (nonempty : text ≠ [])
    (found : argument.toList = '-' :: '-' :: text) :
    argumentOf verb argument = longArgument verb text := by
  cases text with
  | nil => exact absurd rfl nonempty
  | cons c text =>
      unfold argumentOf
      rw [found]
      rfl

theorem argumentOf_short {verb : Verb} {argument : String} {text : List Char}
    (found : argument.toList = '-' :: 'f' :: text) :
    argumentOf verb argument = .flag .file (attachedValue text) := by
  unfold argumentOf
  rw [found]
  rfl

theorem attachedValue_cons {c : Char} (other : c ≠ '=') (rest : List Char) :
    attachedValue (c :: rest) = some (c :: rest) := by
  unfold attachedValue
  split
  · rename_i empty
    cases empty
  · rename_i equals
    cases equals
    exact absurd rfl other
  · rfl

theorem file_mem_flags (verb : Verb) : .file ∈ verb.flags := by
  cases verb <;> decide

theorem Opens.argumentOf_eq {verb : Verb} {flag : Flag} {value : Option String} {argument : String}
    (known : flag ∈ verb.flags) (opens : Opens flag value argument) :
    argumentOf verb argument = .flag flag (value.map String.toList) := by
  cases opens with
  | long =>
      have read := longArgument_name known none
      rw [suffix, List.append_nil] at read
      rw [argumentOf_long (name_ne_nil flag) (toList_long flag.name), read]
      rfl
  | longValue _ value =>
      rw [argumentOf_long (by simp) (toList_longValue flag.name value)]
      exact longArgument_name known (some value.toList)
  | short => rfl
  | @shortValue value nonempty apart =>
      rw [argumentOf_short (toList_short value)]
      cases text : value.toList with
      | nil => exact absurd (String.toList_eq_nil_iff.1 text) nonempty
      | cons c rest =>
          have other : c ≠ '=' := by
            rintro rfl
            rw [text] at apart
            exact apart rfl
          rw [attachedValue_cons other, Option.map_some, text]
  | shortEquals value =>
      rw [argumentOf_short (toList_shortEquals value)]
      rfl

theorem opens_long {flag : Flag} {argument : String} {value : Option String}
    (found : argument.toList =
      '-' :: '-' :: (flag.name.toList ++ suffix (value.map String.toList))) :
    Opens flag value argument := by
  cases value with
  | none =>
      rw [Option.map_none, suffix, List.append_nil, ← toList_long] at found
      rw [String.toList_inj.1 found]
      exact .long flag
  | some value =>
      rw [Option.map_some, suffix, ← toList_longValue] at found
      rw [String.toList_inj.1 found]
      exact .longValue flag value

theorem opens_short {argument : String} {text : List Char} {value : Option String}
    (found : argument.toList = '-' :: 'f' :: text)
    (read : attachedValue text = value.map String.toList) : Opens .file value argument := by
  unfold attachedValue at read
  split at read
  · obtain rfl := Option.map_eq_none_iff.1 read.symm
    rw [String.toList_inj.1 (found.trans (toList_short "").symm)]
    exact .short
  · obtain ⟨value, rfl, rfl⟩ := Option.map_eq_some_iff.1 read.symm
    rw [String.toList_inj.1 (found.trans (toList_shortEquals value).symm)]
    exact .shortEquals value
  · rename_i nonempty other
    obtain ⟨value, rfl, rfl⟩ := Option.map_eq_some_iff.1 read.symm
    rw [String.toList_inj.1 (found.trans (toList_short value).symm)]
    refine .shortValue (mt String.toList_eq_nil_iff.2 nonempty) ?_
    intro equals
    obtain ⟨rest, split⟩ := List.head?_eq_some_iff.1 equals
    exact other rest split

/-- An option is recognized just if it is written as one. -/
theorem argumentOf_eq_flag {verb : Verb} {argument : String} {flag : Flag}
    {value : Option String} :
    argumentOf verb argument = .flag flag (value.map String.toList) ↔
      flag ∈ verb.flags ∧ Opens flag value argument := by
  constructor
  · intro found
    unfold argumentOf at found
    split at found
    · cases found
    · rename_i text _ long
      obtain ⟨known, rfl⟩ := longArgument_eq_flag.1 found
      exact ⟨known, opens_long long⟩
    · rename_i text short
      obtain ⟨rfl, read⟩ := Argument.flag.inj found
      exact ⟨file_mem_flags verb, opens_short short read⟩
    · cases found
    · cases found
  · rintro ⟨known, opens⟩
    exact opens.argumentOf_eq known

theorem argumentOf_eq_word {verb : Verb} {argument : String} :
    argumentOf verb argument = .word ↔ ¬ Hyphened argument := by
  unfold argumentOf Hyphened
  split
  · rename_i found
    exact iff_of_false (by simp) fun plain => plain ⟨_, _, found⟩
  · rename_i text _ found
    refine iff_of_false ?_ fun plain => plain ⟨_, _, found⟩
    unfold longArgument
    simp only
    split <;> simp
  · rename_i found
    exact iff_of_false (by simp) fun plain => plain ⟨_, _, found⟩
  · rename_i found
    exact iff_of_false (by simp) fun plain => plain ⟨_, _, found⟩
  · rename_i other
    refine iff_of_true rfl ?_
    rintro ⟨c, rest, found⟩
    exact other c rest found

theorem argumentOf_eq_separator {verb : Verb} {argument : String} :
    argumentOf verb argument = .separator ↔ argument = "--" := by
  constructor
  · intro separates
    unfold argumentOf at separates
    split at separates
    · rename_i found
      exact String.toList_inj.1 found
    · unfold longArgument at separates
      simp only at separates
      split at separates <;> cases separates
    · cases separates
    · cases separates
    · cases separates
  · rintro rfl
    rfl

theorem Written.collect?_eq {verb : Verb} {settings : List (Flag × String)}
    {words arguments : List String} (written : Written verb settings words arguments) :
    Arguments.collect? verb arguments = some ⟨settings, words⟩ := by
  induction written with
  | nil => rfl
  | word plain _ ih =>
      simp only [Arguments.collect?, argumentOf_eq_word.2 plain, ih]
      rfl
  | option known spells _ ih =>
      cases spells with
      | attached takes opens =>
          simp only [List.cons_append, List.nil_append, Arguments.collect?,
            argumentOf_eq_flag.2 ⟨known, opens⟩, Option.map_some, takes, if_true, ih,
            String.ofList_toList]
          rfl
      | apart takes opens plain =>
          simp only [List.cons_append, List.nil_append, Arguments.collect?,
            argumentOf_eq_flag.2 ⟨known, opens⟩, Option.map_none, takes, if_true,
            isValue_iff.2 plain, ih]
          rfl
      | alone takes opens =>
          simp only [List.cons_append, List.nil_append, Arguments.collect?,
            argumentOf_eq_flag.2 ⟨known, opens⟩, Option.map_none, takes, Bool.false_eq_true,
            if_false, ih]
          rfl
  | separator words =>
      simp only [Arguments.collect?, argumentOf_eq_separator.2]

theorem written_of_collect? {verb : Verb} {arguments : List String} {collected : Arguments}
    (found : Arguments.collect? verb arguments = some collected) :
    Written verb collected.options collected.words arguments := by
  fun_induction Arguments.collect? verb arguments generalizing collected with
  | case1 =>
      cases found
      exact .nil
  | case2 word rest isWord ih =>
      obtain ⟨others, collects, rfl⟩ := Option.map_eq_some_iff.1 found
      exact .word (argumentOf_eq_word.1 isWord) (ih collects)
  | case3 argument rest separates =>
      cases found
      rw [argumentOf_eq_separator.1 separates]
      exact .separator rest
  | case4 | case5 | case7 | case10 => cases found
  | case6 argument flag isFlag takes value rest isValue ih =>
      obtain ⟨others, collects, rfl⟩ := Option.map_eq_some_iff.1 found
      have opens : flag ∈ verb.flags ∧ Opens flag none argument := argumentOf_eq_flag.1 isFlag
      exact .option opens.1 (.apart takes opens.2 (isValue_iff.1 isValue)) (ih collects)
  | case8 argument rest flag isFlag takes ih =>
      obtain ⟨others, collects, rfl⟩ := Option.map_eq_some_iff.1 found
      have opens : flag ∈ verb.flags ∧ Opens flag none argument := argumentOf_eq_flag.1 isFlag
      exact .option opens.1 (.alone (Bool.eq_false_iff.2 takes) opens.2) (ih collects)
  | case9 argument rest flag value isFlag takes ih =>
      obtain ⟨others, collects, rfl⟩ := Option.map_eq_some_iff.1 found
      rw [← String.toList_ofList (l := value)] at isFlag
      have opens : flag ∈ verb.flags ∧ Opens flag (some (String.ofList value)) argument :=
        argumentOf_eq_flag.1 isFlag
      exact .option opens.1 (.attached takes opens.2) (ih collects)

/-- What is collected is what has been written. -/
theorem collect?_eq_some {verb : Verb} {arguments : List String} {collected : Arguments} :
    Arguments.collect? verb arguments = some collected ↔
      Written verb collected.options collected.words arguments :=
  ⟨written_of_collect?, Written.collect?_eq⟩

/-- Options with their values, and the arguments that set them. -/
inductive Spelled (verb : Verb) : List (Flag × String) → List String → Prop
  | nil : Spelled verb [] []
  | cons {settings : List (Flag × String)} {arguments spelled : List String} {flag : Flag}
      {value : String} (known : flag ∈ verb.flags) (spells : Spells flag value spelled)
      (rest : Spelled verb settings arguments) :
      Spelled verb ((flag, value) :: settings) (spelled ++ arguments)

theorem Spelled.written {verb : Verb} {settings more : List (Flag × String)}
    {options words arguments : List String} (spelled : Spelled verb settings options)
    (rest : Written verb more words arguments) :
    Written verb (settings ++ more) words (options ++ arguments) := by
  induction spelled with
  | nil => exact rest
  | cons known spells _ ih =>
      rw [List.append_assoc]
      exact .option known spells ih

end PlainVerse.CommandLine
