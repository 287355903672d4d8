import PlainVerse.Proofs.Command.Occurrences

/-!
# The leftmost compare and explain clauses

Compare and explain clauses are written in many forms, which differ in their words, in their blanks
and in how much of the last word belongs to them. A search finds the form that starts furthest to
the left in a text, with the whole of its last word, and fails only if no form stands anywhere in
the text. A keyword that no clause follows does not end the search: the next form may start right
behind it, inside what has been looked at in vain.
-/
namespace PlainVerse.Command

open Text

structure Word where
  text : List Char
  nonempty : text ≠ []
  inside : ∀ c ∈ text, isWord c = true

/-- `compare a with b`, up to some character of the word `b`. -/
structure CompareForm where
  left : Blanks
  first : Word
  second : Part "with".toList [] isWord

/-- `explain e`, up to some character of the word `e`. -/
structure ExplainForm where
  left : Blanks
  target : Word

/-- A keyword, blanks and what follows them. -/
def keyworded (word : List Char) (blanks : Blanks) (rest : List Char) : List Char :=
  word ++ (blanks.text ++ rest)

def CompareForm.text (form : CompareForm) : List Char :=
  keyworded "compare".toList form.left (form.first.text ++ form.second.text)

def CompareForm.pair (form : CompareForm) : String × String :=
  (String.ofList form.first.text, String.ofList form.second.run)

def ExplainForm.text (form : ExplainForm) : List Char :=
  keyworded "explain".toList form.left form.target.text

def ExplainForm.name (form : ExplainForm) : String := String.ofList form.target.text

section
variable {F α : Type}

/-- No form starts at the first `n` positions of a text. -/
def NoneBefore (spell : F → List Char) (n : Nat) (text : List Char) : Prop :=
  ∀ (before : List Char) (form : F) (after : List Char),
    text = before ++ (spell form ++ after) → n ≤ before.length

/-- A form stands in a text, no form starts further left, and its last word ends where it does. -/
structure Leftmost (spell : F → List Char) (text before : List Char) (form : F)
    (after : List Char) : Prop where
  split : text = before ++ (spell form ++ after)
  first : NoneBefore spell before.length text
  ended : Stops isWord after

/-- A recogniser reads the forms at the start of a text, with a last word that is as long as
possible. Every form in a text can be made as long as that. -/
structure Reads (accept : List Char → Option α) (spell : F → List Char) (value : F → α) : Prop where
  eq_some : ∀ {text a}, accept text = some a ↔
    ∃ form after, text = spell form ++ after ∧ Stops isWord after ∧ value form = a
  lengthen : ∀ form after, ∃ longer rest,
    spell form ++ after = spell longer ++ rest ∧ Stops isWord rest

/-- A search for forms in a text finds the leftmost one and fails only if there is none. It does not
depend on what stands before the first form, whether or not the keyword occurs there. -/
structure FindsLeftmost (search : String → Option α) (spell : F → List Char) (value : F → α)
    (text : String) : Prop where
  found : ∀ a, search text = some a ↔
    ∃ before form after, Leftmost spell text.toList before form after ∧ value form = a
  missed : search text = none ↔ ∀ form, ¬ spell form <:+: text.toList
  skips : ∀ before rest : String, text = before ++ rest →
    NoneBefore spell before.length text.toList → search text = search rest

namespace Reads
variable {accept : List Char → Option α} {spell : F → List Char} {value : F → α}
  (reads : Reads accept spell value)
include reads

theorem isSome_iff {text : List Char} : (accept text).isSome ↔ ∃ form, spell form <+: text := by
  constructor
  · intro accepted
    obtain ⟨a, found⟩ := Option.isSome_iff_exists.1 accepted
    obtain ⟨form, after, split, -⟩ := reads.eq_some.1 found
    exact ⟨form, after, split.symm⟩
  · rintro ⟨form, after, rfl⟩
    obtain ⟨longer, rest, split, stop⟩ := reads.lengthen form after
    have found := reads.eq_some.2 ⟨longer, rest, split, stop, rfl⟩
    exact Option.isSome_of_mem found

theorem refused_iff {n : Nat} {text : List Char} :
    Refused accept n text ↔ NoneBefore spell n text := by
  constructor
  · intro refused before form after split
    exact refused before _ split (reads.isSome_iff.2 ⟨form, List.prefix_append _ _⟩)
  · rintro none before _ rfl accepted
    obtain ⟨form, after, rfl⟩ := reads.isSome_iff.1 accepted
    exact none before form after rfl

theorem leftmost?_eq_some {text : List Char} {a : α} :
    leftmost? accept text = some a ↔
      ∃ before form after, Leftmost spell text before form after ∧ value form = a := by
  rw [Text.leftmost?_eq_some]
  constructor
  · rintro ⟨before, _, split, found, refused⟩
    obtain ⟨form, after, rfl, stop, same⟩ := reads.eq_some.1 found
    exact ⟨before, form, after, ⟨split, reads.refused_iff.1 refused, stop⟩, same⟩
  · rintro ⟨before, form, after, ⟨split, first, stop⟩, same⟩
    exact ⟨before, _, split, reads.eq_some.2 ⟨form, after, rfl, stop, same⟩,
      reads.refused_iff.2 first⟩

theorem leftmost?_eq_none {text : List Char} :
    leftmost? accept text = none ↔ ∀ form, ¬ spell form <:+: text := by
  rw [Text.leftmost?_eq_none]
  constructor
  · rintro none form ⟨before, after, rfl⟩
    have refused := none (spell form ++ after) ⟨before, (List.append_assoc _ _ _).symm⟩
    have accepted := reads.isSome_iff.2 ⟨form, List.prefix_append _ after⟩
    rw [refused] at accepted
    cases accepted
  · intro absent rest inside
    rw [← Option.not_isSome_iff_eq_none]
    intro accepted
    obtain ⟨form, start⟩ := reads.isSome_iff.1 accepted
    exact absent form (start.isInfix.trans inside.isInfix)

theorem findsLeftmost (text : String) :
    FindsLeftmost (fun text => leftmost? accept text.toList) spell value text where
  found _ := reads.leftmost?_eq_some
  missed := reads.leftmost?_eq_none
  skips := by
    rintro before rest rfl none
    rw [String.toList_append, ← String.length_toList] at none
    rw [String.toList_append, leftmost?_append_of_refused (reads.refused_iff.2 none)]

end Reads
end

theorem run?_isWord_eq_some {text run rest : List Char} :
    run? isWord text = some (run, rest) ↔
      ∃ word : Word, word.text = run ∧ text = word.text ++ rest ∧ Stops isWord rest := by
  rw [run?_eq_some]
  constructor
  · rintro ⟨rfl, nonempty, inside, stop⟩
    exact ⟨⟨run, nonempty, inside⟩, rfl, rfl, stop⟩
  · rintro ⟨word, rfl, rfl, stop⟩
    exact ⟨rfl, word.nonempty, word.inside, stop⟩

theorem Word.stops_isBlank (word : Word) (rest : List Char) :
    Stops isBlank (word.text ++ rest) := by
  have stop : Stops isBlank word.text := fun c head =>
    isBlank_of_isWord (word.inside c (List.mem_of_mem_head? head))
  exact stop.append_right word.nonempty rest

theorem Blanks.stops_isWord (blanks : Blanks) (rest : List Char) :
    Stops isWord (blanks.text ++ rest) := by
  have stop : Stops isWord blanks.text := by
    intro c head
    have blank := blanks.blank c (List.mem_of_mem_head? head)
    by_contra word
    rw [isBlank_of_isWord (by simpa using word)] at blank
    cases blank
  exact stop.append_right blanks.nonempty rest

theorem Part.stops_isWord {keyword mark : List Char} {p : Char → Bool} (part : Part keyword mark p)
    (rest : List Char) : Stops isWord (part.text ++ rest) := by
  rw [part.append_eq]
  exact part.left.stops_isWord _

theorem delimited_with : Delimited "with".toList [] isWord where
  keyword := by decide
  run := delimited_namePart.run

theorem afterWord?_eq_keyworded {word text rest : List Char} :
    afterWord? word text = some rest ↔
      ∃ blanks, text = keyworded word blanks rest ∧ Stops isBlank rest :=
  afterWord?_eq_some

theorem keyworded_append (word : List Char) (blanks : Blanks) (rest more : List Char) :
    keyworded word blanks rest ++ more = keyworded word blanks (rest ++ more) := by
  simp only [keyworded, List.append_assoc]

theorem CompareForm.append_eq (form : CompareForm) (rest : List Char) :
    form.text ++ rest =
      keyworded "compare".toList form.left (form.first.text ++ (form.second.text ++ rest)) := by
  rw [CompareForm.text, keyworded_append, List.append_assoc]

theorem ExplainForm.append_eq (form : ExplainForm) (rest : List Char) :
    form.text ++ rest = keyworded "explain".toList form.left (form.target.text ++ rest) :=
  keyworded_append _ _ _ rest

/-- Behind the first word comes a part with `with`. -/
theorem comparePairAt?_eq (text : List Char) :
    comparePairAt? text =
      (afterWord? "compare".toList text).bind fun text => (run? isWord text).bind fun first =>
        (part? "with".toList [] isWord first.2).map fun second =>
          (String.ofList first.1, String.ofList second.1) := by
  simp only [comparePairAt?, part?, Option.bind_eq_bind, after?, Option.bind_some,
    Option.map_eq_bind, Option.bind_assoc]
  rfl

/-- Only the last word of a form can be cut short, so only the part that it belongs to changes. -/
theorem reads_comparePairAt? : Reads comparePairAt? CompareForm.text CompareForm.pair where
  eq_some := by
    intro text pair
    simp only [comparePairAt?_eq, Option.bind_eq_some_iff, Option.map_eq_some_iff, Prod.exists,
      afterWord?_eq_keyworded, run?_isWord_eq_some, part?_eq_some delimited_with]
    constructor
    · rintro ⟨_, ⟨left, rfl, -⟩, _, _, ⟨first, rfl, rfl, -⟩,
        _, after, ⟨second, rfl, rfl, stop⟩, rfl⟩
      exact ⟨⟨left, first, second⟩, after, by rw [CompareForm.append_eq], stop, rfl⟩
    · rintro ⟨form, after, rfl, stop, rfl⟩
      exact ⟨_, ⟨form.left, form.append_eq after, form.first.stops_isBlank _⟩,
        _, _, ⟨form.first, rfl, rfl, form.second.stops_isWord _⟩,
        _, after, ⟨form.second, rfl, rfl, stop⟩, rfl⟩
  lengthen := by
    intro form after
    cases found : part? "with".toList [] isWord (form.second.text ++ after) with
    | none =>
        have absent := (part?_eq_none delimited_with).1 found form.second
        exact absurd (List.prefix_append _ _) absent
    | some result =>
        obtain ⟨second, -, split, stop⟩ := (part?_eq_some delimited_with).1 found
        refine ⟨⟨form.left, form.first, second⟩, result.2, ?_, stop⟩
        rw [CompareForm.append_eq, CompareForm.append_eq, split]

theorem reads_explainTargetAt? : Reads explainTargetAt? ExplainForm.text ExplainForm.name where
  eq_some := by
    intro text name
    simp only [explainTargetAt?, Option.bind_eq_bind, Option.bind_eq_some_iff, Prod.exists,
      afterWord?_eq_keyworded, run?_isWord_eq_some, Option.some.injEq]
    constructor
    · rintro ⟨_, ⟨left, rfl, -⟩, _, after, ⟨target, rfl, rfl, stop⟩, rfl⟩
      exact ⟨⟨left, target⟩, after, by rw [ExplainForm.append_eq], stop, rfl⟩
    · rintro ⟨form, after, rfl, stop, rfl⟩
      exact ⟨_, ⟨form.left, form.append_eq after, form.target.stops_isBlank _⟩,
        _, after, ⟨form.target, rfl, rfl, stop⟩, rfl⟩
  lengthen := by
    intro form after
    let target : Word :=
      { text := form.target.text ++ after.takeWhile isWord
        nonempty := List.append_ne_nil_of_left_ne_nil form.target.nonempty _
        inside := List.forall_mem_append.2
          ⟨form.target.inside, fun c => List.mem_takeWhile_imp⟩ }
    refine ⟨⟨form.left, target⟩, after.dropWhile isWord, ?_, stops_dropWhile isWord after⟩
    rw [ExplainForm.append_eq, ExplainForm.append_eq, List.append_assoc form.target.text,
      List.takeWhile_append_dropWhile]

/-- In every text, the pair of a compare clause and the target of an explain clause are found where
the first form stands, and are missing only where no form does. -/
theorem finds_leftmost_clauses (text : String) :
    FindsLeftmost comparePair? CompareForm.text CompareForm.pair text ∧
      FindsLeftmost explainTarget? ExplainForm.text ExplainForm.name text :=
  ⟨reads_comparePairAt?.findsLeftmost text, reads_explainTargetAt?.findsLeftmost text⟩

example : comparePair? "compare a compare with with with" = some ("with", "with") := by
  decide +kernel

end PlainVerse.Command
