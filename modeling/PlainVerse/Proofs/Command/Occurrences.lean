import PlainVerse.Proofs.Command.Scanning

/-!
# Where compress clauses stand

A text with compress clauses is cut into gaps and occurrences. An occurrence has a fixed head, which
ends with the closing quote of the payload, and after it the two optional parts, each of them if the
text allows it and with as many characters as possible. No head starts inside a gap. There is just
one way to cut a text like this, and the scan for compress clauses finds its occurrences.
-/
namespace PlainVerse.Command

open Text

@[ext] structure Blanks where
  text : List Char
  nonempty : text ≠ []
  blank : ∀ c ∈ text, isBlank c = true

/-- From `compress` to the closing quote. -/
@[ext] structure Head where
  left : Blanks
  middle : Blanks
  opening : Char
  payload : List Char
  closing : Char
  opens : isQuote opening = true
  plain : ∀ c ∈ payload, isQuote c = false
  closes : isQuote closing = true

/-- Two words and a quoted payload, with blanks between them. -/
def Head.spell (first second : List Char) (head : Head) : List Char :=
  first ++ (head.left.text ++ (second ++ (head.middle.text ++
    head.opening :: (head.payload ++ [head.closing]))))

def Head.text (head : Head) : List Char := head.spell "compress".toList "payload".toList

/-- A part that begins with a keyword and ends with a run of characters with `p`, which a mark may
stand before. -/
@[ext] structure Part (keyword mark : List Char) (p : Char → Bool) where
  left : Blanks
  middle : Blanks
  run : List Char
  nonempty : run ≠ []
  inside : ∀ c ∈ run, p c = true

def Part.text {keyword mark : List Char} {p : Char → Bool} (part : Part keyword mark p) :
    List Char :=
  part.left.text ++ (keyword ++ (part.middle.text ++ (mark ++ part.run)))

abbrev SeedPart : Type := Part "using".toList "seed=".toList isDecimalDigit

abbrev NamePart : Type := Part "as".toList [] isWord

section
variable {keyword mark : List Char} {p : Char → Bool}

/-- The text of a part that may be missing. -/
def partText (part : Option (Part keyword mark p)) : List Char := part.elim [] Part.text

/-- A part is as long as possible before what follows it. It is missing only if none can be made of
what follows. -/
def Fits (following : List Char) : Option (Part keyword mark p) → Prop
  | some _ => Stops p following
  | none => ∀ part : Part keyword mark p, ¬ part.text <+: following

end

@[ext] structure Occurrence where
  head : Head
  seed : Option SeedPart
  name : Option NamePart

namespace Occurrence

def text (occurrence : Occurrence) : List Char :=
  occurrence.head.text ++ (partText occurrence.seed ++ partText occurrence.name)

def clause (occurrence : Occurrence) : CompressClause where
  payload := String.ofList occurrence.head.payload
  seed := occurrence.seed.map fun part => String.ofList part.run
  name := occurrence.name.map fun part => String.ofList part.run

/-- Both optional parts fit what follows the occurrence. -/
structure Greedy (occurrence : Occurrence) (following : List Char) : Prop where
  seed : Fits (partText occurrence.name ++ following) occurrence.seed
  name : Fits following occurrence.name

end Occurrence

/-- No head starts inside a gap, when `following` comes after it. -/
def Quiet (gap following : List Char) : Prop :=
  ∀ suffix, suffix <:+ gap → suffix ≠ [] → ∀ head : Head, ¬ head.text <+: suffix ++ following

/-- A text is cut into occurrences, each with the gap before it, and a last gap. -/
inductive Cut : List (List Char × Occurrence) → List Char → List Char → Prop
  | nil {last : List Char} (quiet : Quiet last []) : Cut [] last last
  | cons {gap rest last : List Char} {occurrence : Occurrence}
      {pieces : List (List Char × Occurrence)} (quiet : Quiet gap (occurrence.text ++ rest))
      (greedy : occurrence.Greedy rest) (later : Cut pieces last rest) :
      Cut ((gap, occurrence) :: pieces) last (gap ++ (occurrence.text ++ rest))

theorem run_append_inj {p : Char → Bool} {run run' rest rest' : List Char}
    (inside : ∀ c ∈ run, p c = true) (inside' : ∀ c ∈ run', p c = true) (stop : Stops p rest)
    (stop' : Stops p rest') (same : run ++ rest = run' ++ rest') : run = run' ∧ rest = rest' := by
  have first := congrArg (List.takeWhile p) same
  rw [stop.takeWhile_eq inside, stop'.takeWhile_eq inside'] at first
  subst first
  exact ⟨rfl, List.append_cancel_left same⟩

theorem afterBlanks?_eq_some {text rest : List Char} :
    afterBlanks? text = some rest ↔
      ∃ blanks : Blanks, text = blanks.text ++ rest ∧ Stops isBlank rest := by
  rw [afterBlanks?, Option.map_eq_some_iff]
  constructor
  · rintro ⟨⟨run, rest'⟩, found, rfl⟩
    have facts := run?_eq_some.1 found
    exact ⟨⟨run, facts.2.1, facts.2.2.1⟩, facts.1, facts.2.2.2⟩
  · rintro ⟨blanks, rfl, stop⟩
    exact ⟨_, run?_append blanks.nonempty blanks.blank stop, rfl⟩

theorem afterWord?_eq_some {word text rest : List Char} :
    afterWord? word text = some rest ↔
      ∃ blanks : Blanks, text = word ++ (blanks.text ++ rest) ∧ Stops isBlank rest := by
  rw [afterWord?, Option.bind_eq_some_iff]
  simp only [after?_eq_some, afterBlanks?_eq_some]
  constructor
  · rintro ⟨_, rfl, blanks, rfl, stop⟩
    exact ⟨blanks, rfl, stop⟩
  · rintro ⟨blanks, rfl, stop⟩
    exact ⟨_, rfl, blanks, rfl, stop⟩

/-- A recogniser for parts. -/
def part? (keyword mark : List Char) (p : Char → Bool) (text : List Char) :
    Option (List Char × List Char) := do
  let text ← afterBlanks? text
  let text ← afterWord? keyword text
  let text ← after? mark text
  run? p text

theorem seed?_eq_part? : seed? = part? "using".toList "seed=".toList isDecimalDigit := rfl

theorem name?_eq_part? : name? = part? "as".toList [] isWord := rfl

/-- The blanks of a part end where its keyword begins, and where its mark or its run does. -/
structure Delimited (keyword mark : List Char) (p : Char → Bool) : Prop where
  keyword : keyword ≠ [] ∧ Stops isBlank keyword
  run : ∀ run, run ≠ [] → (∀ c ∈ run, p c = true) → Stops isBlank (mark ++ run)

theorem delimited_seedPart : Delimited "using".toList "seed=".toList isDecimalDigit where
  keyword := by decide
  run := fun _ _ _ => stops_cons (by decide) _

theorem delimited_namePart : Delimited "as".toList [] isWord where
  keyword := by decide
  run := by
    intro run _ inside c head
    exact isBlank_of_isWord (inside c (List.mem_of_mem_head? head))

section
variable {keyword mark : List Char} {p : Char → Bool} (delimited : Delimited keyword mark p)

theorem Part.append_eq (part : Part keyword mark p) (rest : List Char) :
    part.text ++ rest =
      part.left.text ++ (keyword ++ (part.middle.text ++ (mark ++ (part.run ++ rest)))) := by
  simp only [Part.text, List.append_assoc]

include delimited

theorem Delimited.stops_keyword (rest : List Char) : Stops isBlank (keyword ++ rest) :=
  delimited.keyword.2.append_right delimited.keyword.1 rest

theorem Part.stops_run (part : Part keyword mark p) (rest : List Char) :
    Stops isBlank (mark ++ (part.run ++ rest)) := by
  rw [← List.append_assoc]
  exact (delimited.run part.run part.nonempty part.inside).append_right
    (List.append_ne_nil_of_right_ne_nil _ part.nonempty) rest

theorem part?_eq_some {text run rest : List Char} :
    part? keyword mark p text = some (run, rest) ↔
      ∃ part : Part keyword mark p, part.run = run ∧ text = part.text ++ rest ∧ Stops p rest := by
  simp only [part?, Option.bind_eq_bind, Option.bind_eq_some_iff, afterBlanks?_eq_some,
    afterWord?_eq_some, after?_eq_some, run?_eq_some]
  constructor
  · rintro ⟨_, ⟨left, rfl, -⟩, _, ⟨middle, rfl, -⟩, _, rfl, rfl, nonempty, inside, stop⟩
    refine ⟨⟨left, middle, run, nonempty, inside⟩, rfl, ?_, stop⟩
    rw [Part.append_eq]
  · rintro ⟨part, rfl, rfl, stop⟩
    exact ⟨_, ⟨part.left, part.append_eq rest, delimited.stops_keyword _⟩,
      _, ⟨part.middle, rfl, part.stops_run delimited rest⟩, _, rfl, rfl, part.nonempty, part.inside,
      stop⟩

/-- If any part stands at the start of a text, then so does one with a run that cannot be made
longer. -/
theorem part?_eq_none {text : List Char} :
    part? keyword mark p text = none ↔ ∀ part : Part keyword mark p, ¬ part.text <+: text := by
  constructor
  · rintro none part ⟨rest, rfl⟩
    let longest : Part keyword mark p :=
      { part with
        run := part.run ++ rest.takeWhile p
        nonempty := List.append_ne_nil_of_left_ne_nil part.nonempty _
        inside := List.forall_mem_append.2 ⟨part.inside, fun c => List.mem_takeWhile_imp⟩ }
    have split : part.text ++ rest = longest.text ++ rest.dropWhile p := by
      rw [part.append_eq, longest.append_eq, List.append_assoc part.run,
        List.takeWhile_append_dropWhile]
    have found := (part?_eq_some delimited).2 ⟨longest, rfl, split, stops_dropWhile p rest⟩
    rw [none] at found
    cases found
  · intro absent
    cases found : part? keyword mark p text with
    | none => rfl
    | some result =>
        obtain ⟨part, -, split, -⟩ := (part?_eq_some delimited).1 found
        exact absurd ⟨_, split.symm⟩ (absent part)

theorem optional_part?_eq {text rest : List Char} {found : Option (List Char)} :
    optional (part? keyword mark p) text = (found, rest) ↔
      ∃ part : Option (Part keyword mark p),
        part.map Part.run = found ∧ text = partText part ++ rest ∧ Fits rest part := by
  unfold optional
  cases result : part? keyword mark p text with
  | none =>
      have absent := (part?_eq_none delimited).1 result
      constructor
      · rintro h
        cases h
        exact ⟨none, rfl, rfl, absent⟩
      · rintro ⟨part, rfl, rfl, -⟩
        cases part with
        | none => rfl
        | some part => exact absurd (List.prefix_append _ _) (absent part)
  | some pair =>
      obtain ⟨part, run, split, stop⟩ := (part?_eq_some delimited).1 result
      constructor
      · rintro h
        cases h
        exact ⟨some part, congrArg some run, split, stop⟩
      · rintro ⟨other, rfl, split', fits⟩
        cases other with
        | none => exact absurd ⟨_, (split.symm.trans split')⟩ (fits part)
        | some other =>
            have found := (part?_eq_some delimited).2 ⟨other, rfl, split', fits⟩
            rw [result] at found
            cases found
            rfl

theorem Part.append_inj {part other : Part keyword mark p} {rest rest' : List Char}
    (stop : Stops p rest) (stop' : Stops p rest') (same : part.text ++ rest = other.text ++ rest') :
    part = other ∧ rest = rest' := by
  rw [part.append_eq, other.append_eq] at same
  have left := run_append_inj part.left.blank other.left.blank (delimited.stops_keyword _)
    (delimited.stops_keyword _) same
  have middle := run_append_inj part.middle.blank other.middle.blank (part.stops_run delimited _)
    (other.stops_run delimited _) (List.append_cancel_left left.2)
  have run := run_append_inj part.inside other.inside stop stop'
    (List.append_cancel_left middle.2)
  exact ⟨Part.ext (Blanks.ext left.1) (Blanks.ext middle.1) run.1, run.2⟩

theorem partText_append_inj {part other : Option (Part keyword mark p)} {rest rest' : List Char}
    (fits : Fits rest part) (fits' : Fits rest' other)
    (same : partText part ++ rest = partText other ++ rest') : part = other ∧ rest = rest' := by
  cases part with
  | none =>
      cases other with
      | none => exact ⟨rfl, same⟩
      | some other => exact absurd ⟨rest', same.symm⟩ (fits other)
  | some part =>
      cases other with
      | none => exact absurd ⟨rest, same⟩ (fits' part)
      | some other =>
          have facts := Part.append_inj delimited fits fits' same
          exact ⟨congrArg some facts.1, facts.2⟩

end

theorem payload?_eq_some {text payload rest : List Char} :
    payload? text = some (payload, rest) ↔
      ∃ opening closing, isQuote opening = true ∧ isQuote closing = true ∧
        (∀ c ∈ payload, isQuote c = false) ∧ text = opening :: (payload ++ closing :: rest) := by
  constructor
  · intro h
    cases text with
    | nil => cases h
    | cons opening tail =>
        simp only [payload?] at h
        split at h
        · rename_i opens
          have closes := stops_dropWhile (!isQuote ·) tail
          have whole := List.takeWhile_append_dropWhile (p := (!isQuote ·)) (l := tail)
          split at h
          · cases h
          · rename_i closing rest' dropped
            cases h
            rw [dropped] at closes whole
            refine ⟨opening, closing, opens, by simpa using closes closing rfl, ?_,
              congrArg _ whole.symm⟩
            intro c mem
            simpa using List.mem_takeWhile_imp mem
        · cases h
  · rintro ⟨opening, closing, opens, closes, plain, rfl⟩
    have plain' : ∀ c ∈ payload, (!isQuote c) = true := by simpa using plain
    have stop : Stops (!isQuote ·) (closing :: rest) := stops_cons (by simp [closes]) rest
    simp only [payload?, opens, if_true]
    rw [stop.dropWhile_eq plain', stop.takeWhile_eq plain']

namespace Head

theorem spell_append (first second : List Char) (head : Head) (rest : List Char) :
    head.spell first second ++ rest =
      first ++ (head.left.text ++ (second ++ (head.middle.text ++
        (head.opening :: (head.payload ++ head.closing :: rest))))) := by
  simp only [spell, List.append_assoc, List.cons_append, List.nil_append]

theorem append_eq (head : Head) (rest : List Char) :
    head.text ++ rest =
      "compress".toList ++ (head.left.text ++ ("payload".toList ++ (head.middle.text ++
        (head.opening :: (head.payload ++ head.closing :: rest))))) :=
  spell_append _ _ head rest

theorem stops_opening (head : Head) (rest : List Char) :
    Stops isBlank (head.opening :: rest) :=
  stops_cons (isBlank_of_isQuote head.opens) rest

theorem stops_payload (rest : List Char) : Stops isBlank ("payload".toList ++ rest) := by
  have stop : Stops isBlank "payload".toList := by decide
  exact stop.append_right (by decide) rest

theorem append_inj {head other : Head} {rest rest' : List Char}
    (same : head.text ++ rest = other.text ++ rest') : head = other ∧ rest = rest' := by
  rw [head.append_eq, other.append_eq] at same
  have left := run_append_inj head.left.blank other.left.blank (stops_payload _) (stops_payload _)
    (List.append_cancel_left same)
  have middle := run_append_inj head.middle.blank other.middle.blank (head.stops_opening _)
    (other.stops_opening _) (List.append_cancel_left left.2)
  have opening := List.cons.inj middle.2
  have plain : ∀ head : Head, ∀ c ∈ head.payload, (!isQuote c) = true := fun head => by
    simpa using head.plain
  have closes : ∀ (head : Head) (rest : List Char), Stops (!isQuote ·) (head.closing :: rest) :=
    fun head rest => stops_cons (by simp [head.closes]) rest
  have payload := run_append_inj (plain head) (plain other) (closes head rest) (closes other rest')
    opening.2
  have closing := List.cons.inj payload.2
  exact ⟨Head.ext (Blanks.ext left.1) (Blanks.ext middle.1) opening.1 payload.1 closing.1,
    closing.2⟩

end Head

namespace Occurrence

theorem append_eq (occurrence : Occurrence) (rest : List Char) :
    occurrence.text ++ rest =
      occurrence.head.text ++ (partText occurrence.seed ++ (partText occurrence.name ++ rest)) := by
  simp only [Occurrence.text, List.append_assoc]

theorem append_inj {occurrence other : Occurrence} {rest rest' : List Char}
    (greedy : occurrence.Greedy rest) (greedy' : other.Greedy rest')
    (same : occurrence.text ++ rest = other.text ++ rest') :
    occurrence = other ∧ rest = rest' := by
  rw [occurrence.append_eq, other.append_eq] at same
  have head := Head.append_inj same
  have seed := partText_append_inj delimited_seedPart greedy.seed greedy'.seed head.2
  have name := partText_append_inj delimited_namePart greedy.name greedy'.name seed.2
  exact ⟨Occurrence.ext head.1 seed.1 name.1, name.2⟩

end Occurrence

/-- The payload of a head at the start of a text, and what follows it. -/
def head? (text : List Char) : Option (List Char × List Char) := do
  let text ← afterWord? "compress".toList text
  let text ← afterWord? "payload".toList text
  payload? text

theorem head?_eq_some {text payload rest : List Char} :
    head? text = some (payload, rest) ↔
      ∃ head : Head, head.payload = payload ∧ text = head.text ++ rest := by
  simp only [head?, Option.bind_eq_bind, Option.bind_eq_some_iff, afterWord?_eq_some,
    payload?_eq_some]
  constructor
  · rintro ⟨_, ⟨left, rfl, -⟩, _, ⟨middle, rfl, -⟩, opening, closing, opens, closes, plain, rfl⟩
    refine ⟨⟨left, middle, opening, payload, closing, opens, plain, closes⟩, rfl, ?_⟩
    rw [Head.append_eq]
  · rintro ⟨head, rfl, rfl⟩
    exact ⟨_, ⟨head.left, head.append_eq rest, Head.stops_payload _⟩,
      _, ⟨head.middle, rfl, head.stops_opening _⟩,
      head.opening, head.closing, head.opens, head.closes, head.plain, rfl⟩

/-- The clause of an occurrence whose head has been read, and what follows it. -/
def completed (found : List Char × List Char) : CompressClause × List Char :=
  let seed := optional seed? found.2
  let name := optional name? seed.2
  (⟨String.ofList found.1, seed.1.map String.ofList, name.1.map String.ofList⟩, name.2)

theorem compressClause?_eq_map (text : List Char) :
    compressClause? text = (head? text).map completed := by
  simp only [compressClause?, head?, Option.bind_eq_bind]
  cases afterWord? "compress".toList text with
  | none => rfl
  | some middle =>
      rw [Option.bind_some, Option.bind_some]
      cases afterWord? "payload".toList middle with
      | none => rfl
      | some quoted =>
          rw [Option.bind_some, Option.bind_some]
          cases payload? quoted <;> rfl

theorem compressClause?_eq_none {text : List Char} :
    compressClause? text = none ↔ ∀ head : Head, ¬ head.text <+: text := by
  rw [compressClause?_eq_map, Option.map_eq_none_iff]
  constructor
  · rintro none head ⟨rest, split⟩
    rw [head?_eq_some.2 ⟨head, rfl, split.symm⟩] at none
    cases none
  · intro absent
    cases found : head? text with
    | none => rfl
    | some result =>
        obtain ⟨head, -, split⟩ := head?_eq_some.1 found
        exact absurd ⟨_, split.symm⟩ (absent head)

theorem compressClause?_eq_some {text rest : List Char} {clause : CompressClause}
    (h : compressClause? text = some (clause, rest)) :
    ∃ occurrence : Occurrence, occurrence.clause = clause ∧ text = occurrence.text ++ rest ∧
      occurrence.Greedy rest := by
  rw [compressClause?_eq_map] at h
  obtain ⟨⟨payload, tail⟩, found, same⟩ := Option.map_eq_some_iff.1 h
  obtain ⟨head, rfl, rfl⟩ := head?_eq_some.1 found
  cases seeds : optional seed? tail with
  | mk digits middle =>
      cases names : optional name? middle with
      | mk word rest' =>
          simp only [completed, seeds, names, Prod.mk.injEq] at same
          obtain ⟨rfl, rfl⟩ := same
          rw [seed?_eq_part?] at seeds
          rw [name?_eq_part?] at names
          obtain ⟨seed, rfl, rfl, fits⟩ := (optional_part?_eq delimited_seedPart).1 seeds
          obtain ⟨name, rfl, rfl, fits'⟩ := (optional_part?_eq delimited_namePart).1 names
          refine ⟨⟨head, seed, name⟩, ?_, ?_, ⟨fits, fits'⟩⟩
          · simp only [Occurrence.clause, Option.map_map]
            rfl
          · rw [Occurrence.append_eq]

theorem quiet_nil (following : List Char) : Quiet [] following := by
  intro suffix inside nonempty
  exact absurd (List.suffix_nil.1 inside) nonempty

/-- A gap can begin earlier if no head starts at the new character. -/
theorem Quiet.cons {c : Char} {gap following : List Char} (quiet : Quiet gap following)
    (absent : ∀ head : Head, ¬ head.text <+: c :: (gap ++ following)) :
    Quiet (c :: gap) following := by
  intro suffix inside nonempty
  rcases List.suffix_cons_iff.1 inside with rfl | later
  · exact absent
  · exact quiet suffix later nonempty

theorem Occurrence.head_prefix (occurrence : Occurrence) (rest : List Char) :
    occurrence.head.text <+: occurrence.text ++ rest := by
  rw [occurrence.append_eq]
  exact List.prefix_append _ _

theorem Occurrence.length_text_pos (occurrence : Occurrence) : 0 < occurrence.text.length := by
  have keyword : 0 < "compress".toList.length := by decide
  rw [Occurrence.text, Head.text, Head.spell, List.length_append, List.length_append]
  omega

/-- The gap before an occurrence is no shorter than any gap at the same place. -/
theorem Quiet.length_le {gap following before rest : List Char} {occurrence : Occurrence}
    (quiet : Quiet gap following)
    (split : gap ++ following = before ++ (occurrence.text ++ rest)) :
    gap.length ≤ before.length := by
  by_contra longer
  have inside : before <+: gap :=
    List.prefix_of_prefix_length_le ⟨_, split.symm⟩ (List.prefix_append gap following) (by omega)
  obtain ⟨suffix, rfl⟩ := inside
  have nonempty : suffix ≠ [] := by
    rintro rfl
    exact longer (by simp)
  rw [List.append_assoc] at split
  refine quiet suffix (List.suffix_append before suffix) nonempty occurrence.head ?_
  rw [List.append_cancel_left split]
  exact occurrence.head_prefix rest

namespace Cut
variable {pieces pieces' : List (List Char × Occurrence)} {last last' text : List Char}

theorem text_eq (cut : Cut pieces last text) :
    text = pieces.flatMap (fun piece => piece.1 ++ piece.2.text) ++ last := by
  induction cut with
  | nil => rfl
  | cons _ _ _ ih => simp only [List.flatMap_cons, List.append_assoc, ← ih]

theorem eq_nil_or_cons (cut : Cut pieces last text) :
    (pieces = [] ∧ last = text ∧ Quiet text []) ∨
      ∃ gap occurrence more rest, pieces = (gap, occurrence) :: more ∧
        text = gap ++ (occurrence.text ++ rest) ∧ Quiet gap (occurrence.text ++ rest) ∧
        occurrence.Greedy rest ∧ Cut more last rest := by
  cases cut with
  | nil quiet => exact Or.inl ⟨rfl, rfl, quiet⟩
  | cons quiet greedy later => exact Or.inr ⟨_, _, _, _, rfl, rfl, quiet, greedy, later⟩

/-- A character in front at which no head starts belongs to the first gap. -/
theorem prepend (cut : Cut pieces last text) {c : Char}
    (absent : ∀ head : Head, ¬ head.text <+: c :: text) :
    ∃ pieces' last', Cut pieces' last' (c :: text) ∧
      pieces'.map (fun piece => piece.2.clause) = pieces.map fun piece => piece.2.clause := by
  rcases cut.eq_nil_or_cons with
    ⟨rfl, rfl, quiet⟩ | ⟨gap, occurrence, more, rest, rfl, rfl, quiet, greedy, later⟩
  · refine ⟨[], c :: last, .nil (quiet.cons ?_), rfl⟩
    rw [List.append_nil]
    exact absent
  · have longer := Cut.cons (quiet.cons absent) greedy later
    exact ⟨(c :: gap, occurrence) :: more, last, longer, rfl⟩

theorem exists_of_scan (text : List Char) :
    ∃ pieces last, Cut pieces last text ∧
      compressClausesIn text = pieces.map fun piece => piece.2.clause := by
  fun_induction compressClausesIn text with
  | case1 text clause rest found ih =>
      obtain ⟨pieces, last, cut, clauses⟩ := ih
      obtain ⟨occurrence, rfl, rfl, greedy⟩ := compressClause?_eq_some found
      refine ⟨([], occurrence) :: pieces, last, .cons (quiet_nil _) greedy cut, ?_⟩
      rw [List.map_cons, clauses]
  | case2 none =>
      exact ⟨[], [], .nil (quiet_nil _), rfl⟩
  | case3 c rest none ih =>
      obtain ⟨pieces, last, cut, clauses⟩ := ih
      obtain ⟨pieces', last', cut', same⟩ := cut.prepend (compressClause?_eq_none.1 none)
      exact ⟨pieces', last', cut', clauses.trans same.symm⟩

theorem unique (cut : Cut pieces last text) (cut' : Cut pieces' last' text) :
    pieces = pieces' ∧ last = last' := by
  induction cut generalizing pieces' last' with
  | @nil last quiet =>
      rcases cut'.eq_nil_or_cons with
        ⟨rfl, rfl, -⟩ | ⟨gap, occurrence, more, rest, rfl, split, -⟩
      · exact ⟨rfl, rfl⟩
      · have short := quiet.length_le ((List.append_nil last).trans split)
        have length := congrArg List.length split
        have pos := occurrence.length_text_pos
        rw [List.length_append, List.length_append] at length
        omega
  | @cons gap rest last occurrence pieces quiet greedy later ih =>
      rcases cut'.eq_nil_or_cons with
        ⟨rfl, rfl, quiet'⟩ | ⟨gap', occurrence', more, rest', rfl, split, quiet', greedy', later'⟩
      · have short := quiet'.length_le (List.append_nil _)
        have pos := occurrence.length_text_pos
        rw [List.length_append, List.length_append] at short
        omega
      · have length := Nat.le_antisymm (quiet.length_le split) (quiet'.length_le split.symm)
        obtain ⟨rfl, texts⟩ := List.append_inj split length
        obtain ⟨rfl, rfl⟩ := Occurrence.append_inj greedy greedy' texts
        obtain ⟨rfl, rfl⟩ := ih later'
        exact ⟨rfl, rfl⟩

end Cut

/-- Every text can be cut into gaps and occurrences in just one way, and the compress clauses that
are found in it are those of the occurrences, in their order. -/
theorem compressClauses_cut (text : String) :
    ∃ pieces last, Cut pieces last text.toList ∧
      text.toList = pieces.flatMap (fun piece => piece.1 ++ piece.2.text) ++ last ∧
      compressClauses text = pieces.map (fun piece => piece.2.clause) ∧
      ∀ pieces' last', Cut pieces' last' text.toList → pieces' = pieces ∧ last' = last := by
  obtain ⟨pieces, last, cut, clauses⟩ := Cut.exists_of_scan text.toList
  exact ⟨pieces, last, cut, cut.text_eq, clauses, fun pieces' last' cut' => cut'.unique cut⟩

end PlainVerse.Command
