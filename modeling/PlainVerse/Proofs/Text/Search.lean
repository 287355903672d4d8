import PlainVerse.Text.Scan
import Mathlib.Data.List.TakeWhile

/-!
# Recognising and searching spelled text

A recogniser that is given what it looks for, followed by something that it stops at, accepts just
that. A search returns what is accepted at the first position where anything is. A search for a form
that begins with a word passes over every part of a text in which the word does not occur, as long
as the part ends at a character that does not belong to the word.
-/
namespace PlainVerse.Text

/-- Conditions on the characters of a fixed text are checked one by one. -/
theorem forall_mem_of_all {p : Char → Prop} [DecidablePred p] {text : List Char}
    (h : text.all (fun c => decide (p c)) = true) : ∀ c ∈ text, p c := by
  simpa using h

theorem after?_eq_some {word text rest : List Char} :
    after? word text = some rest ↔ text = word ++ rest := by
  induction word generalizing text with
  | nil => simp [after?]
  | cons w word ih =>
      cases text with
      | nil => simp [after?]
      | cons c text =>
          by_cases same : w = c
          · simp [after?, same, ih]
          · have other : ¬ c = w := fun h => same h.symm
            simp [after?, same, other]

theorem after?_append (word rest : List Char) : after? word (word ++ rest) = some rest :=
  after?_eq_some.2 rfl

/-- A run of characters with `p` stops before a text. -/
def Stops (p : Char → Bool) (text : List Char) : Prop := ∀ c ∈ text.head?, p c = false

theorem stops_nil (p : Char → Bool) : Stops p [] := fun _ h => nomatch h

theorem stops_cons {p : Char → Bool} {c : Char} (h : p c = false) (text : List Char) :
    Stops p (c :: text) := by
  intro other head
  obtain rfl : c = other := Option.some.inj head
  exact h

instance (p : Char → Bool) : (text : List Char) → Decidable (Stops p text)
  | [] => isTrue (stops_nil p)
  | c :: rest => decidable_of_iff (p c = false) ⟨(stops_cons · rest), fun stop => stop c rfl⟩

theorem Stops.append_right {p : Char → Bool} {first : List Char} (h : Stops p first)
    (nonempty : first ≠ []) (second : List Char) : Stops p (first ++ second) := by
  cases first with
  | nil => exact absurd rfl nonempty
  | cons c first => exact h

theorem Stops.append {p : Char → Bool} {first second : List Char} (h : Stops p first)
    (later : Stops p second) : Stops p (first ++ second) := by
  cases first with
  | nil => exact later
  | cons c first => exact h

theorem Stops.takeWhile_eq {p : Char → Bool} {run rest : List Char}
    (inside : ∀ c ∈ run, p c = true) (stop : Stops p rest) :
    (run ++ rest).takeWhile p = run := by
  have none : rest.takeWhile p = [] := by
    cases rest with
    | nil => rfl
    | cons c rest => simp [stop c rfl]
  rw [List.takeWhile_append_of_pos inside, none, List.append_nil]

theorem Stops.dropWhile_eq {p : Char → Bool} {run rest : List Char}
    (inside : ∀ c ∈ run, p c = true) (stop : Stops p rest) :
    (run ++ rest).dropWhile p = rest := by
  rw [List.dropWhile_append_of_pos inside]
  cases rest with
  | nil => rfl
  | cons c rest => simp [stop c rfl]

theorem run?_append {p : Char → Bool} {run rest : List Char} (nonempty : run ≠ [])
    (inside : ∀ c ∈ run, p c = true) (stop : Stops p rest) :
    run? p (run ++ rest) = some (run, rest) := by
  unfold run?
  rw [stop.takeWhile_eq inside, stop.dropWhile_eq inside]
  cases run with
  | nil => exact absurd rfl nonempty
  | cons c run => rfl

theorem stops_dropWhile (p : Char → Bool) (text : List Char) : Stops p (text.dropWhile p) := by
  intro c head
  have stop := List.head?_dropWhile_not p text
  rw [Option.mem_def.1 head] at stop
  exact stop

/-- A maximal run is all that stands before a text at which it stops. -/
theorem run?_eq_some {p : Char → Bool} {text run rest : List Char} :
    run? p text = some (run, rest) ↔
      text = run ++ rest ∧ run ≠ [] ∧ (∀ c ∈ run, p c = true) ∧ Stops p rest := by
  constructor
  · intro h
    unfold run? at h
    split at h
    · cases h
    · rename_i nonempty
      cases h
      exact ⟨List.takeWhile_append_dropWhile.symm, nonempty, fun c => List.mem_takeWhile_imp,
        stops_dropWhile p text⟩
  · rintro ⟨rfl, nonempty, inside, stop⟩
    exact run?_append nonempty inside stop

theorem afterBlanks?_space {text : List Char} (stop : Stops isBlank text) :
    afterBlanks? (' ' :: text) = some text := by
  have blank : run? isBlank ([' '] ++ text) = some ([' '], text) :=
    run?_append (by simp) (forall_mem_of_all (by decide)) stop
  rw [List.singleton_append] at blank
  rw [afterBlanks?, blank]
  rfl

theorem afterBlanks?_eq_none {text : List Char} (stop : Stops isBlank text) :
    afterBlanks? text = none := by
  have none : text.takeWhile isBlank = [] := stop.takeWhile_eq (List.forall_mem_nil _)
  rw [afterBlanks?, run?, none]
  rfl

theorem afterWord?_space {text : List Char} (word : List Char) (stop : Stops isBlank text) :
    afterWord? word (word ++ ' ' :: text) = some text := by
  rw [afterWord?, after?_append, Option.bind_some, afterBlanks?_space stop]

theorem stops_of_afterBlanks? {text rest : List Char} (h : afterBlanks? text = some rest) :
    Stops isBlank rest := by
  obtain ⟨⟨run, tail⟩, found, rfl⟩ := Option.map_eq_some_iff.1 h
  exact (run?_eq_some.1 found).2.2.2

theorem stops_of_afterWord? {word text rest : List Char} (h : afterWord? word text = some rest) :
    Stops isBlank rest := by
  obtain ⟨middle, -, found⟩ := Option.bind_eq_some_iff.1 h
  exact stops_of_afterBlanks? found

theorem forall_mem_bne {separator : Char} {text : List Char} (absent : separator ∉ text) :
    ∀ c ∈ text, (c != separator) = true := by
  intro c mem
  rw [bne_iff_ne]
  intro same
  exact absent (same ▸ mem)

theorem splitOnce?_append {separator : Char} {first : List Char} (absent : separator ∉ first)
    (rest : List Char) :
    splitOnce? separator (first ++ separator :: rest) = some (first, rest) := by
  have inside := forall_mem_bne absent
  have stop : Stops (· != separator) (separator :: rest) := stops_cons (by simp) rest
  unfold splitOnce?
  rw [stop.dropWhile_eq inside, stop.takeWhile_eq inside]

theorem splitOnce?_eq_some {separator : Char} {text first rest : List Char} :
    splitOnce? separator text = some (first, rest) ↔
      text = first ++ separator :: rest ∧ separator ∉ first := by
  constructor
  · intro h
    have parts := List.takeWhile_append_dropWhile (p := (· != separator)) (l := text)
    have stop := stops_dropWhile (· != separator) text
    unfold splitOnce? at h
    split at h
    · cases h
    · rename_i c tail found
      cases h
      rw [found] at parts stop
      obtain rfl : c = separator := by simpa using stop c rfl
      refine ⟨parts.symm, fun mem => ?_⟩
      simpa using List.mem_takeWhile_imp mem
  · rintro ⟨rfl, absent⟩
    exact splitOnce?_append absent rest

/-- A word followed by blanks is only found at the start of a part without blanks if it is the whole
part. -/
theorem afterWord?_of_part {word part text rest : List Char}
    (solid : ∀ c ∈ word, isBlank c = false) (single : ∀ c ∈ part, isBlank c = false)
    (ended : ∀ c ∈ text.head?, isBlank c = true)
    (h : afterWord? word (part ++ text) = some rest) :
    part = word ∧ afterBlanks? text = some rest := by
  obtain ⟨middle, found, blanks⟩ := Option.bind_eq_some_iff.1 h
  have split := after?_eq_some.1 found
  have stop : Stops (!isBlank ·) text := fun c head => by simp [ended c head]
  have stop' : Stops (!isBlank ·) middle := by
    intro c head
    by_contra plain
    have unblank : Stops isBlank middle := by
      intro other other_head
      obtain rfl : c = other := Option.some.inj (head.symm.trans other_head)
      simpa using plain
    rw [afterBlanks?_eq_none unblank] at blanks
    cases blanks
  have whole : (part ++ text).takeWhile (!isBlank ·) = part :=
    stop.takeWhile_eq (by simpa using single)
  have same : part = word := by
    rw [← whole, split, stop'.takeWhile_eq (by simpa using solid)]
  rw [same] at split
  exact ⟨same, List.append_cancel_left split ▸ blanks⟩

/-- A word that goes on beyond a part of a text has the character after the part in it. -/
theorem prefix_of_prefix_append {word part rest : List Char} (h : word <+: part ++ rest)
    (cut : ∀ c ∈ rest.head?, c ∉ word) : word <+: part := by
  by_cases length : word.length ≤ part.length
  · exact List.prefix_of_prefix_length_le h (List.prefix_append part rest) length
  · have shorter : part <+: word :=
      List.prefix_of_prefix_length_le (List.prefix_append part rest) h (by omega)
    obtain ⟨more, rfl⟩ := shorter
    cases more with
    | nil => simp
    | cons c more =>
        have next : c :: more <+: rest := (List.prefix_append_right_inj part).1 h
        obtain ⟨tail, rfl⟩ := next
        exact absurd (by simp : c ∈ part ++ c :: more) (cut c rfl)

variable {α : Type} {accept : List Char → Option α} {word : List Char}

/-- What a recogniser accepts begins with a word. -/
def BeginsWith (accept : List Char → Option α) (word : List Char) : Prop :=
  ∀ text, (accept text).isSome → word <+: text

theorem beginsWith_after? (word : List Char) : BeginsWith (after? word) word := by
  intro text accepted
  obtain ⟨rest, found⟩ := Option.isSome_iff_exists.1 accepted
  exact ⟨rest, (after?_eq_some.1 found).symm⟩

theorem beginsWith_afterWord? {next : List Char → Option α} (word : List Char) :
    BeginsWith (fun text => (afterWord? word text).bind next) word := by
  intro text accepted
  obtain ⟨a, found⟩ := Option.isSome_iff_exists.1 accepted
  obtain ⟨rest, after, -⟩ := Option.bind_eq_some_iff.1 found
  obtain ⟨middle, start, -⟩ := Option.bind_eq_some_iff.1 after
  exact ⟨middle, (after?_eq_some.1 start).symm⟩

/-- A text that begins with another word is refused, unless one of the words begins the other. -/
theorem BeginsWith.refuses {other : List Char} (begins : BeginsWith accept word)
    (apart : ¬ word <+: other ∧ ¬ other <+: word) (rest : List Char) :
    accept (other ++ rest) = none := by
  rw [← Option.not_isSome_iff_eq_none]
  intro accepted
  rcases List.prefix_or_prefix_of_prefix (begins _ accepted) (List.prefix_append other rest) with
    inside | inside
  · exact apart.1 inside
  · exact apart.2 inside

theorem leftmost?_of_accept {text : List Char} {a : α} (h : accept text = some a) :
    leftmost? accept text = some a := by
  cases text with
  | nil => exact h
  | cons c text => simp [leftmost?, h]

theorem leftmost?_map {β : Type} (f : α → β) (text : List Char) :
    leftmost? (fun text => (accept text).map f) text = (leftmost? accept text).map f := by
  induction text with
  | nil => rfl
  | cons c text ih =>
      rw [leftmost?, leftmost?, ih]
      cases accept (c :: text) <;> rfl

theorem leftmost?_append_of_absent {part rest : List Char} (begins : BeginsWith accept word)
    (absent : ¬ word <:+: part) (cut : ∀ c ∈ rest.head?, c ∉ word) :
    leftmost? accept (part ++ rest) = leftmost? accept rest := by
  induction part with
  | nil => rfl
  | cons c part ih =>
      have refused : accept (c :: (part ++ rest)) = none := by
        rw [← Option.not_isSome_iff_eq_none]
        intro accepted
        exact absent (prefix_of_prefix_append (begins _ accepted) cut).isInfix
      have later : ¬ word <:+: part := fun found => absent (List.infix_cons found)
      rw [List.cons_append, leftmost?, refused, ih later]
      rfl

/-- A character that does not belong to the word is passed over. -/
theorem leftmost?_cons_of_not_mem {c : Char} (rest : List Char) (begins : BeginsWith accept word)
    (nonempty : word ≠ []) (other : c ∉ word) :
    leftmost? accept (c :: rest) = leftmost? accept rest := by
  have refused : accept (c :: rest) = none := by
    rw [← Option.not_isSome_iff_eq_none]
    intro accepted
    rcases List.prefix_cons_iff.1 (begins _ accepted) with empty | ⟨tail, split, -⟩
    · exact nonempty empty
    · exact other (split ▸ List.mem_cons_self)
  rw [leftmost?, refused]
  rfl

/-- Nothing is accepted at the first `n` positions of a text. -/
def Refused (accept : List Char → Option α) (n : Nat) (text : List Char) : Prop :=
  ∀ before rest, text = before ++ rest → (accept rest).isSome → n ≤ before.length

/-- Positions at which nothing is accepted are passed over. -/
theorem leftmost?_append_of_refused {before rest : List Char}
    (refused : Refused accept before.length (before ++ rest)) :
    leftmost? accept (before ++ rest) = leftmost? accept rest := by
  induction before with
  | nil => rfl
  | cons c before ih =>
      have here : accept (c :: (before ++ rest)) = none := by
        rw [← Option.not_isSome_iff_eq_none]
        intro accepted
        exact absurd (refused [] _ rfl accepted) (by simp)
      have later : Refused accept before.length (before ++ rest) := by
        intro earlier tail split accepted
        exact Nat.le_of_succ_le_succ (refused (c :: earlier) tail (congrArg _ split) accepted)
      rw [List.cons_append, leftmost?, here, ih later]
      rfl

/-- A search returns what is accepted at the first position where anything is. -/
theorem leftmost?_eq_some {text : List Char} {a : α} :
    leftmost? accept text = some a ↔
      ∃ before rest, text = before ++ rest ∧ accept rest = some a ∧
        Refused accept before.length text := by
  constructor
  · intro found
    induction text with
    | nil => exact ⟨[], [], rfl, found, fun _ _ _ _ => Nat.zero_le _⟩
    | cons c text ih =>
        cases here : accept (c :: text) with
        | some b =>
            rw [leftmost?_of_accept here] at found
            obtain rfl := Option.some.inj found
            exact ⟨[], _, rfl, here, fun _ _ _ _ => Nat.zero_le _⟩
        | none =>
            rw [leftmost?, here] at found
            obtain ⟨before, rest, split, accepted, refused⟩ := ih found
            refine ⟨c :: before, rest, congrArg _ split, accepted, ?_⟩
            intro earlier tail split' accepted'
            cases earlier with
            | nil =>
                obtain rfl : c :: text = tail := split'
                rw [here] at accepted'
                cases accepted'
            | cons d earlier =>
                exact Nat.succ_le_succ (refused earlier tail (List.cons.inj split').2 accepted')
  · rintro ⟨before, rest, rfl, accepted, refused⟩
    rw [leftmost?_append_of_refused refused, leftmost?_of_accept accepted]

theorem leftmost?_eq_none {text : List Char} :
    leftmost? accept text = none ↔ ∀ rest, rest <:+ text → accept rest = none := by
  constructor
  · rintro none rest ⟨before, rfl⟩
    induction before with
    | nil =>
        cases found : accept rest with
        | none => rfl
        | some a =>
            rw [List.nil_append, leftmost?_of_accept found] at none
            cases none
    | cons c before ih =>
        rw [List.cons_append, leftmost?, Option.orElse_eq_orElse, Option.orElse_eq_or] at none
        exact ih (Option.or_eq_none_iff.1 none).2
  · intro absent
    cases found : leftmost? accept text with
    | none => rfl
    | some a =>
        obtain ⟨before, rest, split, accepted, -⟩ := leftmost?_eq_some.1 found
        rw [absent rest ⟨before, split.symm⟩] at accepted
        cases accepted

theorem occurs_iff_infix {text : List Char} : occurs word text = true ↔ word <:+: text := by
  unfold occurs
  induction text with
  | nil =>
      cases word with
      | nil => simp [leftmost?, after?]
      | cons w word => simp [leftmost?, after?]
  | cons c text ih =>
      rw [List.infix_cons_iff, leftmost?]
      cases found : after? word (c :: text) with
      | some rest => simp [after?_eq_some.1 found]
      | none =>
          have absent : ¬ word <+: c :: text := by
            rintro ⟨rest, split⟩
            rw [after?_eq_some.2 split.symm] at found
            cases found
          simpa [absent] using ih

end PlainVerse.Text
