import PlainVerse.Proofs.Command.Spelling

/-!
# Written clauses are found again

Each family of clauses is searched in the whole text, and finds just the clauses of its own
family, in their order: the keywords of the other searches do not occur in the parts of a clause.
-/
namespace PlainVerse.Command

open Text

section
variable {α : Type} {accept : List Char → Option α} {family : Family} {rest : List Char}

theorem not_mem_keyword {c : Char} (h : c = ' ' ∨ isQuote c = true) (family : Family) :
    c ∉ family.keyword.toList := by
  have quotes : ∀ c ∈ [' ', '"', '\''], c ∉ family.keyword.toList := by
    cases family <;> exact forall_mem_of_all (by decide)
  apply quotes
  rcases h with rfl | quote
  · decide
  · simpa [isQuote] using Or.inr quote

theorem leftmost?_separator {c : Char} (begins : BeginsWith accept family.keyword.toList)
    (separator : c = ' ' ∨ isQuote c = true) :
    leftmost? accept (c :: rest) = leftmost? accept rest :=
  leftmost?_cons_of_not_mem rest begins (keyword_ne_nil family) (not_mem_keyword separator family)

theorem leftmost?_last {part : List Char} (begins : BeginsWith accept family.keyword.toList)
    (absent : ¬ family.keyword.toList <:+: part) (ended : Ended rest) :
    leftmost? accept (part ++ rest) = leftmost? accept rest := by
  apply leftmost?_append_of_absent begins absent
  intro c head
  exact not_mem_keyword (Or.inl (ended c head)) family

theorem leftmost?_part {part : List Char} {c : Char}
    (begins : BeginsWith accept family.keyword.toList)
    (absent : ¬ family.keyword.toList <:+: part) (separator : c = ' ' ∨ isQuote c = true) :
    leftmost? accept (part ++ c :: rest) = leftmost? accept rest := by
  have other := not_mem_keyword separator family
  rw [leftmost?_append_of_absent begins absent (by simpa using other),
    leftmost?_separator begins separator]

theorem absent_of_fixed (searched : family ≠ .compress) :
    ∀ word ∈ ["compress", "payload", "using", "as", "with"],
      ¬ family.keyword.toList <:+: word.toList := by
  simp only [← occurs_iff_infix]
  cases family with
  | compress => exact absurd rfl searched
  | _ => decide

theorem absent_of_keyword (searched : family ≠ .compress) {other : Family} (h : family ≠ other) :
    ¬ family.keyword.toList <:+: other.keyword.toList := by
  rw [← occurs_iff_infix]
  cases family <;> cases other <;> first | decide | contradiction

theorem absent_of_seed (searched : family ≠ .compress) {digits : List Char}
    (h : ∀ c ∈ digits, c.isDigit = true) :
    ¬ family.keyword.toList <:+: "seed=".toList ++ digits := by
  have letter : 'a' ∈ family.keyword.toList := by
    cases family with
    | compress => exact absurd rfl searched
    | _ => decide
  intro found
  rcases List.mem_append.1 (found.subset letter) with fixed | digit
  · exact absurd fixed (by decide)
  · exact absurd (h 'a' digit) (by decide)

theorem leftmost?_nameSpelling (begins : BeginsWith accept family.keyword.toList)
    (searched : family ≠ .compress) {name : Option String} (plain : ∀ x ∈ name, IsPlainName x)
    (ended : Ended rest) :
    leftmost? accept (Clause.nameSpelling name ++ rest) = leftmost? accept rest := by
  cases name with
  | none => rfl
  | some x =>
      rw [Clause.nameSpelling, List.cons_append, List.append_assoc, List.cons_append,
        leftmost?_separator begins (Or.inl rfl),
        leftmost?_part begins (absent_of_fixed searched "as" (by simp)) (Or.inl rfl),
        leftmost?_last begins ((plain x rfl).absent family searched) ended]

theorem leftmost?_seedSpelling (begins : BeginsWith accept family.keyword.toList)
    (searched : family ≠ .compress) {seed : Option String}
    (digits : ∀ x ∈ seed, ∀ c ∈ x.toList, c.isDigit = true) (ended : Ended rest) :
    leftmost? accept (Clause.seedSpelling seed ++ rest) = leftmost? accept rest := by
  cases seed with
  | none => rfl
  | some x =>
      rw [Clause.seedSpelling, List.cons_append, List.append_assoc, List.cons_append,
        leftmost?_separator begins (Or.inl rfl),
        leftmost?_part begins (absent_of_fixed searched "using" (by simp)) (Or.inl rfl),
        leftmost?_last begins (absent_of_seed searched (digits x rfl)) ended]

/-- A search passes over the clauses of all other families. -/
theorem leftmost?_spelling (begins : BeginsWith accept family.keyword.toList)
    (searched : family ≠ .compress) {clause : Clause} (wellFormed : clause.WellFormed)
    (other : family ≠ clause.family) (ended : Ended rest) :
    leftmost? accept (clause.spelling ++ rest) = leftmost? accept rest := by
  have fixed := absent_of_fixed searched
  cases clause with
  | compress quote clause =>
      obtain ⟨quotes, -, payload, seed, name⟩ := wellFormed
      have ended' := ended_nameSpelling clause.name ended
      rw [compress_append, leftmost?_part begins (fixed "compress" (by simp)) (Or.inl rfl),
        leftmost?_part begins (fixed "payload" (by simp)) (Or.inl rfl),
        leftmost?_separator begins (Or.inr quotes),
        leftmost?_part begins (payload.absent family searched) (Or.inr quotes),
        leftmost?_seedSpelling begins searched (fun x given => (seed x given).2) ended',
        leftmost?_nameSpelling begins searched name ended]
  | compare a b =>
      have keyword : ¬ family.keyword.toList <:+: "compare".toList :=
        absent_of_keyword searched other
      rw [compare_append, leftmost?_part begins keyword (Or.inl rfl),
        leftmost?_part begins (wellFormed.1.absent family searched) (Or.inl rfl),
        leftmost?_part begins (fixed "with" (by simp)) (Or.inl rfl),
        leftmost?_last begins (wellFormed.2.absent family searched) ended]
  | attest => exact leftmost?_last begins (absent_of_keyword searched other) ended
  | explain target =>
      have keyword : ¬ family.keyword.toList <:+: "explain".toList :=
        absent_of_keyword searched other
      rw [explain_append, leftmost?_part begins keyword (Or.inl rfl),
        leftmost?_last begins (wellFormed.absent family searched) ended]

/-- A search over joined clauses finds what the first clause of its family holds. -/
theorem leftmost?_following {value : Clause → Option α}
    (begins : BeginsWith accept family.keyword.toList) (searched : family ≠ .compress)
    (found : ∀ clause, clause.WellFormed → clause.family = family → ∀ rest, Ended rest →
      accept (clause.spelling ++ rest) = value clause)
    (holds : ∀ clause, (value clause).isSome ↔ clause.family = family)
    {clauses : List Clause} (wellFormed : ∀ clause ∈ clauses, clause.WellFormed) :
    leftmost? accept (following clauses) = clauses.findSome? value := by
  induction clauses with
  | nil =>
      rw [following, List.flatMap_nil, leftmost?, List.findSome?_nil,
        ← Option.not_isSome_iff_eq_none]
      intro accepted
      exact keyword_ne_nil family (List.prefix_nil.1 (begins [] accepted))
  | cons clause rest ih =>
      obtain ⟨here, later⟩ := List.forall_mem_cons.1 wellFormed
      rw [following_cons, leftmost?_separator begins (Or.inl rfl), List.findSome?_cons]
      cases held : value clause with
      | some v =>
          have same := (holds clause).1 (by rw [held]; rfl)
          have hit := found clause here same _ (ended_following rest)
          exact leftmost?_of_accept (hit.trans held)
      | none =>
          have other : family ≠ clause.family := by
            intro same
            have some := (holds clause).2 same.symm
            rw [held] at some
            cases some
          rw [leftmost?_spelling begins searched here other (ended_following rest)]
          exact ih later

theorem leftmost?_spelled (begins : BeginsWith accept family.keyword.toList)
    (clauses : List Clause) :
    leftmost? accept (spelled clauses).toList = leftmost? accept (following clauses) := by
  cases clauses with
  | nil => rfl
  | cons clause rest =>
      rw [toList_spelled, following_cons, leftmost?_separator begins (Or.inl rfl)]

end

section
variable {clauses : List Clause} (wellFormed : ∀ clause ∈ clauses, clause.WellFormed)
include wellFormed

theorem comparePair?_spelled : comparePair? (spelled clauses) = clauses.findSome? Clause.pair? := by
  rw [comparePair?, leftmost?_spelled beginsWith_comparePairAt?]
  apply leftmost?_following beginsWith_comparePairAt? (by decide) _ _ wellFormed
  · intro clause here same rest ended
    cases clause with
    | compare a b =>
        have second : Stops isBlank ("with".toList ++ ' ' :: (b.toList ++ rest)) :=
          Stops.append_right (by decide) (by decide) _
        rw [compare_append]
        simp only [comparePairAt?, Option.bind_eq_bind]
        rw [afterWord?_space _ here.1.stops_blank, Option.bind_some,
          here.1.run? (ended_space _), Option.bind_some, afterBlanks?_space second,
          Option.bind_some, afterWord?_space _ here.2.stops_blank, Option.bind_some,
          here.2.run? ended]
        simp [Clause.pair?]
    | _ => cases same
  · exact Clause.isSome_pair?

theorem explainTarget?_spelled :
    explainTarget? (spelled clauses) = clauses.findSome? Clause.target? := by
  rw [explainTarget?, leftmost?_spelled beginsWith_explainTargetAt?]
  apply leftmost?_following beginsWith_explainTargetAt? (by decide) _ _ wellFormed
  · intro clause here same rest ended
    cases clause with
    | explain target =>
        rw [explain_append]
        simp only [explainTargetAt?, Option.bind_eq_bind]
        rw [afterWord?_space _ here.stops_blank, Option.bind_some, here.run? ended]
        simp [Clause.target?]
    | _ => cases same
  · exact Clause.isSome_target?

theorem isPresent_spelled {family : Family} (searched : family ≠ .compress) :
    family.isPresent (spelled clauses) = clauses.any (·.family = family) := by
  have begins : BeginsWith (fun text => (after? family.keyword.toList text).map fun _ => ())
      family.keyword.toList := by
    intro text accepted
    rw [Option.isSome_map] at accepted
    exact beginsWith_after? _ text accepted
  have search : leftmost? (fun text => (after? family.keyword.toList text).map fun _ => ())
      (following clauses) =
      clauses.findSome? fun clause => if clause.family = family then some () else none := by
    apply leftmost?_following begins searched _ _ wellFormed
    · intro clause _ same rest _
      obtain ⟨parts, split⟩ := spelling_eq_keyword_append clause
      rw [split, same, List.append_assoc, after?_append, if_pos rfl]
      rfl
    · intro clause
      simp
  rw [Family.isPresent, occurs, ← Option.isSome_map, ← leftmost?_map, leftmost?_spelled begins,
    search, Bool.eq_iff_iff, List.findSome?_isSome_iff, List.any_eq_true]
  simp

omit wellFormed in
theorem optional_name?_spelling {name : Option String} (plain : ∀ x ∈ name, IsPlainName x)
    (clauses : List Clause) :
    optional name? (Clause.nameSpelling name ++ following clauses) =
      (name.map String.toList, following clauses) := by
  cases name with
  | none =>
      have none := name?_eq_none (not_prefix_following (by simp) clauses)
      rw [Clause.nameSpelling, List.nil_append, optional, none]
      rfl
  | some x =>
      have here := plain x rfl
      have word : Stops isBlank ("as".toList ++ ' ' :: (x.toList ++ following clauses)) :=
        Stops.append_right (by decide) (by decide) _
      have found : name? (Clause.nameSpelling (some x) ++ following clauses) =
          some (x.toList, following clauses) := by
        rw [Clause.nameSpelling, List.cons_append, List.append_assoc, List.cons_append]
        simp only [name?, Option.bind_eq_bind]
        rw [afterBlanks?_space word, Option.bind_some, afterWord?_space _ here.stops_blank,
          Option.bind_some, here.run? (ended_following clauses)]
      rw [optional, found]
      rfl

omit wellFormed in
theorem not_prefix_nameSpelling (name : Option String) (clauses : List Clause) :
    ∀ middle, afterBlanks? (Clause.nameSpelling name ++ following clauses) = some middle →
      ¬ "using".toList <+: middle := by
  cases name with
  | none => exact not_prefix_following (by simp) clauses
  | some x =>
      intro middle blanks found
      have word : Stops isBlank ("as".toList ++ ' ' :: (x.toList ++ following clauses)) :=
        Stops.append_right (by decide) (by decide) _
      rw [Clause.nameSpelling, List.cons_append, List.append_assoc, List.cons_append,
        afterBlanks?_space word] at blanks
      rw [← Option.some.inj blanks] at found
      exact absurd (List.cons_prefix_cons.1 found).1 (by decide)

omit wellFormed in
theorem optional_seed?_spelling {seed : Option String}
    (digits : ∀ x ∈ seed, x ≠ "" ∧ ∀ c ∈ x.toList, c.isDigit = true) (name : Option String)
    (clauses : List Clause) :
    optional seed? (Clause.seedSpelling seed ++ (Clause.nameSpelling name ++ following clauses)) =
      (seed.map String.toList, Clause.nameSpelling name ++ following clauses) := by
  cases seed with
  | none =>
      have none := seed?_eq_none (not_prefix_nameSpelling name clauses)
      rw [Clause.seedSpelling, List.nil_append, optional, none]
      rfl
  | some x =>
      obtain ⟨nonempty, digit⟩ := digits x rfl
      have ended := ended_nameSpelling name (ended_following clauses)
      have taken := run?_append (fun empty => nonempty (String.toList_eq_nil_iff.1 empty))
        (fun c mem => isDecimalDigit_of_isDigit (digit c mem))
        (ended.stops (p := isDecimalDigit) (by decide +kernel))
      generalize Clause.nameSpelling name ++ following clauses = rest at taken
      have word : Stops isBlank
          ("using".toList ++ ' ' :: ("seed=".toList ++ (x.toList ++ rest))) :=
        Stops.append_right (by decide) (by decide) _
      have seed : Stops isBlank ("seed=".toList ++ (x.toList ++ rest)) :=
        Stops.append_right (by decide) (by decide) _
      have found : seed? (Clause.seedSpelling (some x) ++ rest) = some (x.toList, rest) := by
        rw [Clause.seedSpelling, List.cons_append, List.append_assoc, List.cons_append,
          List.append_assoc]
        simp only [seed?, Option.bind_eq_bind]
        rw [afterBlanks?_space word, Option.bind_some, afterWord?_space _ seed,
          Option.bind_some, after?_append, Option.bind_some, taken]
      rw [optional, found]
      rfl

omit wellFormed in
theorem compressClause?_spelling {quote : Char} {clause : CompressClause}
    (here : (Clause.compress quote clause).WellFormed) (clauses : List Clause) :
    compressClause? ((Clause.compress quote clause).spelling ++ following clauses) =
      some (clause, following clauses) := by
  obtain ⟨quotes, inside, -, seed, name⟩ := here
  have second : ∀ rest, Stops isBlank ("payload".toList ++ ' ' :: quote :: rest) :=
    fun rest => Stops.append_right (by decide) (by decide) _
  have third : ∀ rest, Stops isBlank (quote :: rest) := stops_cons (isBlank_of_isQuote quotes)
  rw [compress_append]
  simp only [compressClause?, Option.bind_eq_bind]
  rw [afterWord?_space _ (second _), Option.bind_some, afterWord?_space _ (third _),
    Option.bind_some, payload?_quoted quotes inside, Option.bind_some,
    optional_seed?_spelling seed, optional_name?_spelling name]
  simp [Function.comp_def]

/-- The scan for compress clauses finds them all, and nothing in the other clauses. -/
theorem compressClausesIn_following :
    compressClausesIn (following clauses) = clauses.filterMap Clause.compress? := by
  have space : isBlank ' ' = true := by decide
  induction clauses with
  | nil => decide +kernel
  | cons clause rest ih =>
      obtain ⟨here, later⟩ := List.forall_mem_cons.1 wellFormed
      have ended : ∀ c ∈ (following rest).head?, isBlank c = true := by
        intro c head
        rw [ended_following rest c head]
        exact space
      have spaced : ∀ text, ∀ c ∈ (' ' :: text).head?, isBlank c = true := by
        intro text c head
        rwa [← Option.some.inj head]
      have next : ∀ middle, afterBlanks? (following rest) = some middle →
          ¬ "payload".toList <+: middle := not_prefix_following (by simp) rest
      rw [following_cons, compressClausesIn_blank space]
      cases clause with
      | compress quote clause =>
          rw [compressClausesIn_of_some (compressClause?_spelling here rest), ih later]
          rfl
      | compare a b =>
          have second : Stops isBlank ("with".toList ++ ' ' :: (b.toList ++ following rest)) :=
            Stops.append_right (by decide) (by decide) _
          rw [compare_append, compressClausesIn_short (by decide) (spaced _) (by decide),
            compressClausesIn_blank space,
            compressClausesIn_part here.1.not_blank (spaced _) _, compressClausesIn_blank space,
            compressClausesIn_short (by decide) (spaced _) (by decide),
            compressClausesIn_blank space, compressClausesIn_part here.2.not_blank ended next,
            ih later]
          · rfl
          · intro middle blanks found
            rw [afterBlanks?_space second] at blanks
            rw [← Option.some.inj blanks] at found
            exact absurd (List.cons_prefix_cons.1 found).1 (by decide)
      | attest =>
          have attest : (Clause.attest).spelling = "attest".toList := rfl
          rw [attest, compressClausesIn_short (by decide) ended (by decide), ih later]
          rfl
      | explain target =>
          rw [explain_append, compressClausesIn_short (by decide) (spaced _) (by decide),
            compressClausesIn_blank space, compressClausesIn_part here.not_blank ended next,
            ih later]
          rfl

theorem compressClauses_spelled :
    compressClauses (spelled clauses) = clauses.filterMap Clause.compress? := by
  rw [← compressClausesIn_following wellFormed, compressClauses]
  cases clauses with
  | nil => rfl
  | cons clause rest =>
      rw [toList_spelled, following_cons, compressClausesIn_blank (by decide)]

end

end PlainVerse.Command
