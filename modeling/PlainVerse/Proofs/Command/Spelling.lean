import PlainVerse.Command.Compile
import PlainVerse.Proofs.Command.Names
import PlainVerse.Proofs.Command.Scanning
import PlainVerse.Proofs.Text.Splitting

/-!
# Clauses as they are written

Clauses are written with single spaces and joined by single spaces. What follows a clause begins
with a keyword, which continues none of its parts. Joined clauses are in normal form, so that they
are searched as they are written.
-/
namespace PlainVerse.Command

open Text

/-- A clause as it is written. The quotes around a payload are of one kind. -/
inductive Clause where
  | compress (quote : Char) (clause : CompressClause)
  | compare (a b : String)
  | attest
  | explain (target : String)
deriving DecidableEq, Repr

/-- A text that the searches for other clauses pass over, and that lower-casing leaves alone. -/
structure IsPlain (text : String) : Prop where
  lower : ∀ c ∈ text.toList, IsLower c
  absent : ∀ family, family ≠ Family.compress → ¬ family.keyword.toList <:+: text.toList

theorem isPlain_iff {text : String} :
    IsPlain text ↔ (∀ c ∈ text.toList, IsLower c) ∧
      ∀ family ∈ Family.all, family ≠ .compress →
        occurs family.keyword.toList text.toList = false := by
  have all : ∀ family, family ∈ Family.all := by
    intro family
    cases family <;> decide
  simp only [← Bool.not_eq_true, occurs_iff_infix]
  exact ⟨fun h => ⟨h.lower, fun family _ => h.absent family⟩,
    fun h => ⟨h.1, fun family => h.2 family (all family)⟩⟩

instance (text : String) : Decidable (IsPlain text) :=
  have := List.decidableBAll IsLower text.toList
  decidable_of_iff' _ isPlain_iff

/-- A name that a clause may give or refer to. -/
structure IsPlainName (name : String) : Prop extends IsPlain name where
  nonempty : name ≠ ""
  isName : IsName name

instance (name : String) : Decidable (IsPlainName name) :=
  decidable_of_iff (IsPlain name ∧ name ≠ "" ∧ IsName name)
    ⟨fun h => ⟨h.1, h.2.1, h.2.2⟩, fun h => ⟨h.toIsPlain, h.nonempty, h.isName⟩⟩

namespace Clause

def family : Clause → Family
  | .compress .. => .compress
  | .compare .. => .compare
  | .attest => .attest
  | .explain _ => .explain

/-- What the parts of a clause have to be. A payload may be empty, and a seed may be of any size. -/
def WellFormed : Clause → Prop
  | .compress quote clause =>
      isQuote quote = true ∧ (∀ c ∈ clause.payload.toList, isQuote c = false) ∧
        IsPlain clause.payload ∧
        (∀ digits ∈ clause.seed, digits ≠ "" ∧ ∀ c ∈ digits.toList, c.isDigit = true) ∧
        ∀ name ∈ clause.name, IsPlainName name
  | .compare a b => IsPlainName a ∧ IsPlainName b
  | .attest => True
  | .explain target => IsPlainName target

instance (clause : Clause) : Decidable clause.WellFormed :=
  match clause with
  | .compress _ clause =>
      have := List.decidableBAll (isQuote · = false) clause.payload.toList
      have (digits : String) : Decidable (∀ c ∈ digits.toList, c.isDigit = true) :=
        List.decidableBAll (Char.isDigit · = true) digits.toList
      inferInstanceAs (Decidable (_ ∧ _ ∧ _ ∧ _ ∧ _))
  | .compare a b => inferInstanceAs (Decidable (IsPlainName a ∧ IsPlainName b))
  | .attest => isTrue trivial
  | .explain target => inferInstanceAs (Decidable (IsPlainName target))

example : (Clause.compress '"' ⟨"a b", some "7", some "x"⟩).WellFormed := by decide +kernel

def seedSpelling : Option String → List Char
  | none => []
  | some digits => ' ' :: ("using".toList ++ ' ' :: ("seed=".toList ++ digits.toList))

def nameSpelling : Option String → List Char
  | none => []
  | some name => ' ' :: ("as".toList ++ ' ' :: name.toList)

def spelling : Clause → List Char
  | .compress quote clause =>
      "compress".toList ++ ' ' :: ("payload".toList ++ ' ' :: quote ::
        (clause.payload.toList ++ quote :: (seedSpelling clause.seed ++ nameSpelling clause.name)))
  | .compare a b =>
      "compare".toList ++ ' ' :: (a.toList ++ ' ' :: ("with".toList ++ ' ' :: b.toList))
  | .attest => "attest".toList
  | .explain target => "explain".toList ++ ' ' :: target.toList

def compress? : Clause → Option CompressClause
  | .compress _ clause => some clause
  | _ => none

def pair? : Clause → Option (String × String)
  | .compare a b => some (a, b)
  | _ => none

def target? : Clause → Option String
  | .explain target => some target
  | _ => none

theorem isSome_pair? (clause : Clause) : clause.pair?.isSome ↔ clause.family = .compare := by
  cases clause <;> simp [pair?, family]

theorem isSome_target? (clause : Clause) : clause.target?.isSome ↔ clause.family = .explain := by
  cases clause <;> simp [target?, family]

end Clause

/-- Clauses joined by single spaces. -/
def spelled (clauses : List Clause) : String :=
  String.ofList ([' '].intercalate (clauses.map Clause.spelling))

example : spelled [.explain "x", .compress '"' ⟨"a b", some "7", some "x"⟩, .attest] =
    "explain x compress payload \"a b\" using seed=7 as x attest" := by decide +kernel

/-- What stands after a clause that is followed by others. -/
def following (clauses : List Clause) : List Char := clauses.flatMap fun c => ' ' :: c.spelling

theorem following_cons (clause : Clause) (rest : List Clause) :
    following (clause :: rest) = ' ' :: (clause.spelling ++ following rest) := rfl

theorem toList_spelled (clause : Clause) (rest : List Clause) :
    (spelled (clause :: rest)).toList = clause.spelling ++ following rest := by
  rw [spelled, String.toList_ofList, List.map_cons, intercalate_cons, List.flatMap_map]
  rfl

/-- A clause ends where the text ends or at a space. -/
def Ended (rest : List Char) : Prop := ∀ c ∈ rest.head?, c = ' '

theorem ended_nil : Ended [] := fun _ h => nomatch h

theorem ended_space (rest : List Char) : Ended (' ' :: rest) :=
  fun _ h => (Option.some.inj h).symm

theorem ended_following (clauses : List Clause) : Ended (following clauses) := by
  cases clauses with
  | nil => exact ended_nil
  | cons clause rest => exact ended_space _

theorem Ended.stops {rest : List Char} (h : Ended rest) {p : Char → Bool} (space : p ' ' = false) :
    Stops p rest := by
  intro c head
  rw [h c head]
  exact space

theorem ended_nameSpelling {rest : List Char} (name : Option String) (h : Ended rest) :
    Ended (Clause.nameSpelling name ++ rest) := by
  cases name with
  | none => exact h
  | some name => exact ended_space _

theorem spelling_eq_keyword_append (clause : Clause) :
    ∃ parts, clause.spelling = clause.family.keyword.toList ++ parts := by
  cases clause with
  | attest => exact ⟨[], (List.append_nil _).symm⟩
  | compress quote clause => exact ⟨_, rfl⟩
  | compare a b => exact ⟨_, rfl⟩
  | explain target => exact ⟨_, rfl⟩

theorem keyword_ne_nil (family : Family) : family.keyword.toList ≠ [] := by
  cases family <;> decide

/-- A character that no keyword begins with does not begin a clause either. -/
theorem stops_spelling {p : Char → Bool} (clause : Clause) (rest : List Char)
    (h : ∀ family, Stops p (Family.keyword family).toList) : Stops p (clause.spelling ++ rest) := by
  obtain ⟨parts, split⟩ := spelling_eq_keyword_append clause
  rw [split, List.append_assoc]
  exact (h clause.family).append_right (keyword_ne_nil _) _

theorem stops_blank_spelling (clause : Clause) (rest : List Char) :
    Stops isBlank (clause.spelling ++ rest) := by
  apply stops_spelling
  intro family
  cases family <;> decide

/-- Behind the blanks after a clause comes the next clause. -/
theorem afterBlanks?_following {clauses : List Clause} {rest : List Char}
    (h : afterBlanks? (following clauses) = some rest) :
    ∃ clause others, rest = Clause.spelling clause ++ following others := by
  cases clauses with
  | nil => cases h
  | cons clause others =>
      rw [following_cons, afterBlanks?_space (stops_blank_spelling clause _)] at h
      exact ⟨clause, others, (Option.some.inj h).symm⟩

theorem compress_append (quote : Char) (clause : CompressClause) (rest : List Char) :
    (Clause.compress quote clause).spelling ++ rest =
      "compress".toList ++ ' ' :: ("payload".toList ++ ' ' :: quote ::
        (clause.payload.toList ++ quote :: (Clause.seedSpelling clause.seed ++
          (Clause.nameSpelling clause.name ++ rest)))) := by
  unfold Clause.spelling
  rw [List.append_assoc, List.cons_append, List.append_assoc, List.cons_append,
    List.cons_append, List.append_assoc, List.cons_append, List.append_assoc]

theorem compare_append (a b : String) (rest : List Char) :
    (Clause.compare a b).spelling ++ rest =
      "compare".toList ++ ' ' :: (a.toList ++ ' ' :: ("with".toList ++ ' ' ::
        (b.toList ++ rest))) := by
  unfold Clause.spelling
  rw [List.append_assoc, List.cons_append, List.append_assoc, List.cons_append,
    List.append_assoc, List.cons_append]

theorem explain_append (target : String) (rest : List Char) :
    (Clause.explain target).spelling ++ rest =
      "explain".toList ++ ' ' :: (target.toList ++ rest) := by
  unfold Clause.spelling
  rw [List.append_assoc, List.cons_append]

namespace IsPlainName
variable {name : String} {rest : List Char}

theorem toList_ne_nil (h : IsPlainName name) : name.toList ≠ [] := by
  intro empty
  exact h.nonempty (String.toList_eq_nil_iff.1 empty)

theorem not_blank (h : IsPlainName name) : ∀ c ∈ name.toList, isBlank c = false :=
  fun c mem => isBlank_of_isWord (h.isName c mem)

theorem stops_blank (h : IsPlainName name) : Stops isBlank (name.toList ++ rest) := by
  refine Stops.append_right (fun c head => ?_) h.toList_ne_nil rest
  exact h.not_blank c (List.mem_of_mem_head? head)

/-- A name is taken as a whole. -/
theorem run? (h : IsPlainName name) (ended : Ended rest) :
    Text.run? isWord (name.toList ++ rest) = some (name.toList, rest) :=
  run?_append h.toList_ne_nil h.isName (ended.stops (by decide +kernel))

end IsPlainName

/-- A word that is neither a part of a keyword nor goes beyond one does not begin a clause. -/
theorem not_prefix_spelling {word : List Char}
    (apart : ∀ family : Family, word.isPrefixOf family.keyword.toList = false ∧
      family.keyword.toList.isPrefixOf word = false) (clause : Clause) (rest : List Char) :
    ¬ word <+: clause.spelling ++ rest := by
  obtain ⟨parts, split⟩ := spelling_eq_keyword_append clause
  rw [split, List.append_assoc]
  intro found
  obtain ⟨inside, beyond⟩ := apart clause.family
  rw [← Bool.not_eq_true, List.isPrefixOf_iff_prefix] at inside beyond
  rcases List.prefix_or_prefix_of_prefix found (List.prefix_append _ _) with h | h
  · exact inside h
  · exact beyond h

/-- No word between the keywords of a compress clause begins a clause. -/
theorem not_prefix_following {word : String} (mem : word ∈ ["payload", "using", "as"])
    (clauses : List Clause) :
    ∀ middle, afterBlanks? (following clauses) = some middle → ¬ word.toList <+: middle := by
  intro middle blanks
  obtain ⟨clause, others, rfl⟩ := afterBlanks?_following blanks
  apply not_prefix_spelling
  have apart : ∀ word ∈ ["payload", "using", "as"],
      ∀ family ∈ Family.all, word.toList.isPrefixOf family.keyword.toList = false ∧
        family.keyword.toList.isPrefixOf word.toList = false := by decide
  intro family
  apply apart word mem
  cases family <;> decide

/-- A text that does not end with a blank. -/
def EndsPlain (text : List Char) : Prop := ∃ c ∈ text.getLast?, isBlank c = false

theorem EndsPlain.append {text : List Char} (h : EndsPlain text) (before : List Char) :
    EndsPlain (before ++ text) := by
  obtain ⟨c, last, plain⟩ := h
  refine ⟨c, ?_, plain⟩
  rw [List.getLast?_append, last]
  rfl

theorem EndsPlain.cons {text : List Char} (h : EndsPlain text) (c : Char) :
    EndsPlain (c :: text) :=
  h.append [c]

theorem endsPlain_of_forall {text : List Char} (nonempty : text ≠ [])
    (plain : ∀ c ∈ text, isBlank c = false) : EndsPlain text :=
  ⟨_, List.getLast?_eq_some_getLast nonempty, plain _ (List.getLast_mem nonempty)⟩

theorem IsPlainName.endsPlain {name : String} (h : IsPlainName name) : EndsPlain name.toList :=
  endsPlain_of_forall h.toList_ne_nil h.not_blank

theorem isBlank_of_isDigit {c : Char} (h : c.isDigit = true) : isBlank c = false :=
  isBlank_of_isWord (isWord_of_isDigit h)

/-- A compress clause ends with its name, its seed or the second quote. -/
theorem endsPlain_quoted {quote : Char} {seed name : Option String}
    (quotes : isQuote quote = true)
    (digits : ∀ x ∈ seed, x ≠ "" ∧ ∀ c ∈ x.toList, c.isDigit = true)
    (plain : ∀ x ∈ name, IsPlainName x) :
    EndsPlain (quote :: (Clause.seedSpelling seed ++ Clause.nameSpelling name)) := by
  cases name with
  | some x =>
      have last := (plain x rfl).endsPlain
      exact ((((last.cons ' ').append "as".toList).cons ' ').append _).cons quote
  | none =>
      rw [Clause.nameSpelling, List.append_nil]
      cases seed with
      | some x =>
          obtain ⟨nonempty, digit⟩ := digits x rfl
          have last : EndsPlain x.toList :=
            endsPlain_of_forall (fun empty => nonempty (String.toList_eq_nil_iff.1 empty))
              fun c mem => isBlank_of_isDigit (digit c mem)
          have seed : EndsPlain ("seed=".toList ++ x.toList) := last.append _
          exact (((seed.cons ' ').append "using".toList).cons ' ').cons quote
      | none => exact ⟨quote, rfl, isBlank_of_isQuote quotes⟩

theorem endsPlain_spelling {clause : Clause} (wellFormed : clause.WellFormed) :
    EndsPlain clause.spelling := by
  cases clause with
  | compress quote clause =>
      obtain ⟨quotes, -, -, seed, name⟩ := wellFormed
      have last := endsPlain_quoted quotes seed name
      exact (((((last.append _).cons quote).cons ' ').append "payload".toList).cons ' ').append _
  | compare a b =>
      have last := wellFormed.2.endsPlain
      exact (((((last.cons ' ').append "with".toList).cons ' ').append _).cons ' ').append _
  | attest => exact ⟨'t', rfl, by decide⟩
  | explain target =>
      have last : EndsPlain target.toList := IsPlainName.endsPlain wellFormed
      exact (last.cons ' ').append _

theorem isLower_of_isDigit {c : Char} (h : c.isDigit = true) : IsLower c :=
  of_isDigit (by decide +kernel) h

theorem isLower_of_isQuote {c : Char} (h : isQuote c = true) : IsLower c := by
  rcases (by simpa [isQuote] using h : c = '"' ∨ c = '\'') with rfl | rfl
  · decide +kernel
  · decide +kernel

theorem isLower_space : IsLower ' ' := by decide +kernel

theorem isLower_of_mem_fixed :
    ∀ word ∈ ["compress", "payload", "using", "seed=", "as", "compare", "with", "attest",
      "explain"], ∀ c ∈ word.toList, IsLower c := by
  intro word mem
  apply forall_mem_of_all
  revert word
  decide +kernel

theorem isLower_nameSpelling {name : Option String} (plain : ∀ x ∈ name, IsPlainName x) :
    ∀ c ∈ Clause.nameSpelling name, IsLower c := by
  cases name with
  | none => exact List.forall_mem_nil _
  | some x =>
      simp only [Clause.nameSpelling, List.forall_mem_append, List.forall_mem_cons]
      exact ⟨isLower_space, isLower_of_mem_fixed "as" (by simp), isLower_space, (plain x rfl).lower⟩

theorem isLower_seedSpelling {seed : Option String}
    (digits : ∀ x ∈ seed, ∀ c ∈ x.toList, c.isDigit = true) :
    ∀ c ∈ Clause.seedSpelling seed, IsLower c := by
  cases seed with
  | none => exact List.forall_mem_nil _
  | some x =>
      simp only [Clause.seedSpelling, List.forall_mem_append, List.forall_mem_cons]
      exact ⟨isLower_space, isLower_of_mem_fixed "using" (by simp), isLower_space,
        isLower_of_mem_fixed "seed=" (by simp),
        fun c mem => isLower_of_isDigit (digits x rfl c mem)⟩

theorem isLower_spelling {clause : Clause} (wellFormed : clause.WellFormed) :
    ∀ c ∈ clause.spelling, IsLower c := by
  have space := isLower_space
  have fixed := isLower_of_mem_fixed
  cases clause with
  | compress quote clause =>
      obtain ⟨quotes, -, payload, seed, name⟩ := wellFormed
      have quote := isLower_of_isQuote quotes
      unfold Clause.spelling
      simp only [List.forall_mem_append, List.forall_mem_cons]
      exact ⟨fixed "compress" (by simp), space, fixed "payload" (by simp), space, quote,
        payload.lower, quote, isLower_seedSpelling fun x given => (seed x given).2,
        isLower_nameSpelling name⟩
  | compare a b =>
      unfold Clause.spelling
      simp only [List.forall_mem_append, List.forall_mem_cons]
      exact ⟨fixed "compare" (by simp), space, wellFormed.1.lower, space, fixed "with" (by simp),
        space, wellFormed.2.lower⟩
  | attest => exact fixed "attest" (by simp)
  | explain target =>
      unfold Clause.spelling
      simp only [List.forall_mem_append, List.forall_mem_cons]
      exact ⟨fixed "explain" (by simp), space, wellFormed.lower⟩

theorem isLower_following {clauses : List Clause}
    (wellFormed : ∀ clause ∈ clauses, clause.WellFormed) :
    ∀ c ∈ following clauses, IsLower c := by
  intro c mem
  obtain ⟨clause, inside, here⟩ := List.mem_flatMap.1 mem
  rcases List.mem_cons.1 here with rfl | spelled
  · exact isLower_space
  · exact isLower_spelling (wellFormed clause inside) c spelled

theorem endsPlain_append_following {clause : Clause} {rest : List Clause}
    (wellFormed : ∀ other ∈ clause :: rest, other.WellFormed) :
    EndsPlain (clause.spelling ++ following rest) := by
  induction rest generalizing clause with
  | nil =>
      rw [following, List.flatMap_nil, List.append_nil]
      exact endsPlain_spelling (wellFormed clause List.mem_cons_self)
  | cons second rest ih =>
      rw [following_cons]
      exact ((ih fun other mem => wellFormed other (List.mem_cons_of_mem _ mem)).cons ' ').append _

/-- Joined clauses are searched as they are written. -/
theorem normalize_spelled {clauses : List Clause}
    (wellFormed : ∀ clause ∈ clauses, clause.WellFormed) :
    normalize (spelled clauses) = spelled clauses := by
  cases clauses with
  | nil => decide +kernel
  | cons clause rest =>
      obtain ⟨here, later⟩ := List.forall_mem_cons.1 wellFormed
      have lower : ∀ c ∈ clause.spelling ++ following rest, IsLower c :=
        List.forall_mem_append.2 ⟨isLower_spelling here, isLower_following later⟩
      have last : Stops isBlank (clause.spelling ++ following rest).reverse := by
        obtain ⟨c, last, plain⟩ := endsPlain_append_following wellFormed
        intro d head
        rw [List.head?_reverse, last] at head
        rwa [← Option.some.inj head]
      rw [normalize, toList_spelled, trim_eq_self (stops_blank_spelling clause _) last,
        lower_eq_self lower, ← toList_spelled, String.ofList_toList]

theorem spelled_eq_empty {clauses : List Clause} : spelled clauses = "" ↔ clauses = [] := by
  cases clauses with
  | nil => exact iff_of_true rfl rfl
  | cons clause rest =>
      have nonempty : (spelled (clause :: rest)).toList ≠ [] := by
        obtain ⟨parts, split⟩ := spelling_eq_keyword_append clause
        rw [toList_spelled, split, List.append_assoc]
        exact List.append_ne_nil_of_left_ne_nil (keyword_ne_nil _) _
      rw [ne_eq, String.toList_eq_nil_iff] at nonempty
      exact iff_of_false nonempty (List.cons_ne_nil _ _)

end PlainVerse.Command
