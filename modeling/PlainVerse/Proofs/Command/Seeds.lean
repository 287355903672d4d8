import PlainVerse.Proofs.Command.Occurrences
import PlainVerse.Proofs.Command.OutputNames

/-!
# Seeds of compress clauses

A seed is a run of decimal digits of any scripts, with any number of zeros in front. A clause that
is reached keeps the exact value of its seed if it fits into 64 bits, and is refused otherwise. This
holds for ASCII digits only. A seed with digits of other scripts is a seed for the search, but it is
refused whatever its value.
-/
namespace PlainVerse

namespace Text

/-- The number that decimal digits of any scripts stand for. -/
def decimalValue (digits : List Char) : Nat :=
  digits.foldl (fun n c => 10 * n + (digitValue? c).getD 0) 0

theorem decimalValue_of_isDigit {digits : List Char} (ascii : ∀ c ∈ digits, c.isDigit = true) :
    decimalValue digits = Nat.ofDigitChars 10 digits 0 := by
  have general : ∀ n, digits.foldl (fun n c => 10 * n + (digitValue? c).getD 0) n =
      digits.foldl (fun n c => 10 * n + (c.toNat - '0'.toNat)) n := by
    induction digits with
    | nil => exact fun n => rfl
    | cons c rest ih =>
        intro n
        obtain ⟨digit, later⟩ := List.forall_mem_cons.1 ascii
        rw [List.foldl_cons, List.foldl_cons, digitValue?_of_isDigit digit, Option.getD_some]
        exact ih later _
  exact general 0

/-- Digits cannot be read if their value is too large, or if one of them is not ASCII. -/
theorem not_isWord64_iff {digits : List Char} (nonempty : digits ≠ []) :
    ¬ IsWord64 digits ↔
      UInt64.size ≤ decimalValue digits ∨ ∃ c ∈ digits, c.isDigit = false := by
  by_cases ascii : ∀ c ∈ digits, c.isDigit = true
  · have none : ¬ ∃ c ∈ digits, c.isDigit = false := by
      intro h
      obtain ⟨c, mem, other⟩ := h
      rw [ascii c mem] at other
      cases other
    rw [or_iff_left none, decimalValue_of_isDigit ascii, IsWord64, ← Nat.not_lt]
    exact not_congr ⟨fun h => h.2.2, fun small => ⟨nonempty, ascii, small⟩⟩
  · refine iff_of_true (fun h => ascii h.2.1) (Or.inr ?_)
    simpa using ascii

end Text

namespace Command

open Plan (Entry)
open Text

/-- The seed of an entry. -/
def seedParam (entry : Entry) : Option Json := entry.params.bind (·.get? "seed")

theorem seedParam_compressEntry (options : Options) (payload : String) (seed : UInt64)
    (name : String) :
    seedParam (compressEntry options payload seed name) = some (.ofNat seed.toNat) := by
  change OrderedMap.get? (OrderedMap.insert _ "seed" (Json.ofNat seed.toNat)) "seed" = _
  rw [OrderedMap.get?_insert, if_pos rfl]

/-- What is found as a seed is a run of decimal digits, of any scripts. -/
theorem digits_of_mem_compressClauses {text digits : String} {clause : CompressClause}
    (mem : clause ∈ compressClauses text) (seed : clause.seed = some digits) :
    digits.toList ≠ [] ∧ ∀ c ∈ digits.toList, isDecimalDigit c = true := by
  obtain ⟨pieces, last, -, clauses⟩ := Cut.exists_of_scan text.toList
  rw [compressClauses, clauses] at mem
  obtain ⟨piece, -, rfl⟩ := List.mem_map.1 mem
  obtain ⟨part, -, rfl⟩ := Option.map_eq_some_iff.1 seed
  rw [String.toList_ofList]
  exact ⟨part.nonempty, part.inside⟩

/-- The compress clauses of a command up to `clause` have been carried out, and it comes next. -/
structure Reached (options : Options) (text : String) (before : List CompressClause)
    (context : Context) (clause : CompressClause) : Prop where
  next : before ++ [clause] <+: compressClauses (normalize text)
  earlier : before.foldlM (compress options) .empty = .ok context

section
variable {options : Options} {text digits : String} {before : List CompressClause}
  {context : Context} {clause : CompressClause}

theorem Reached.split (reached : Reached options text before context clause) :
    ∃ after, compressClauses (normalize text) = before ++ clause :: after := by
  obtain ⟨after, whole⟩ := reached.next
  exact ⟨after, by rw [← whole, List.append_assoc, List.singleton_append]⟩

theorem Reached.mem (reached : Reached options text before context clause) :
    clause ∈ compressClauses (normalize text) :=
  reached.next.subset (List.mem_append_right _ (List.mem_singleton_self clause))

/-- Whatever else is wrong with a command, a seed is reported just if it cannot be read. -/
theorem Reached.compile_eq_invalidSeed (reached : Reached options text before context clause)
    (payload : clause.payload ≠ "") (seed : clause.seed = some digits) :
    compile options text = .error (.invalidSeed digits) ↔ ¬ IsWord64 digits.toList := by
  constructor
  · intro fails
    cases firstFailure_of_compile fails with
    | compress _ _ _ wrong =>
        cases wrong with
        | seed _ _ unreadable => exact unreadable
    | compare _ _ wrong => cases wrong
    | explain _ _ _ wrong => cases wrong
  · intro unreadable
    obtain ⟨after, split⟩ := reached.split
    have nonempty : normalize text ≠ "" := by
      intro empty
      have mem := reached.mem
      rw [empty, compressClauses, String.toList_empty, compressClausesIn_nil] at mem
      cases mem
    exact compile_of_firstFailure (.compress nonempty split
      (foldlM_compress_ok reached.earlier).1 (.seed payload seed unreadable))

/-- Later clauses leave the entries of earlier ones as they are. -/
theorem entries_prefix_of_compress {clauses : List CompressClause} {first last : Context}
    (run : clauses.foldlM (compress options) first = .ok last) :
    first.entries <+: last.entries := by
  induction clauses generalizing first with
  | nil =>
      obtain rfl : first = last := Except.ok.inj run
      exact List.prefix_refl _
  | cons clause rest ih =>
      rw [List.foldlM_cons, bind_eq_ok] at run
      obtain ⟨middle, here, run⟩ := run
      obtain ⟨-, seed, -, rfl⟩ := compress_eq_ok.1 here
      exact (List.prefix_append _ _).trans (ih run)

/-- The entry of a clause stands in the plan at the index of the clause. -/
theorem Reached.getElem?_entries (reached : Reached options text before context clause)
    {next : Context} {entry : Entry} (here : compress options context clause = .ok next)
    (added : next.entries = context.entries ++ [entry]) {plan : Plan}
    (run : compile options text = .ok plan) : plan.entries[before.length]? = some entry := by
  obtain ⟨first, _, _, _, _, compressed, -, entries, -⟩ := exists_additions run
  obtain ⟨after, split⟩ := reached.split
  have later : after.foldlM (compress options) next = .ok first := by
    rw [split, List.foldlM_append, reached.earlier] at compressed
    change (clause :: after).foldlM (compress options) context = .ok first at compressed
    rwa [List.foldlM_cons, here] at compressed
  have length : context.entries.length = before.length := by
    have ops := congrArg List.length (foldlM_compress_ok reached.earlier).2.2.2
    simpa [Context.empty] using ops
  obtain ⟨more, whole⟩ := entries_prefix_of_compress later
  rw [entries, ← whole, added, ← length]
  simp

/-- A seed that can be read is kept as it is. -/
theorem Reached.exists_entry (reached : Reached options text before context clause)
    (payload : clause.payload ≠ "") (seed : clause.seed = some digits)
    (readable : IsWord64 digits.toList) :
    ∃ next entry, compress options context clause = .ok next ∧
      next.entries = context.entries ++ [entry] ∧
      seedParam entry = some (.ofNat (decimalValue digits.toList)) ∧
      ∀ plan, compile options text = .ok plan → plan.entries[before.length]? = some entry := by
  have value : (UInt64.ofNat (Nat.ofDigitChars 10 digits.toList 0)).toNat =
      decimalValue digits.toList := by
    rw [UInt64.toNat_ofNat_of_lt' readable.2.2, decimalValue_of_isDigit readable.2.1]
  have read : seedOf options clause.seed =
      .ok (UInt64.ofNat (Nat.ofDigitChars 10 digits.toList 0)) := by
    rw [seed, seedOf, word64?_eq_some.2 ⟨readable, rfl⟩]
  have here : compress options context clause = .ok (compressed options context clause _) :=
    compress_eq_ok.2 ⟨payload, _, read, rfl⟩
  refine ⟨_, _, here, rfl, ?_, fun plan run => reached.getElem?_entries here rfl run⟩
  rw [seedParam_compressEntry, value]

end

/-- What is expected of the seed of a clause that is reached: a value that fits into 64 bits is the
seed of the clause's entry, and the command is refused for these digits just if it does not fit. -/
structure SeedExact (options : Options) (text : String) (before : List CompressClause)
    (context : Context) (clause : CompressClause) (digits : String) : Prop where
  kept : decimalValue digits.toList < UInt64.size →
    ∃ next entry, compress options context clause = .ok next ∧
      next.entries = context.entries ++ [entry] ∧
      seedParam entry = some (.ofNat (decimalValue digits.toList)) ∧
      ∀ plan, compile options text = .ok plan → plan.entries[before.length]? = some entry
  refused : compile options text = .error (.invalidSeed digits) ↔
    UInt64.size ≤ decimalValue digits.toList

/-- The seed of a clause that is reached is treated as expected just if its digits are ASCII digits
or its value does not fit into 64 bits. A command is also refused for a seed that fits, if some of
its digits belong to another script. -/
theorem seed_exact_iff {options : Options} {text digits : String} {before : List CompressClause}
    {context : Context} {clause : CompressClause}
    (reached : Reached options text before context clause) (payload : clause.payload ≠ "")
    (seed : clause.seed = some digits) :
    (SeedExact options text before context clause digits ↔
      (∀ c ∈ digits.toList, c.isDigit = true) ∨ UInt64.size ≤ decimalValue digits.toList) ∧
    (compile options text = .error (.invalidSeed digits) ↔
      UInt64.size ≤ decimalValue digits.toList ∨ ∃ c ∈ digits.toList, c.isDigit = false) := by
  obtain ⟨nonempty, -⟩ := digits_of_mem_compressClauses reached.mem seed
  have refused : compile options text = .error (.invalidSeed digits) ↔
      UInt64.size ≤ decimalValue digits.toList ∨ ∃ c ∈ digits.toList, c.isDigit = false :=
    (reached.compile_eq_invalidSeed payload seed).trans (not_isWord64_iff nonempty)
  refine ⟨⟨fun exactly => ?_, fun h => ⟨fun small => ?_, ?_⟩⟩, refused⟩
  · by_contra wrong
    obtain ⟨foreign, small⟩ := not_or.1 wrong
    have other : ∃ c ∈ digits.toList, c.isDigit = false := by simpa using foreign
    exact small (exactly.refused.1 (refused.2 (Or.inr other)))
  · have ascii := h.resolve_right (Nat.not_le_of_lt small)
    rw [decimalValue_of_isDigit ascii] at small
    exact reached.exists_entry payload seed ⟨nonempty, ascii, small⟩
  · rw [refused]
    refine or_iff_left_of_imp fun foreign => h.resolve_left fun ascii => ?_
    obtain ⟨c, mem, other⟩ := foreign
    rw [ascii c mem] at other
    cases other

/-- The second clause has the largest seed, with a zero in front of it. -/
def largestSeed : String :=
  "compress payload 'a' compress payload 'b' using seed=018446744073709551615"

theorem seed_exact_largestSeed :
    ∃ context, Reached {} largestSeed [⟨"a", none, none⟩] context
        ⟨"b", some "018446744073709551615", none⟩ ∧
      (∀ c ∈ "018446744073709551615".toList, c.isDigit = true) ∧
      decimalValue "018446744073709551615".toList = 18446744073709551615 ∧
      SeedExact {} largestSeed [⟨"a", none, none⟩] context
        ⟨"b", some "018446744073709551615", none⟩ "018446744073709551615" := by
  have clauses : compressClauses (normalize largestSeed) =
      [⟨"a", none, none⟩, ⟨"b", some "018446744073709551615", none⟩] := by decide +kernel
  have sound : ∀ clause ∈ [CompressClause.mk "a" none none], ∀ error, ¬ clause.Fails error := by
    intro clause mem error wrong
    rw [List.mem_singleton.1 mem] at wrong
    cases wrong with
    | payload empty => exact absurd empty (by decide)
    | seed _ found => cases found
  obtain ⟨context, earlier⟩ := exists_compressed {} .empty sound
  have reached : Reached {} largestSeed [⟨"a", none, none⟩] context
      ⟨"b", some "018446744073709551615", none⟩ :=
    ⟨clauses.symm ▸ List.prefix_refl _, earlier⟩
  have ascii : ∀ c ∈ "018446744073709551615".toList, c.isDigit = true :=
    forall_mem_of_all (by decide)
  exact ⟨context, reached, ascii, by decide,
    (seed_exact_iff reached (by decide) rfl).1.2 (Or.inl ascii)⟩

/-- The digit three in Arabic script. -/
def arabicSeed : String := "compress payload 'a' using seed=\u0663"

/-- A seed with the value three is refused. -/
theorem seed_refused_arabicSeed :
    Reached {} arabicSeed [] .empty ⟨"a", some "\u0663", none⟩ ∧
      decimalValue "\u0663".toList = 3 ∧
      compile {} arabicSeed = .error (.invalidSeed "\u0663") ∧
      ¬ SeedExact {} arabicSeed [] .empty ⟨"a", some "\u0663", none⟩ "\u0663" := by
  have clauses : compressClauses (normalize arabicSeed) = [⟨"a", some "\u0663", none⟩] := by
    decide +kernel
  have reached : Reached {} arabicSeed [] .empty ⟨"a", some "\u0663", none⟩ :=
    ⟨clauses.symm ▸ List.prefix_refl _, rfl⟩
  have value : decimalValue "\u0663".toList = 3 := by decide
  have unreadable : ¬ IsWord64 "\u0663".toList := by
    rw [not_isWord64_iff (by decide)]
    exact Or.inr ⟨'\u0663', by decide, by decide⟩
  have refused : compile {} arabicSeed = .error (.invalidSeed "\u0663") :=
    (reached.compile_eq_invalidSeed (by decide) rfl).2 unreadable
  refine ⟨reached, value, refused, fun exactly => ?_⟩
  have large := exactly.refused.1 refused
  rw [value] at large
  exact absurd large (by decide)

end Command
end PlainVerse
