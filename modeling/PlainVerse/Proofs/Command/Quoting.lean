import PlainVerse.Proofs.Command.Occurrences

/-!
# Quoted payloads

Both kinds of quotes open and close a payload, and neither may stand inside it. So a payload is read
as it is written only if it contains no quote of either kind. Otherwise it is cut at the first quote
inside, also where that is not of the kind that has opened it.
-/
namespace PlainVerse.Command

open Text

/-- A compress clause with a payload only, which stands between two quotes of one kind. -/
def quotedClause (quote : Char) (payload : String) : String :=
  "compress payload " ++ String.singleton quote ++ payload ++ String.singleton quote

theorem toList_quotedClause (quote : Char) (payload : String) :
    (quotedClause quote payload).toList =
      "compress payload ".toList ++ quote :: (payload.toList ++ [quote]) := by
  unfold quotedClause
  generalize "compress payload " = words
  simp

/-- A space between two words of a clause. -/
def singleSpace : Blanks where
  text := [' ']
  nonempty := List.cons_ne_nil _ _
  blank := List.forall_mem_singleton.2 (by decide)

section
variable {quote : Char} (quotes : isQuote quote = true) (payload : List Char)
include quotes

/-- The first quote behind the opening one ends the payload. It is the last character of the clause
if there is none inside. -/
theorem exists_closing :
    ∃ closing rest, isQuote closing = true ∧
      payload ++ [quote] = payload.takeWhile (!isQuote ·) ++ closing :: rest ∧
      ((∀ c ∈ payload, isQuote c = false) → rest = []) := by
  have whole := List.takeWhile_append_dropWhile (p := (!isQuote ·)) (l := payload)
  have first := stops_dropWhile (!isQuote ·) payload
  cases inside : payload.dropWhile (!isQuote ·) with
  | nil =>
      rw [inside, List.append_nil] at whole
      exact ⟨quote, [], quotes, by rw [whole], fun _ => rfl⟩
  | cons closing rest =>
      rw [inside] at whole first
      have closes : isQuote closing = true := by simpa using first closing rfl
      refine ⟨closing, rest ++ [quote], closes, ?_, fun plain => ?_⟩
      · conv_lhs => rw [← whole, List.append_assoc, List.cons_append]
      · have mem : closing ∈ payload := by
          rw [← whole]
          exact List.mem_append_right _ List.mem_cons_self
        rw [plain closing mem] at closes
        cases closes

/-- The first clause that is found has the payload up to the first quote inside it, and nothing
follows it if there is none. -/
theorem exists_compressClauses_quoted :
    ∃ clause clauses,
      compressClausesIn ("compress payload ".toList ++ quote :: (payload ++ [quote])) =
        clause :: clauses ∧
      clause.payload = String.ofList (payload.takeWhile (!isQuote ·)) ∧
      ((∀ c ∈ payload, isQuote c = false) → clauses = []) := by
  obtain ⟨closing, rest, closes, split, last⟩ := exists_closing quotes payload
  let head : Head :=
    { left := singleSpace
      middle := singleSpace
      opening := quote
      payload := payload.takeWhile (!isQuote ·)
      closing := closing
      opens := quotes
      plain := fun c mem => by simpa using List.mem_takeWhile_imp mem
      closes := closes }
  have text : "compress payload ".toList ++ quote :: (payload ++ [quote]) = head.text ++ rest := by
    rw [split, head.append_eq]
    rfl
  have found : head? ("compress payload ".toList ++ quote :: (payload ++ [quote])) =
      some (payload.takeWhile (!isQuote ·), rest) := head?_eq_some.2 ⟨head, rfl, text⟩
  have clause :=
    compressClause?_eq_map ("compress payload ".toList ++ quote :: (payload ++ [quote]))
  rw [found, Option.map_some] at clause
  refine ⟨_, _, compressClausesIn_of_some clause, rfl, fun plain => ?_⟩
  rw [last plain]
  exact compressClausesIn_nil

end

/-- A payload between two quotes of one kind is read as it is written just if it contains no quote
of either kind. In any case it is read up to the first quote inside it. -/
theorem quoted_payload_iff {quote : Char} (quotes : isQuote quote = true) (payload : String) :
    ((∃ clause, compressClauses (quotedClause quote payload) = [clause] ∧
        clause.payload = payload) ↔ ∀ c ∈ payload.toList, isQuote c = false) ∧
    ∃ clause ∈ (compressClauses (quotedClause quote payload)).head?,
      clause.payload = String.ofList (payload.toList.takeWhile (!isQuote ·)) := by
  obtain ⟨first, others, found, upto, alone⟩ := exists_compressClauses_quoted quotes payload.toList
  rw [← toList_quotedClause] at found
  rw [compressClauses, found]
  refine ⟨⟨fun h => ?_, fun plain => ?_⟩, first, rfl, upto⟩
  · obtain ⟨clause, only, same⟩ := h
    obtain ⟨rfl, -⟩ := List.cons.inj only
    have kept : payload.toList.takeWhile (!isQuote ·) = payload.toList := by
      rw [← String.toList_ofList (l := payload.toList.takeWhile _), ← upto, same]
    simpa using List.takeWhile_eq_self_iff.1 kept
  · have kept : payload.toList.takeWhile (!isQuote ·) = payload.toList :=
      List.takeWhile_eq_self_iff.2 (by simpa using plain)
    refine ⟨first, by rw [alone plain], ?_⟩
    rw [upto, kept, String.ofList_toList]

/-- Between double quotes a payload with blanks and other marks is read as it is written. -/
theorem quoted_payload_plain :
    isQuote '"' = true ∧ (∀ c ∈ "as x, compress payload".toList, isQuote c = false) ∧
      ∃ clause, compressClauses (quotedClause '"' "as x, compress payload") = [clause] ∧
        clause.payload = "as x, compress payload" := by
  have quotes : isQuote '"' = true := by decide
  have plain : ∀ c ∈ "as x, compress payload".toList, isQuote c = false := by simp [isQuote]
  exact ⟨quotes, plain, (quoted_payload_iff quotes _).1.2 plain⟩

/-- An apostrophe ends a payload that a double quote has opened. -/
theorem quoted_payload_apostrophe :
    "it's" ≠ "" ∧ '"' ∉ "it's".toList ∧
      compressClauses (quotedClause '"' "it's") = [⟨"it", none, none⟩] ∧
      ¬ ∃ clause, compressClauses (quotedClause '"' "it's") = [clause] ∧
        clause.payload = "it's" := by
  have clauses : compressClauses (quotedClause '"' "it's") = [⟨"it", none, none⟩] := by
    decide +kernel
  refine ⟨by decide, by decide, clauses, fun h => ?_⟩
  obtain ⟨clause, only, same⟩ := h
  rw [clauses, List.cons.injEq] at only
  rw [← only.1] at same
  exact absurd same (by decide)

end PlainVerse.Command
