import PlainVerse.Proofs.Json.Lexing
import PlainVerse.Proofs.Poem.Spelling

/-!
# JSON values within a row

The compact text of a value can be written in a row. There is no line feed in it: there are none
between the parts, and those in strings are escaped. Neither end of it is a blank, whatever blanks
its strings hold, since a string stands between quotes.
-/
namespace PlainVerse.Json

open Text
open Poem (IsPhrase)

theorem hexDigit_ne_lineFeed : ∀ n < 16, hexDigit n ≠ '\n' := by decide

theorem lineFeed_not_mem_escapeChar (c : Char) : '\n' ∉ escapeChar c := by
  unfold escapeChar
  split
  case h_8 _ _ _ _ lineFeed _ _ =>
    split
    · have high := hexDigit_ne_lineFeed (c.toNat / 16) (by omega)
      have low := hexDigit_ne_lineFeed (c.toNat % 16) (by omega)
      simp [high.symm, low.symm]
    · simpa using Ne.symm lineFeed
  all_goals decide

theorem lineFeed_not_mem_quoted (text : String) : '\n' ∉ quoted text := by
  have inside : '\n' ∉ text.toList.flatMap escapeChar := by
    rw [List.mem_flatMap]
    rintro ⟨c, -, mem⟩
    exact lineFeed_not_mem_escapeChar c mem
  simp [quoted, inside]

/-- An integer is written with digits and a sign. -/
theorem digit_of_mem_int {n : Int} {c : Char} (mem : c ∈ (Number.int n).text) :
    c = '-' ∨ c.isDigit = true := by
  rw [Number.text] at mem
  split at mem
  · exact (List.mem_cons.1 mem).imp id isDigit_of_mem_decimal
  · exact .inr (isDigit_of_mem_decimal mem)

theorem lineFeed_not_mem_int (n : Int) : '\n' ∉ (Number.int n).text := by
  intro mem
  rcases digit_of_mem_int mem with sign | digit
  · exact absurd sign (by decide)
  · exact absurd digit (by decide)

/-- Between the brackets there is nothing but the parts and the commas. -/
theorem bracketed_compact (depth : Nat) (opening closing : Char) (parts : List (List Char)) :
    bracketed .compact depth opening closing parts =
      opening :: (commaSeparated parts ++ [closing]) := by
  cases parts with
  | nil => rfl
  | cons first rest => simp [bracketed, Layout.compact]

theorem lineFeed_not_mem_bracketed {opening closing : Char} {parts : List (List Char)}
    (opens : '\n' ≠ opening) (closes : '\n' ≠ closing) (each : ∀ part ∈ parts, '\n' ∉ part)
    (depth : Nat) : '\n' ∉ bracketed .compact depth opening closing parts := by
  have inside : '\n' ∉ commaSeparated parts := by
    cases parts with
    | nil => exact List.not_mem_nil
    | cons first rest =>
        rw [List.forall_mem_cons] at each
        have later : '\n' ∉ rest.flatMap (',' :: ·) := by
          rw [List.mem_flatMap]
          rintro ⟨part, mem, found⟩
          rcases List.mem_cons.1 found with comma | found
          · exact absurd comma (by decide)
          · exact each.2 part mem found
        simp [commaSeparated, each.1, later]
  simp [bracketed_compact, opens, closes, inside]

theorem lineFeed_not_mem_write {json : Json} (exactly : json.All NoFloat) (depth : Nat) :
    '\n' ∉ write .compact depth json := by
  induction json using Json.induct generalizing depth with
  | null => exact (by decide : '\n' ∉ "null".toList)
  | bool b =>
      cases b with
      | true => exact (by decide : '\n' ∉ "true".toList)
      | false => exact (by decide : '\n' ∉ "false".toList)
  | number n =>
      cases n with
      | int n => exact lineFeed_not_mem_int n
      | float x => exact absurd (exactly _ List.mem_cons_self) id
  | string s => exact lineFeed_not_mem_quoted s
  | array items ih =>
      rw [all_array] at exactly
      rw [write, writeItems_eq_map]
      apply lineFeed_not_mem_bracketed (by decide) (by decide)
      rw [List.forall_mem_map]
      exact fun item mem => ih item mem (exactly.2 item mem) _
  | object members ih =>
      rw [all_object] at exactly
      rw [write, writeMembers_eq_map]
      apply lineFeed_not_mem_bracketed (by decide) (by decide)
      rw [List.forall_mem_map]
      intro member mem
      have value := ih member mem (exactly.2 member mem) (depth + 1)
      simpa [lineFeed_not_mem_quoted, Layout.compact] using value

theorem isBlank_of_mem_int {n : Int} {c : Char} (mem : c ∈ (Number.int n).text) :
    isBlank c = false := by
  rcases digit_of_mem_int mem with rfl | digit
  · decide
  · exact of_isDigit (p := fun c => isBlank c = false) (by decide +kernel) digit

theorem int_ne_nil (n : Int) : (Number.int n).text ≠ [] := by
  rw [Number.text]
  split
  · exact List.cons_ne_nil _ _
  · exact Nat.toDigits_ne_nil

theorem bare_int (n : Int) : Bare isBlank (Number.int n).text := by
  refine ⟨fun c head => isBlank_of_mem_int (List.mem_of_mem_head? head), fun c last => ?_⟩
  exact isBlank_of_mem_int (List.mem_reverse.1 (List.mem_of_mem_head? last))

theorem bare_enclosed {opening closing : Char} (opens : isBlank opening = false)
    (closes : isBlank closing = false) (inside : List Char) :
    Bare isBlank (opening :: (inside ++ [closing])) :=
  ⟨stops_cons opens _,
    stops_reverse_append (stops_cons closes []) (List.cons_ne_nil _ _) (opening :: inside)⟩

theorem isPhrase_compact {json : Json} (exactly : json.All NoFloat) :
    IsPhrase json.compact.toList := by
  have row := lineFeed_not_mem_write exactly 0
  rw [compact, render, String.toList_ofList]
  cases json with
  | null => exact (by decide : IsPhrase "null".toList)
  | bool b =>
      cases b with
      | true => exact (by decide : IsPhrase "true".toList)
      | false => exact (by decide : IsPhrase "false".toList)
  | number n =>
      cases n with
      | int n => exact ⟨⟨bare_int n, row⟩, int_ne_nil n⟩
      | float x => exact absurd (exactly _ List.mem_cons_self) id
  | string s => exact ⟨⟨bare_enclosed (by decide) (by decide) _, row⟩, List.cons_ne_nil _ _⟩
  | array items =>
      rw [write, bracketed_compact] at row ⊢
      exact ⟨⟨bare_enclosed (by decide) (by decide) _, row⟩, List.cons_ne_nil _ _⟩
  | object members =>
      rw [write, bracketed_compact] at row ⊢
      exact ⟨⟨bare_enclosed (by decide) (by decide) _, row⟩, List.cons_ne_nil _ _⟩

end PlainVerse.Json
