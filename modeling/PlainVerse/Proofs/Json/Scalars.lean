import PlainVerse.Json.Scalar
import PlainVerse.Proofs.Json.Tree
import PlainVerse.Proofs.Text.Search

/-!
# Strings and integers come back

Every string is read back from its escaped form. An integer that fits into 64 bits, with or without
a sign, is read back from its digits, whatever follows them that is no part of a number.
-/
namespace PlainVerse.Json

open Text (Stops run? run?_append)

theorem hexValue?_hexDigit : ∀ n < 16, hexValue? (hexDigit n) = some n := by decide

theorem pieces?_letter {letter c : Char} (known : escape? letter = some c) (rest : List Char) :
    pieces? ('\\' :: letter :: rest) =
      (pieces? rest).map fun found => (.char c :: found.1, found.2) := by
  have other : letter ≠ 'u' := by
    rintro rfl
    cases known
  rw [pieces?, known]
  · cases pieces? rest <;> rfl
  · intro _ _ _ _ _ same
    exact absurd same other

/-- An escaped character is one piece. -/
theorem pieces?_escapeChar (c : Char) (rest : List Char) :
    pieces? (escapeChar c ++ rest) =
      (pieces? rest).map fun found => (pieceOf c :: found.1, found.2) := by
  unfold escapeChar
  split
  · exact pieces?_letter rfl rest
  · exact pieces?_letter rfl rest
  · exact pieces?_letter rfl rest
  · exact pieces?_letter rfl rest
  · exact pieces?_letter rfl rest
  · exact pieces?_letter rfl rest
  · exact pieces?_letter rfl rest
  · rename_i quote backslash b f n r t
    split
    · rename_i control
      have short : c ∉ ['\x08', '\x0c', '\n', '\r', '\t'] := by simpa using ⟨b, f, n, r, t⟩
      have unit : unit? '0' '0' (hexDigit (c.toNat / 16)) (hexDigit (c.toNat % 16)) =
          some c.toNat := by
        have high := hexValue?_hexDigit (c.toNat / 16) (by omega)
        have low := hexValue?_hexDigit (c.toNat % 16) (by omega)
        have zero : hexValue? '0' = some 0 := by decide
        simp only [unit?, high, low, zero, Option.bind_eq_bind, Option.bind_some]
        congr 1
        omega
      rw [pieceOf, if_pos ⟨control, short⟩]
      simp only [List.cons_append, List.nil_append]
      rw [pieces?, unit]
      cases pieces? rest <;> rfl
    · rename_i printable
      have plain : ¬ (c.toNat < 0x20 ∨ c = '\\') := by
        rintro (control | rfl)
        · exact printable control
        · exact backslash rfl
      rw [pieceOf, if_neg (fun h => printable h.1)]
      simp only [List.cons_append, List.nil_append]
      rw [pieces?, if_neg plain]
      · cases pieces? rest <;> rfl
      · exact quote
      · intro _ _ _ _ _ same
        exact absurd same backslash
      · intro _ _ same
        exact absurd same backslash

theorem pieces?_quoted (text rest : List Char) :
    pieces? (text.flatMap escapeChar ++ '"' :: rest) = some (text.map pieceOf, rest) := by
  induction text with
  | nil => rfl
  | cons c text ih =>
      rw [List.flatMap_cons, List.append_assoc, pieces?_escapeChar, ih]
      rfl

/-- No control character is a half of a surrogate pair. -/
theorem chars?_pieceOf (c : Char) (rest : List Piece) :
    chars? (pieceOf c :: rest) = (chars? rest).map (c :: ·) := by
  unfold pieceOf
  split
  · rename_i control
    have single : (isLeadUnit c.toNat || isTrailUnit c.toNat) = false := by
      simp only [isLeadUnit, isTrailUnit, Bool.or_eq_false_iff, Bool.and_eq_false_iff,
        decide_eq_false_iff_not]
      omega
    obtain ⟨lead, trail⟩ := Bool.or_eq_false_iff.1 single
    have same : Char.ofNat c.toNat = c := Char.ofNat_toNat c
    cases rest with
    | nil => simp [chars?, lead, trail, same]
    | cons piece rest => cases piece <;> simp [chars?, lead, trail, same]
  · rfl

theorem string?_piecesOf (text : String) : string? (piecesOf text) = some text := by
  have chars : ∀ text : List Char, chars? (text.map pieceOf) = some text := by
    intro text
    induction text with
    | nil => rfl
    | cons c rest ih => rw [List.map_cons, chars?_pieceOf, ih, Option.map_some]
  rw [string?, piecesOf, chars, Option.map_some, String.ofList_toList]

/-- What may go on with a number. -/
def isNumberPart (c : Char) : Bool := c.isDigit || c = '.' || c = 'e' || c = 'E'

theorem isDigit_of_mem_decimal {n : Nat} {c : Char} (mem : c ∈ Text.decimal n) :
    c.isDigit = true :=
  Nat.isDigit_of_mem_toDigits (by decide) (by decide) mem

/-- Only zero begins with a zero. -/
theorem decimal_ne_zero_cons {n : Nat} (positive : 0 < n) (rest : List Char) :
    Text.decimal n ≠ '0' :: rest := by
  induction n using Nat.strongRecOn generalizing rest with
  | _ n ih =>
  by_cases small : n < 10
  · have digits : ∀ n < 10, 0 < n → n.digitChar ≠ '0' := by decide
    rw [Text.decimal, Nat.toDigits_of_lt_base small]
    intro same
    exact digits n small positive (List.cons.inj same).1
  · have tens : 0 < n / 10 := Nat.div_pos (by omega) (by decide)
    rw [Text.decimal, Nat.toDigits_of_base_le (by decide) (by omega)]
    intro same
    rcases List.append_eq_cons_iff.1 same with ⟨empty, -⟩ | ⟨inner, first, -⟩
    · exact Nat.toDigits_ne_nil empty
    · exact ih (n / 10) (by omega) tens inner first

section
variable {rest : List Char} (stop : Stops isNumberPart rest)
include stop

theorem whole?_decimal (n : Nat) :
    whole? (Text.decimal n ++ rest) = some (Text.decimal n, rest) := by
  have noDigit : Stops Char.isDigit rest := by
    intro c head
    have other := stop c head
    simp_all [isNumberPart]
  have run : run? Char.isDigit (Text.decimal n ++ rest) = some (Text.decimal n, rest) :=
    run?_append Nat.toDigits_ne_nil (fun c mem => isDigit_of_mem_decimal mem) noDigit
  rw [whole?, run]
  split
  · rename_i second later _ found
    have digits := (Prod.mk.inj (Option.some.inj found)).1
    rcases Nat.eq_zero_or_pos n with rfl | positive
    · cases digits
    · exact absurd digits (decimal_ne_zero_cons positive _)
  · rfl

theorem fraction?_eq : fraction? rest = some ([], rest) := by
  unfold fraction?
  split
  · exact absurd (stop '.' rfl) (by decide)
  · rfl

theorem exponent?_eq : exponent? rest = some (none, rest) := by
  unfold exponent?
  split
  · rfl
  · rename_i mark tail
    have other := stop mark rfl
    rw [if_neg]
    rintro (rfl | rfl)
    · exact absurd other (by decide)
    · exact absurd other (by decide)

theorem numeral?_decimal (negative : Bool) (n : Nat) :
    numeral? negative (Text.decimal n ++ rest) =
      some (⟨negative, Text.decimal n, [], none⟩, rest) := by
  simp [numeral?, whole?_decimal stop, fraction?_eq stop, exponent?_eq stop]

end

theorem absorb_eq {significand : Nat} {digits : List Char}
    (small : Nat.ofDigitChars 10 digits significand < UInt64.size) :
    absorb significand digits = (Nat.ofDigitChars 10 digits significand, 0) := by
  induction digits generalizing significand with
  | nil => rfl
  | cons c rest ih =>
      rw [Nat.ofDigitChars_cons] at small ⊢
      have next : 10 * significand + (c.toNat - '0'.toNat) < UInt64.size := by
        refine Nat.lt_of_le_of_lt ?_ small
        rw [Nat.ofDigitChars_eq_ofDigitChars_zero]
        exact Nat.le_add_right_of_le (Nat.le_mul_of_pos_left _ (Nat.pow_pos (by decide)))
      rw [absorb, if_pos next, ih small]

theorem absorb_lt (digits : List Char) {significand : Nat} (small : significand < UInt64.size) :
    (absorb significand digits).1 < UInt64.size := by
  induction digits generalizing significand with
  | nil => exact small
  | cons c rest ih =>
      rw [absorb]
      split
      · rename_i next
        exact ih next
      · exact small

/-- The integers that are not floating-point: below `2 ^ 64`, and down to `-2 ^ 63`. -/
def Fits (n : Int) : Prop := -(UInt64.size / 2 : Nat) ≤ n ∧ n < UInt64.size

instance (n : Int) : Decidable (Fits n) := inferInstanceAs (Decidable (_ ∧ _))

theorem fits_ofNat {n : Nat} (small : n < UInt64.size) : Fits n := ⟨by omega, by omega⟩

theorem value?_numeral {n : Int} (fits : Fits n) :
    (Number.int n).numeral.value? = some (.int n) := by
  obtain ⟨low, high⟩ := fits
  have size : UInt64.size = 2 ^ 64 := rfl
  have back : Nat.ofDigitChars 10 (Text.decimal n.natAbs) 0 = n.natAbs :=
    Nat.ofDigitChars_ten_toDigits
  have taken : absorb 0 (Text.decimal n.natAbs) = (n.natAbs, 0) := by
    rw [absorb_eq (by omega), back]
  simp only [Number.numeral, Numeral.value?, taken, Number.ofMagnitude, and_self, if_true]
  by_cases negative : n < 0
  · have exactly : ¬ (n.natAbs = 0 ∨ UInt64.size / 2 < n.natAbs) := by omega
    have same : -(n.natAbs : Int) = n := by omega
    rw [decide_eq_true negative, if_neg (by decide), if_neg exactly, same]
  · have same : (n.natAbs : Int) = n := by omega
    rw [decide_eq_false negative, if_pos (by decide), same]

theorem fits_of_value? {numeral : Numeral} {n : Int} (h : numeral.value? = some (.int n)) :
    Fits n := by
  have small : (absorb 0 numeral.whole).1 < UInt64.size := absorb_lt numeral.whole (by decide)
  have size : UInt64.size = 2 ^ 64 := rfl
  simp only [Numeral.value?] at h
  split at h
  · have value := Option.some.inj h
    unfold Number.ofMagnitude at value
    split at value
    · cases value
      exact ⟨by omega, by omega⟩
    · split at value
      · cases value
      · cases value
        exact ⟨by omega, by omega⟩
  · obtain ⟨x, -, value⟩ := Option.map_eq_some_iff.1 h
    cases value

end PlainVerse.Json
