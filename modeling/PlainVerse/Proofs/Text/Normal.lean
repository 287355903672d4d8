import PlainVerse.Proofs.Text.Trim
import PlainVerse.Text.DecimalDigit
import PlainVerse.Text.LowerCase
import PlainVerse.Text.WordChar

/-!
# Texts in normal form

A text is left alone by lower-casing if each of its characters is, although the form of a sigma
depends on the text around it. The classes of characters that texts are made of are kept apart.
-/
namespace PlainVerse.Text

/-- A character that lower-casing does not change. -/
def IsLower (c : Char) : Prop := lower [c] = [c]

instance (c : Char) : Decidable (IsLower c) := inferInstanceAs (Decidable (lower [c] = [c]))

/-- The two letters with a rule of their own are capital. -/
theorem IsLower.lowerAfter_cons {c : Char} (h : IsLower c) (before rest : List Char) :
    lowerAfter before (c :: rest) = c :: lowerAfter (c :: before) rest := by
  have sigma : c ≠ 'Σ' := by
    rintro rfl
    exact absurd h (by decide +kernel)
  have dotted : c ≠ 'İ' := by
    rintro rfl
    exact absurd h (by decide +kernel)
  have step : ∀ before rest, lowerAfter before (c :: rest) =
      lowerChar c :: lowerAfter (c :: before) rest := by
    intro before rest
    rw [lowerAfter]
    · exact sigma
    · exact dotted
  have alone : lowerChar c = c := by
    rw [IsLower, lower, step] at h
    exact (List.cons.inj h).1
  rw [step, alone]

theorem lowerAfter_eq_self {text : List Char} (h : ∀ c ∈ text, IsLower c) (before : List Char) :
    lowerAfter before text = text := by
  induction text generalizing before with
  | nil => rfl
  | cons c rest ih =>
      have later : ∀ d ∈ rest, IsLower d := fun d mem => h d (List.mem_cons_of_mem _ mem)
      rw [(h c List.mem_cons_self).lowerAfter_cons, ih later]

theorem lower_eq_self {text : List Char} (h : ∀ c ∈ text, IsLower c) : lower text = text :=
  lowerAfter_eq_self h []

theorem CodePoints.exists_interval {set : CodePoints} {c : Nat} (h : set.contains c = true) :
    ∃ interval ∈ set.intervals, interval.1 ≤ c ∧ c ≤ interval.2 := by
  obtain ⟨intervals⟩ := set
  rw [contains] at h
  induction intervals with
  | nil => cases h
  | cons interval rest ih =>
      simp only [search] at h
      split at h
      · cases h
      · rename_i above
        split at h
        · rename_i inside
          exact ⟨interval, List.mem_cons_self, by omega, inside⟩
        · obtain ⟨other, mem, facts⟩ := ih h
          exact ⟨other, List.mem_cons_of_mem _ mem, facts⟩

/-- No blank character is a word character. -/
theorem isBlank_of_isWord {c : Char} (h : isWord c = true) : isBlank c = false := by
  have apart : ∀ interval ∈ blankCodePoints.intervals, ∀ n, interval.1 ≤ n → n ≤ interval.2 →
      wordCodePoints.contains n = false := by decide +kernel
  by_contra blank
  obtain ⟨interval, mem, low, high⟩ :=
    CodePoints.exists_interval (eq_true_of_ne_false blank : blankCodePoints.contains c.toNat = true)
  have none := apart interval mem c.toNat low high
  rw [isWord, none] at h
  cases h

/-- What is to be shown of a digit is shown of each of the ten. -/
theorem of_isDigit {p : Char → Prop} (digits : ∀ n, 48 ≤ n → n ≤ 57 → p (Char.ofNat n)) {c : Char}
    (h : c.isDigit = true) : p c := by
  have range : 48 ≤ c.toNat ∧ c.toNat ≤ 57 := Char.isDigit_iff_toNat.1 h
  rw [← Char.ofNat_toNat c]
  exact digits c.toNat range.1 range.2

/-- The digits of ASCII come first among the decimal digits. -/
theorem digitValue?_of_isDigit {c : Char} (h : c.isDigit = true) :
    digitValue? c = some (c.toNat - '0'.toNat) := by
  have range : 48 ≤ c.toNat ∧ c.toNat ≤ 57 := Char.isDigit_iff_toNat.1 h
  have first : zeroCodePoints = 0x30 :: zeroCodePoints.tail := rfl
  have inside : (0x30 ≤ c.toNat && c.toNat < 0x30 + 10) = true := by
    rw [Bool.and_eq_true, decide_eq_true_eq, decide_eq_true_eq]
    omega
  rw [digitValue?, first, List.find?_cons, inside]
  rfl

theorem isDecimalDigit_of_isDigit {c : Char} (h : c.isDigit = true) : isDecimalDigit c = true := by
  rw [isDecimalDigit, digitValue?_of_isDigit h, Option.isSome_some]

end PlainVerse.Text
