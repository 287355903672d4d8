import PlainVerse.Text.Decimal

/-!
# Numbers in decimal

A number is known from its digits, and digits that can be read are known by their value: they are
ASCII digits, and the value fits into 64 bits.
-/
namespace PlainVerse.Text

theorem decimal_injective {m n : Nat} (h : decimal m = decimal n) : m = n := by
  have values := congrArg (fun digits => Nat.ofDigitChars 10 digits 0) h
  simpa [decimal] using values

/-- ASCII digits and the number they stand for. -/
def Denotes (digits : List Char) (n : Nat) : Prop :=
  digits ≠ [] ∧ (∀ c ∈ digits, c.isDigit = true) ∧ Nat.ofDigitChars 10 digits 0 = n

theorem decimal?_eq_some {bound n : Nat} {digits : List Char} :
    decimal? bound digits = some n ↔ Denotes digits n ∧ n < bound := by
  unfold decimal? Denotes
  by_cases number : digits ≠ [] ∧ digits.all Char.isDigit = true
  · have digit : ∀ c ∈ digits, c.isDigit = true := List.all_eq_true.1 number.2
    rw [if_pos number]
    by_cases small : Nat.ofDigitChars 10 digits 0 < bound
    · rw [if_pos small, Option.some.injEq]
      constructor
      · rintro rfl
        exact ⟨⟨number.1, digit, rfl⟩, small⟩
      · exact fun h => h.1.2.2
    · rw [if_neg small]
      exact iff_of_false (by simp) fun h => small (h.1.2.2 ▸ h.2)
  · rw [if_neg number]
    exact iff_of_false (by simp) fun h => number ⟨h.1.1, List.all_eq_true.2 h.1.2.1⟩

/-- ASCII digits whose value fits into 64 bits. -/
def IsWord64 (digits : List Char) : Prop :=
  digits ≠ [] ∧ (∀ c ∈ digits, c.isDigit = true) ∧ Nat.ofDigitChars 10 digits 0 < UInt64.size

theorem word64?_eq_some {digits : List Char} {value : UInt64} :
    word64? digits = some value ↔
      IsWord64 digits ∧ UInt64.ofNat (Nat.ofDigitChars 10 digits 0) = value := by
  rw [word64?, Option.map_eq_some_iff]
  constructor
  · rintro ⟨n, found, rfl⟩
    obtain ⟨⟨nonempty, digit, rfl⟩, small⟩ := decimal?_eq_some.1 found
    exact ⟨⟨nonempty, digit, small⟩, rfl⟩
  · rintro ⟨⟨nonempty, digit, small⟩, rfl⟩
    exact ⟨_, decimal?_eq_some.2 ⟨⟨nonempty, digit, rfl⟩, small⟩, rfl⟩

/-- The value of digits that can be read is the number they stand for, in any type of numbers below
the bound. -/
theorem decimal?_map_eq_some {α : Type} {bound : Nat} {ofNat : Nat → α} {toNat : α → Nat}
    (left : ∀ value, ofNat (toNat value) = value) (right : ∀ n < bound, toNat (ofNat n) = n)
    (small : ∀ value, toNat value < bound) {digits : List Char} {value : α} :
    (decimal? bound digits).map ofNat = some value ↔ Denotes digits (toNat value) := by
  rw [Option.map_eq_some_iff]
  constructor
  · rintro ⟨n, found, rfl⟩
    have facts := decimal?_eq_some.1 found
    rw [right n facts.2]
    exact facts.1
  · intro denotes
    exact ⟨toNat value, decimal?_eq_some.2 ⟨denotes, small value⟩, left value⟩

theorem word64?_eq_some_iff_denotes {digits : List Char} {value : UInt64} :
    word64? digits = some value ↔ Denotes digits value.toNat :=
  decimal?_map_eq_some (fun _ => UInt64.ofNat_toNat) (fun _ => UInt64.toNat_ofNat_of_lt')
    UInt64.toNat_lt

theorem word64?_eq_none {digits : List Char} : word64? digits = none ↔ ¬ IsWord64 digits := by
  rw [Option.eq_none_iff_forall_ne_some]
  constructor
  · intro none number
    exact none _ (word64?_eq_some.2 ⟨number, rfl⟩)
  · intro wrong value found
    exact wrong (word64?_eq_some.1 found).1

end PlainVerse.Text
