import PlainVerse.Proofs.Text.Normal

/-!
# What lowering leaves behind

No character of a lowered text would be lowered again, although one letter becomes two and the form
of a sigma depends on the text around it. For the table of shifts this means that no entry leads to
a code point that an entry covers. A character is blank before lowering just if it is afterwards, so
lowering neither uncovers blanks at the ends of a text nor makes new ones.
-/
namespace PlainVerse.Text

namespace CaseShift
variable (entry : CaseShift)

/-- What the entry lowers a code point to. -/
def image (c : Nat) : Nat := (c + entry.shift).toNat

def Covers (c : Nat) : Prop :=
  entry.first ≤ c ∧ c ≤ entry.last ∧ (c - entry.first) % entry.step = 0

/-- Whether no image of the entry is covered by a table. Images may fall between the code points of
an entry that covers every other one, if all of them do. -/
def settled : List CaseShift → Bool
  | [] => true
  | other :: rest =>
      Nat.blt (entry.image entry.last) other.first ||
        ((Nat.blt other.last (entry.image entry.first) ||
          decide (other.step = 2 ∧ (entry.step = 2 ∨ entry.first = entry.last) ∧
            (entry.image entry.first + other.first) % 2 = 1)) && settled rest)

/-- An interval of code points that holds neither a code point of the entry nor an image. -/
def Avoids (low high : Nat) : Prop :=
  (entry.last < low ∨ high < entry.first) ∧
    (entry.image entry.last < low ∨ high < entry.image entry.first)

instance (low high : Nat) : Decidable (entry.Avoids low high) := inferInstanceAs (Decidable (_ ∧ _))

/-- Images are code points of characters, which are neither lowered again nor blank. The dotted
capital I is not in the table, and it is no image either. -/
structure Proper : Prop where
  start : 0 ≤ entry.first + entry.shift
  valid : entry.image entry.last < 0xD800 ∨
    (0xDFFF < entry.image entry.first ∧ entry.image entry.last < 0x110000)
  settled : entry.settled caseShifts = true
  dotted : entry.Avoids 0x130 0x130
  blank : ∀ interval ∈ blankCodePoints.intervals, entry.Avoids interval.1 interval.2

instance : Decidable entry.Proper :=
  decidable_of_iff
    (0 ≤ entry.first + entry.shift ∧
      (entry.image entry.last < 0xD800 ∨
        (0xDFFF < entry.image entry.first ∧ entry.image entry.last < 0x110000)) ∧
      entry.settled caseShifts = true ∧ entry.Avoids 0x130 0x130 ∧
      ∀ interval ∈ blankCodePoints.intervals, entry.Avoids interval.1 interval.2)
    ⟨fun h => ⟨h.1, h.2.1, h.2.2.1, h.2.2.2.1, h.2.2.2.2⟩,
      fun h => ⟨h.start, h.valid, h.settled, h.dotted, h.blank⟩⟩

variable {entry} {c : Nat}

theorem Covers.image_bounds (h : entry.Covers c) (start : 0 ≤ entry.first + entry.shift) :
    entry.image entry.first ≤ entry.image c ∧ entry.image c ≤ entry.image entry.last ∧
      entry.image c = entry.image entry.first + (c - entry.first) := by
  unfold Covers at h
  unfold image
  omega

theorem Covers.ne_of_avoids {low high : Nat} (h : entry.Covers c)
    (start : 0 ≤ entry.first + entry.shift) (avoids : entry.Avoids low high) :
    ¬ (low ≤ c ∧ c ≤ high) ∧ ¬ (low ≤ entry.image c ∧ entry.image c ≤ high) := by
  have bounds := h.image_bounds start
  unfold Covers at h
  unfold Avoids at avoids
  omega

theorem lowerCodePoint_image {table : List CaseShift} (h : entry.Covers c)
    (start : 0 ≤ entry.first + entry.shift) (settled : entry.settled table = true) :
    lowerCodePoint (entry.image c) table = entry.image c := by
  have bounds := h.image_bounds start
  unfold Covers at h
  induction table with
  | nil => rfl
  | cons other rest ih =>
      rw [lowerCodePoint]
      by_cases before : entry.image c < other.first
      · rw [if_pos before]
      · rw [if_neg before]
        simp only [CaseShift.settled, Bool.or_eq_true, Bool.and_eq_true, Nat.blt_eq,
          decide_eq_true_eq] at settled
        rcases settled with passed | ⟨apart, later⟩
        · omega
        · have uncovered : ¬ (entry.image c ≤ other.last ∧
              (entry.image c - other.first) % other.step = 0) := by
            rcases apart with passed | ⟨double, alike, odd⟩
            · omega
            · rw [double]
              rcases alike with double' | single
              · rw [double'] at h
                omega
              · omega
          rw [if_neg uncovered, ih later]

end CaseShift

theorem proper_caseShifts : ∀ entry ∈ caseShifts, entry.Proper := by decide +kernel

/-- A code point is left alone, or it is covered by an entry. -/
theorem lowerCodePoint_cases (c : Nat) (table : List CaseShift) :
    lowerCodePoint c table = c ∨
      ∃ entry ∈ table, entry.Covers c ∧ lowerCodePoint c table = entry.image c := by
  induction table with
  | nil => exact Or.inl rfl
  | cons entry rest ih =>
      rw [lowerCodePoint]
      by_cases before : c < entry.first
      · rw [if_pos before]
        exact Or.inl rfl
      · rw [if_neg before]
        by_cases covered : c ≤ entry.last ∧ (c - entry.first) % entry.step = 0
        · rw [if_pos covered]
          exact Or.inr ⟨entry, List.mem_cons_self, ⟨by omega, covered⟩, rfl⟩
        · rw [if_neg covered]
          rcases ih with same | ⟨other, mem, facts⟩
          · exact Or.inl same
          · exact Or.inr ⟨other, List.mem_cons_of_mem _ mem, facts⟩

/-- A character is left alone, or it is covered by an entry and lowered to the image. -/
theorem lowerChar_cases (c : Char) :
    lowerChar c = c ∨
      ∃ entry ∈ caseShifts, entry.Covers c.toNat ∧ (lowerChar c).toNat = entry.image c.toNat := by
  rcases lowerCodePoint_cases c.toNat caseShifts with same | ⟨entry, mem, covers, found⟩
  · rw [lowerChar, same, Char.ofNat_toNat]
    exact Or.inl rfl
  · have proper := proper_caseShifts entry mem
    have bounds := covers.image_bounds proper.start
    have valid : (entry.image c.toNat).isValidChar := by
      have := proper.valid
      unfold Nat.isValidChar
      omega
    have letter : Char.ofNat (entry.image c.toNat) = Char.ofNatAux _ valid := dif_pos valid
    refine Or.inr ⟨entry, mem, covers, ?_⟩
    rw [lowerChar, found, letter]
    rfl

theorem isLower_of_lowerChar {c : Char} (sigma : c ≠ 'Σ') (dotted : c ≠ 'İ')
    (same : lowerChar c = c) : IsLower c := by
  rw [IsLower, lower, lowerAfter, same]
  · rfl
  · exact sigma
  · exact dotted

theorem isLower_lowerChar {c : Char} (sigma : c ≠ 'Σ') (dotted : c ≠ 'İ') :
    IsLower (lowerChar c) := by
  rcases lowerChar_cases c with same | ⟨entry, mem, covers, image⟩
  · rw [same]
    exact isLower_of_lowerChar sigma dotted same
  · have proper := proper_caseShifts entry mem
    have twice : lowerChar (lowerChar c) = lowerChar c := by
      rw [lowerChar, image, CaseShift.lowerCodePoint_image covers proper.start proper.settled,
        ← image, Char.ofNat_toNat]
    refine isLower_of_lowerChar ?_ ?_ twice
    · intro capital
      rw [capital] at twice
      exact absurd twice (by decide +kernel)
    · intro capital
      have outside := (covers.ne_of_avoids proper.start proper.dotted).2
      rw [← image, capital] at outside
      exact outside (by decide)

theorem isBlank_lowerChar (c : Char) : isBlank (lowerChar c) = isBlank c := by
  rcases lowerChar_cases c with same | ⟨entry, mem, covers, image⟩
  · rw [same]
  · have proper := proper_caseShifts entry mem
    have plain : ∀ n, (∀ interval ∈ blankCodePoints.intervals,
        ¬ (interval.1 ≤ n ∧ n ≤ interval.2)) → blankCodePoints.contains n = false := by
      intro n outside
      by_contra blank
      rw [Bool.not_eq_false] at blank
      obtain ⟨interval, inside, bounds⟩ := CodePoints.exists_interval blank
      exact outside interval inside bounds
    have apart : ∀ interval ∈ blankCodePoints.intervals, _ := fun interval inside =>
      covers.ne_of_avoids proper.start (proper.blank interval inside)
    rw [isBlank, isBlank, image, plain _ fun interval inside => (apart interval inside).1,
      plain _ fun interval inside => (apart interval inside).2]

/-- Every character becomes one character or more. These are lowered, and they are blank just if
the character is. -/
theorem lowerAfter_cons (before : List Char) (c : Char) (rest : List Char) :
    ∃ lowered, lowered ≠ [] ∧ (∀ d ∈ lowered, IsLower d ∧ isBlank d = isBlank c) ∧
      lowerAfter before (c :: rest) = lowered ++ lowerAfter (c :: before) rest := by
  by_cases sigma : c = 'Σ'
  · subst sigma
    refine ⟨[lowerSigma before rest], List.cons_ne_nil _ _, ?_, rfl⟩
    rw [List.forall_mem_singleton, lowerSigma]
    split <;> decide +kernel
  · by_cases dotted : c = 'İ'
    · subst dotted
      refine ⟨['i', '\u0307'], List.cons_ne_nil _ _, ?_, rfl⟩
      exact forall_mem_of_all (by decide +kernel)
    · refine ⟨[lowerChar c], List.cons_ne_nil _ _, ?_, ?_⟩
      · rw [List.forall_mem_singleton]
        exact ⟨isLower_lowerChar sigma dotted, isBlank_lowerChar c⟩
      · rw [lowerAfter]
        · rfl
        · exact sigma
        · exact dotted

theorem isLower_of_mem_lowerAfter {before text : List Char} :
    ∀ d ∈ lowerAfter before text, IsLower d := by
  induction text generalizing before with
  | nil => exact List.forall_mem_nil _
  | cons c rest ih =>
      obtain ⟨lowered, -, facts, split⟩ := lowerAfter_cons before c rest
      rw [split, List.forall_mem_append]
      exact ⟨fun d mem => (facts d mem).1, ih⟩

theorem stops_lowerAfter {before text : List Char} (stop : Stops isBlank text) :
    Stops isBlank (lowerAfter before text) := by
  cases text with
  | nil => exact stop
  | cons c rest =>
      obtain ⟨lowered, nonempty, facts, split⟩ := lowerAfter_cons before c rest
      have first : Stops isBlank lowered := by
        intro d head
        rw [(facts d (List.mem_of_mem_head? head)).2]
        exact stop c rfl
      rw [split]
      exact first.append_right nonempty _

theorem stops_reverse_lowerAfter {before text : List Char} (stop : Stops isBlank text.reverse) :
    Stops isBlank (lowerAfter before text).reverse := by
  induction text generalizing before with
  | nil => exact stop
  | cons c rest ih =>
      obtain ⟨lowered, nonempty, facts, split⟩ := lowerAfter_cons before c rest
      rw [List.reverse_cons] at stop
      rw [split, List.reverse_append]
      cases rest with
      | nil =>
          intro d head
          have mem : d ∈ lowered := List.mem_reverse.1 (List.mem_of_mem_head? head)
          rw [(facts d mem).2]
          exact stop c rfl
      | cons next more =>
          have later : Stops isBlank (next :: more).reverse := by
            intro d head
            exact stop d (List.mem_head?_append_of_mem_head? head)
          have kept : (lowerAfter (c :: before) (next :: more)).reverse ≠ [] := by
            obtain ⟨others, some, -, split'⟩ := lowerAfter_cons (c :: before) next more
            rw [split', ne_eq, List.reverse_eq_nil_iff]
            exact List.append_ne_nil_of_left_ne_nil some _
          exact (ih later).append_right kept _

theorem bare_lower {text : List Char} (bare : Bare isBlank text) : Bare isBlank (lower text) :=
  ⟨stops_lowerAfter bare.1, stops_reverse_lowerAfter bare.2⟩

end PlainVerse.Text
