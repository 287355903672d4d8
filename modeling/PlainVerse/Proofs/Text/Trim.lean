import PlainVerse.Proofs.Text.Search
import Mathlib.Data.List.DropRight

/-!
# What trimming takes away

Trimming takes away the blanks at both ends and nothing else: blanks that are added at an end do not
change the result, and a text with no blank at an end is left as it is.
-/
namespace PlainVerse.Text

variable {p : Char → Bool} {text blanks : List Char}

theorem dropWhile_eq_self (stop : Stops p text) : text.dropWhile p = text :=
  stop.dropWhile_eq (List.forall_mem_nil _)

theorem dropWhileEnd_eq_self (stop : Stops p text.reverse) : dropWhileEnd p text = text := by
  rw [dropWhileEnd, dropWhile_eq_self stop, List.reverse_reverse]

/-- No character with `p` stands at an end of a text. -/
def Bare (p : Char → Bool) (text : List Char) : Prop := Stops p text ∧ Stops p text.reverse

instance (p : Char → Bool) (text : List Char) : Decidable (Bare p text) :=
  inferInstanceAs (Decidable (_ ∧ _))

theorem Bare.dropEnds_eq (bare : Bare p text) : dropEnds p text = text := by
  rw [dropEnds, dropWhile_eq_self bare.1, dropWhileEnd_eq_self bare.2]

theorem bare_dropEnds (p : Char → Bool) (text : List Char) : Bare p (dropEnds p text) := by
  constructor
  · have kept : dropEnds p text <+: text.dropWhile p := List.rdropWhile_prefix p _
    intro c head
    refine stops_dropWhile p text c ?_
    rw [← kept.choose_spec]
    exact List.mem_head?_append_of_mem_head? head
  · rw [dropEnds, dropWhileEnd, List.reverse_reverse]
    exact stops_dropWhile p _

theorem dropEnds_sublist (p : Char → Bool) (text : List Char) :
    (dropEnds p text).Sublist text :=
  (List.rdropWhile_prefix p _).sublist.trans (List.dropWhile_sublist p)

theorem trim_eq_self (first : Stops isBlank text) (last : Stops isBlank text.reverse) :
    trim text = text :=
  Bare.dropEnds_eq ⟨first, last⟩

/-- The end of a text is the end of its last part. -/
theorem stops_reverse_append {last : List Char} (stop : Stops p last.reverse) (nonempty : last ≠ [])
    (text : List Char) : Stops p (text ++ last).reverse := by
  rw [List.reverse_append]
  exact stop.append_right (mt List.reverse_eq_nil_iff.1 nonempty) _

theorem dropWhileEnd_append_of_pos (inside : ∀ c ∈ blanks, p c = true) (text : List Char) :
    dropWhileEnd p (text ++ blanks) = dropWhileEnd p text := by
  rw [dropWhileEnd, dropWhileEnd, List.reverse_append,
    List.dropWhile_append_of_pos (by simpa using inside)]

/-- What does not end with `p` is kept, whatever is dropped behind it. -/
theorem dropWhileEnd_append (stop : Stops p text.reverse) (rest : List Char) :
    dropWhileEnd p (text ++ rest) = text ++ dropWhileEnd p rest := by
  rw [dropWhileEnd, dropWhileEnd, List.reverse_append, List.dropWhile_append]
  split
  · rename_i none
    rw [dropWhile_eq_self stop, List.isEmpty_iff.1 none, List.reverse_reverse, List.reverse_nil,
      List.append_nil]
  · rw [List.reverse_append, List.reverse_reverse]

theorem dropEnds_append_of_pos (inside : ∀ c ∈ blanks, p c = true) (text : List Char) :
    dropEnds p (text ++ blanks) = dropEnds p text := by
  rw [dropEnds, dropEnds, List.dropWhile_append]
  split
  · rename_i none
    rw [List.isEmpty_iff.1 none, List.dropWhile_eq_nil_iff.2 inside]
  · exact dropWhileEnd_append_of_pos inside _

theorem dropEnds_of_pos_append (inside : ∀ c ∈ blanks, p c = true) (text : List Char) :
    dropEnds p (blanks ++ text) = dropEnds p text := by
  rw [dropEnds, dropEnds, List.dropWhile_append_of_pos inside]

theorem trim_append_blanks (blank : ∀ c ∈ blanks, isBlank c = true) (text : List Char) :
    trim (text ++ blanks) = trim text :=
  dropEnds_append_of_pos blank text

theorem trim_blanks_append (blank : ∀ c ∈ blanks, isBlank c = true) (text : List Char) :
    trim (blanks ++ text) = trim text :=
  dropEnds_of_pos_append blank text

/-- Nothing is lost if the blanks at the end are dropped first. -/
theorem trim_dropWhileEnd (text : List Char) : trim (dropWhileEnd isBlank text) = trim text := by
  have split : text = dropWhileEnd isBlank text ++ (text.reverse.takeWhile isBlank).reverse := by
    rw [dropWhileEnd, ← List.reverse_append, List.takeWhile_append_dropWhile, List.reverse_reverse]
  have blank : ∀ c ∈ (text.reverse.takeWhile isBlank).reverse, isBlank c = true :=
    fun c mem => List.mem_takeWhile_imp (List.mem_reverse.1 mem)
  conv_rhs => rw [split]
  exact (trim_append_blanks blank _).symm

theorem trim_eq_nil_iff : trim text = [] ↔ ∀ c ∈ text, isBlank c = true := by
  constructor
  · intro none
    have kept : ∀ c ∈ text.dropWhile isBlank, isBlank c = true :=
      List.rdropWhile_eq_nil_iff.1 none
    rw [← List.takeWhile_append_dropWhile (p := isBlank) (l := text), List.forall_mem_append]
    exact ⟨fun c mem => List.mem_takeWhile_imp mem, kept⟩
  · intro blank
    exact trim_append_blanks blank []

theorem trim_ne_nil (stop : Stops isBlank text) (nonempty : text ≠ []) : trim text ≠ [] := by
  cases text with
  | nil => exact absurd rfl nonempty
  | cons c text =>
      intro none
      have blank := trim_eq_nil_iff.1 none c List.mem_cons_self
      rw [stop c rfl] at blank
      cases blank

end PlainVerse.Text
