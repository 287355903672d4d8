import PlainVerse.Poem.Score
import PlainVerse.Proofs.Text.Search
import Mathlib.Data.Finset.Prod
import Mathlib.Algebra.BigOperators.Intervals

/-!
# What a score counts

The score of a text is found by searching the text for four patterns. It is shown to be a number
that speaks of no search: positions with a tab before a space, maximal runs of spaces and of line
feeds, and whether the text ends with a space. Capping loses nothing of it, also where the number
does not fit into a byte.
-/
namespace PlainVerse.Poem

open Text

/-- The characters from `start` up to `stop` are a run of `c` that neither goes further back nor
further on. -/
structure IsMaximalRun (c : Char) (text : List Char) (start stop : Nat) : Prop where
  inside : ∀ n, start ≤ n → n < stop → text[n]? = some c
  left : start = 0 ∨ text[start - 1]? ≠ some c
  right : text[stop]? ≠ some c

instance (c : Char) (text : List Char) (start stop : Nat) :
    Decidable (IsMaximalRun c text start stop) :=
  decidable_of_iff
    ((∀ n, start ≤ n → n < stop → text[n]? = some c) ∧
      (start = 0 ∨ text[start - 1]? ≠ some c) ∧ text[stop]? ≠ some c)
    ⟨fun h => ⟨h.1, h.2.1, h.2.2⟩, fun h => ⟨h.1, h.2, h.3⟩⟩

/-- The maximal runs of at least two `c`, each with its two ends. -/
def longRuns (c : Char) (text : List Char) : Finset (Nat × Nat) :=
  (Finset.range text.length ×ˢ Finset.range (text.length + 1)).filter fun run =>
    run.1 + 2 ≤ run.2 ∧ IsMaximalRun c text run.1 run.2

/-- The positions of tabs with a space after them. -/
def tabSpaces (text : List Char) : Finset Nat :=
  (Finset.range text.length).filter fun n => text[n]? = some '\t' ∧ text[n + 1]? = some ' '

theorem mem_longRuns {c : Char} {text : List Char} {start stop : Nat} :
    (start, stop) ∈ longRuns c text ↔ start + 2 ≤ stop ∧ IsMaximalRun c text start stop := by
  rw [longRuns, Finset.mem_filter, Finset.mem_product, Finset.mem_range, Finset.mem_range]
  constructor
  · exact And.right
  · intro h
    have last := h.2.inside (stop - 1) (by omega) (by omega)
    have bound := (List.getElem?_eq_some_iff.1 last).choose
    exact ⟨⟨by omega, by omega⟩, h⟩

/-- Behind a part of the text that does not end with `c`, or before something else than `c`, a run
is maximal if it is maximal alone. -/
theorem isMaximalRun_append {c : Char} {front rest : List Char} {start stop : Nat}
    (filled : start < stop) (apart : rest.head? = some c → front.getLast? ≠ some c) :
    IsMaximalRun c (front ++ rest) (front.length + start) (front.length + stop) ↔
      IsMaximalRun c rest start stop := by
  have shift : ∀ n, (front ++ rest)[front.length + n]? = rest[n]? := by
    intro n
    rw [List.getElem?_append_right (Nat.le_add_right _ _), Nat.add_sub_cancel_left]
  constructor
  · intro run
    refine ⟨fun n low high => ?_, ?_, ?_⟩
    · rw [← shift]
      exact run.inside (front.length + n) (by omega) (by omega)
    · cases start with
      | zero => exact Or.inl rfl
      | succ start =>
          refine Or.inr ?_
          rw [Nat.add_sub_cancel, ← shift]
          exact run.left.resolve_left (by omega)
    · rw [← shift]
      exact run.right
  · intro run
    refine ⟨fun n low high => ?_, ?_, ?_⟩
    · obtain ⟨k, rfl⟩ := Nat.exists_eq_add_of_le (Nat.le_of_add_right_le low)
      rw [shift]
      exact run.inside k (by omega) (by omega)
    · cases start with
      | zero =>
          have head : rest.head? = some c := by
            rw [List.head?_eq_getElem?]
            exact run.inside 0 (Nat.le_refl 0) filled
          have last := apart head
          rw [List.getLast?_eq_getElem?] at last
          by_cases none : front.length = 0
          · exact Or.inl none
          · refine Or.inr ?_
            rwa [Nat.add_zero, List.getElem?_append_left (by omega)]
      | succ start =>
          refine Or.inr ?_
          rw [← Nat.add_assoc, Nat.add_sub_cancel, shift]
          exact run.left.resolve_left (by omega)
    · rw [shift]
      exact run.right

/-- The long runs of a text are those that begin in its first part, and those of the rest. -/
theorem card_longRuns_append {c : Char} {front rest : List Char}
    (apart : rest.head? = some c → front.getLast? ≠ some c) :
    (longRuns c (front ++ rest)).card =
      ((longRuns c (front ++ rest)).filter (·.1 < front.length)).card + (longRuns c rest).card := by
  have moved : (longRuns c (front ++ rest)).filter (¬ ·.1 < front.length) =
      (longRuns c rest).image fun run => (front.length + run.1, front.length + run.2) := by
    ext ⟨start, stop⟩
    simp only [Finset.mem_filter, Finset.mem_image, Prod.exists, Prod.mk.injEq, mem_longRuns]
    constructor
    · rintro ⟨⟨long, run⟩, late⟩
      obtain ⟨start, rfl⟩ := Nat.exists_eq_add_of_le (Nat.le_of_not_lt late)
      obtain ⟨stop, rfl⟩ := Nat.exists_eq_add_of_le (show front.length ≤ stop by omega)
      exact ⟨start, stop, ⟨by omega, (isMaximalRun_append (by omega) apart).1 run⟩, rfl, rfl⟩
    · rintro ⟨start, stop, ⟨long, run⟩, rfl, rfl⟩
      exact ⟨⟨by omega, (isMaximalRun_append (by omega) apart).2 run⟩, by omega⟩
  have injective : Function.Injective fun run : Nat × Nat =>
      (front.length + run.1, front.length + run.2) := by
    intro first second same
    simp only [Prod.mk.injEq] at same
    exact Prod.ext (by omega) (by omega)
  rw [← Finset.card_image_of_injective (longRuns c rest) injective, ← moved,
    Finset.card_filter_add_card_filter_not]

/-- A character that does not begin a long run is passed over. -/
theorem card_longRuns_cons {c x : Char} {tail : List Char}
    (single : x = c → tail.head? ≠ some c) :
    (longRuns c (x :: tail)).card = (longRuns c tail).card := by
  have none : (longRuns c ([x] ++ tail)).filter (·.1 < [x].length) = ∅ := by
    rw [Finset.filter_eq_empty_iff]
    rintro ⟨start, stop⟩ mem early
    obtain ⟨long, run⟩ := mem_longRuns.1 mem
    have zero : start = 0 := Nat.lt_one_iff.1 early
    have first := run.inside 0 (by omega) (by omega)
    have second := run.inside 1 (by omega) (by omega)
    rw [List.singleton_append, List.getElem?_cons_succ, ← List.head?_eq_getElem?] at second
    exact single (Option.some.inj first) second
  have apart : tail.head? = some c → [x].getLast? ≠ some c :=
    fun next last => single (Option.some.inj last) next
  have count := card_longRuns_append apart
  rwa [none, Finset.card_empty, Nat.zero_add] at count

/-- A run of two or more at the start is one, whatever follows it. -/
theorem card_longRuns_replicate {c : Char} {n : Nat} (long : 2 ≤ n) {rest : List Char}
    (stop : rest.head? ≠ some c) :
    (longRuns c (List.replicate n c ++ rest)).card = 1 + (longRuns c rest).card := by
  have inside : ∀ k, k < n → (List.replicate n c ++ rest)[k]? = some c := by
    intro k small
    rw [List.getElem?_append_left (by rwa [List.length_replicate]),
      List.getElem?_replicate_of_lt small]
  have behind : (List.replicate n c ++ rest)[n]? ≠ some c := by
    rwa [List.getElem?_append_right (by rw [List.length_replicate]), List.length_replicate,
      Nat.sub_self, ← List.head?_eq_getElem?]
  have own : (longRuns c (List.replicate n c ++ rest)).filter
      (·.1 < (List.replicate n c).length) = {(0, n)} := by
    ext ⟨first, last⟩
    rw [Finset.mem_filter, Finset.mem_singleton, mem_longRuns, List.length_replicate, Prod.mk.injEq]
    constructor
    · rintro ⟨⟨wide, run⟩, early⟩
      have zero : first = 0 := by
        by_contra later
        exact run.left.resolve_left later (inside (first - 1) (by omega))
      have upto : ¬ n < last := fun beyond => behind (run.inside n (by omega) beyond)
      have reach : ¬ last < n := fun short => run.right (inside last short)
      exact ⟨zero, by omega⟩
    · rintro ⟨rfl, rfl⟩
      exact ⟨⟨by omega, fun k _ small => inside k small, Or.inl rfl, behind⟩, by omega⟩
  have apart : rest.head? = some c → (List.replicate n c).getLast? ≠ some c :=
    fun next => absurd next stop
  rw [card_longRuns_append apart, own, Finset.card_singleton]

namespace Pattern

theorem run_after?_eq_some {c : Char} {accept : List Char → List Char → Bool}
    {text rest : List Char} :
    (run c accept).after? text = some rest ↔
      ∃ n, 0 < n ∧ text = List.replicate n c ++ rest ∧ rest.head? ≠ some c ∧
        accept (List.replicate n c) rest = true := by
  have stops : Stops (· = c) rest ↔ rest.head? ≠ some c := by
    cases rest with
    | nil => simp [Stops]
    | cons x rest => simp [Stops]
  simp only [run, Option.bind_eq_some_iff, Prod.exists, run?_eq_some, Option.ite_none_right_eq_some,
    Option.some.injEq, decide_eq_true_eq]
  constructor
  · rintro ⟨found, _, ⟨rfl, nonempty, same, stop⟩, accepted, rfl⟩
    have whole := List.eq_replicate_of_mem same
    refine ⟨found.length, List.length_pos_iff.2 nonempty, ?_, stops.1 stop, ?_⟩
    · rw [← whole]
    · rwa [← whole]
  · rintro ⟨n, positive, rfl, stop, accepted⟩
    refine ⟨List.replicate n c, rest, ⟨rfl, ?_, ?_, stops.2 stop⟩, accepted, rfl⟩
    · exact mt (List.replicate_eq_nil_iff c).1 (by omega)
    · exact fun x mem => List.eq_of_mem_replicate mem

/-- A text begins with all the `c` it begins with. -/
theorem exists_replicate (c : Char) (text : List Char) :
    ∃ n rest, text = List.replicate n c ++ rest ∧ rest.head? ≠ some c := by
  induction text with
  | nil => exact ⟨0, [], rfl, by simp⟩
  | cons x tail ih =>
      by_cases same : x = c
      · obtain ⟨n, rest, rfl, stop⟩ := ih
        exact ⟨n + 1, rest, by rw [same, List.replicate_succ, List.cons_append], stop⟩
      · exact ⟨0, x :: tail, rfl, by simpa using same⟩

theorem hits_repeated (c : Char) (text : List Char) :
    (repeated c).hits text = (longRuns c text).card := by
  fun_induction hits (repeated c) text with
  | case1 => rfl
  | case2 x tail rest found ih =>
      obtain ⟨n, -, split, stop, long⟩ := run_after?_eq_some.1 found
      rw [List.length_replicate, decide_eq_true_eq] at long
      rw [ih, split, card_longRuns_replicate long stop]
  | case3 x tail none ih =>
      have single : x = c → tail.head? ≠ some c := by
        rintro rfl next
        obtain ⟨tail, rfl⟩ := List.head?_eq_some_iff.1 next
        obtain ⟨n, rest, rfl, stop⟩ := exists_replicate x tail
        have found : (repeated x).after? (List.replicate (n + 2) x ++ rest) = some rest :=
          run_after?_eq_some.2 ⟨n + 2, by omega, rfl, stop, by simp⟩
        rw [List.replicate_succ, List.replicate_succ, List.cons_append, List.cons_append,
          none] at found
        cases found
      rw [ih, card_longRuns_cons single]

theorem hits_finalSpaces (text : List Char) :
    finalSpaces.hits text = if text.getLast? = some ' ' then 1 else 0 := by
  fun_induction hits finalSpaces text with
  | case1 => rfl
  | case2 x tail rest found ih =>
      obtain ⟨n, positive, split, -, ended⟩ := run_after?_eq_some.1 found
      obtain rfl := List.isEmpty_iff.1 ended
      have last : (List.replicate n ' ').getLast? = some ' ' := by
        rw [List.getLast?_replicate, if_neg (by omega)]
      rw [split, List.append_nil, last, hits, if_pos rfl]
  | case3 x tail none ih =>
      rw [ih]
      cases tail with
      | nil =>
          have other : x ≠ ' ' := by
            rintro rfl
            have found : finalSpaces.after? [' '] = some [] :=
              run_after?_eq_some.2 ⟨1, by omega, rfl, by simp, rfl⟩
            rw [none] at found
            cases found
          simp [other]
      | cons y tail => rw [List.getLast?_cons_cons]

end Pattern

theorem card_tabSpaces_cons (x : Char) (tail : List Char) :
    (tabSpaces (x :: tail)).card =
      (tabSpaces tail).card + if x = '\t' ∧ tail.head? = some ' ' then 1 else 0 := by
  simp only [tabSpaces, Finset.card_filter, List.length_cons, Finset.sum_range_succ',
    List.getElem?_cons_succ, List.getElem?_cons_zero, Option.some.injEq, List.head?_eq_getElem?]

theorem Pattern.hits_tabSpace (text : List Char) : tabSpace.hits text = (tabSpaces text).card := by
  fun_induction hits tabSpace text with
  | case1 => rfl
  | case2 x tail rest found ih =>
      have split : x :: tail = '\t' :: ' ' :: rest := after?_eq_some.1 found
      have second : ¬ (' ' = '\t' ∧ rest.head? = some ' ') := fun h => absurd h.1 (by decide)
      rw [ih, split, card_tabSpaces_cons, card_tabSpaces_cons, if_neg second, if_pos ⟨rfl, rfl⟩,
        Nat.add_zero, Nat.add_comm]
  | case3 x tail none ih =>
      have other : ¬ (x = '\t' ∧ tail.head? = some ' ') := by
        rintro ⟨rfl, next⟩
        obtain ⟨rest, rfl⟩ := List.head?_eq_some_iff.1 next
        have found : tabSpace.after? ('\t' :: ' ' :: rest) = some rest := after?_append _ rest
        rw [none] at found
        cases found
      rw [ih, card_tabSpaces_cons, if_neg other, Nat.add_zero]

theorem toNat_min (first second : UInt8) :
    (min first second).toNat = min first.toNat second.toNat := by
  rw [Nat.min_def, show min first second = if first ≤ second then first else second from rfl]
  simp only [UInt8.le_iff_toNat_le]
  split <;> rfl

/-- Where a score does not fit into a byte it is above every cap. -/
theorem toNat_lineScore (text : List Char) (cap : UInt8) :
    (lineScore text cap).toNat = min cap.toNat (rawScore text) := by
  unfold lineScore
  split
  · rename_i small
    rw [toNat_min, UInt8.toNat_ofNat_of_lt' small, Nat.min_comm]
  · rename_i large
    have bound := cap.toNat_lt
    have size : UInt8.size = 256 := rfl
    omega

theorem rawScore_eq (text : List Char) :
    rawScore text = indentWidth text / 2 + (longRuns ' ' text).card + (tabSpaces text).card +
      (if text.getLast? = some ' ' then 1 else 0) + (longRuns '\n' text).card := by
  have hits : patternHits text = (longRuns ' ' text).card + ((tabSpaces text).card +
      ((if text.getLast? = some ' ' then 1 else 0) + ((longRuns '\n' text).card + 0))) := by
    rw [← Pattern.hits_repeated, ← Pattern.hits_tabSpace, ← Pattern.hits_finalSpaces,
      ← Pattern.hits_repeated]
    rfl
  rw [rawScore, hits]
  omega

/-- The score of a text is half of its indent, and one more for each maximal run of at least two
spaces or of at least two line feeds, for each tab before a space and for a space at the end. It is
the cap if this is more than the cap. -/
theorem lineScore_formula (text : List Char) (cap : UInt8) :
    (lineScore text cap).toNat = min cap.toNat
      (indentWidth text / 2 + (longRuns ' ' text).card + (tabSpaces text).card +
        (if text.getLast? = some ' ' then 1 else 0) + (longRuns '\n' text).card) := by
  rw [toNat_lineScore, rawScore_eq]

end PlainVerse.Poem
