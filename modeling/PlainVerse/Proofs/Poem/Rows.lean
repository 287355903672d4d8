import PlainVerse.Poem.Line
import PlainVerse.Proofs.Text.Splitting

/-!
# The rows of a source

A source is cut into rows at its line feeds, and put together from rows again. The lines of a poem
are its rows with their numbers.
-/
namespace PlainVerse.Poem

/-- The rows between the line feeds of a source, as they stand. -/
def rows (source : String) : List (List Char) := source.toList.splitOn '\n'

/-- The source with the given rows. -/
def ofRows (rows : List (List Char)) : String := String.ofList (['\n'].intercalate rows)

/-- Rows as lines that are numbered from `start` on. -/
def numbered (start : Nat) (rows : List (List Char)) : List Line :=
  (rows.zipIdx start).map fun (raw, number) => ⟨number, raw⟩

theorem Line.ofSource_eq (source : String) : Line.ofSource source = numbered 1 (rows source) := rfl

theorem numbered_cons (start : Nat) (row : List Char) (rest : List (List Char)) :
    numbered start (row :: rest) = ⟨start, row⟩ :: numbered (start + 1) rest := rfl

theorem numbered_append (start : Nat) (first second : List (List Char)) :
    numbered start (first ++ second) =
      numbered start first ++ numbered (start + first.length) second := by
  simp [numbered, List.zipIdx_append]

theorem map_raw_numbered (start : Nat) (rows : List (List Char)) :
    (numbered start rows).map Line.raw = rows := by
  rw [numbered, List.map_map]
  exact List.zipIdx_map_fst start rows

theorem raw_mem_of_mem_numbered {start : Nat} {rows : List (List Char)} {line : Line}
    (mem : line ∈ numbered start rows) : line.raw ∈ rows := by
  rw [← map_raw_numbered start rows]
  exact List.mem_map_of_mem mem

/-- Lines of two sources side by side are their rows side by side. -/
theorem exists_rows_of_mem_zip {start : Nat} {first second : List (List Char)}
    {pair : Line × Line} (mem : pair ∈ (numbered start first).zip (numbered start second)) :
    pair.2.number = pair.1.number ∧ (pair.1.raw, pair.2.raw) ∈ first.zip second := by
  induction first generalizing start second with
  | nil => cases mem
  | cons row rest ih =>
      cases second with
      | nil => cases mem
      | cons row' rest' =>
          rcases List.mem_cons.1 mem with rfl | later
          · exact ⟨rfl, List.mem_cons_self⟩
          · exact (ih later).imp id (List.mem_cons_of_mem _)

theorem rows_ofRows {list : List (List Char)} (nonempty : list ≠ [])
    (single : ∀ row ∈ list, '\n' ∉ row) : rows (ofRows list) = list := by
  rw [rows, ofRows, String.toList_ofList]
  exact List.splitOn_intercalate '\n' single nonempty

theorem not_mem_of_mem_rows {source : String} {row : List Char} (mem : row ∈ rows source) :
    '\n' ∉ row :=
  not_mem_of_mem_splitOn mem

theorem rows_append (first second : String) :
    rows (first ++ "\n" ++ second) = rows first ++ rows second := by
  have joined : (first ++ "\n" ++ second).toList = first.toList ++ '\n' :: second.toList := by
    simp
  rw [rows, joined, List.splitOn_append_cons_self]
  rfl

theorem length_rows (source : String) : (rows source).length = source.toList.count '\n' + 1 := by
  rw [rows]
  induction source.toList with
  | nil => rfl
  | cons c rest ih =>
      rw [List.splitOn_cons_eq_if_modifyHead, List.count_cons]
      split <;> simp [ih]

end PlainVerse.Poem
