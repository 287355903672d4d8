import PlainVerse.ToolPath
import PlainVerse.Proofs.Text.Splitting

/-!
# Tool paths and dotted texts

Every text is the dotted form of one path, whose segments are the pieces between its dots. Pieces
may be empty, so leading, trailing and doubled dots all count. A path that has a dot in a segment,
or no segment, has the dotted form of another path. Joining with a separator other than the dot is
the same as replacing the dots of the text.
-/
namespace PlainVerse.ToolPath

/-- The segments of a path are found again where it is written with dots. -/
structure IsPlain (path : ToolPath) : Prop where
  nonempty : path.segments ≠ []
  noDot : ∀ segment ∈ path.segments, '.' ∉ segment.toList

instance (path : ToolPath) : Decidable path.IsPlain :=
  have : Decidable (∀ segment ∈ path.segments, '.' ∉ segment.toList) := List.decidableBAll _ _
  decidable_of_iff (path.segments ≠ [] ∧ ∀ segment ∈ path.segments, '.' ∉ segment.toList)
    ⟨fun h => ⟨h.1, h.2⟩, fun h => ⟨h.nonempty, h.noDot⟩⟩

/-- A text with a separator in the place of every dot. -/
def replaceDots (separator text : String) : String :=
  String.ofList (text.toList.flatMap fun c => if c = '.' then separator.toList else [c])

theorem map_toList_segments (dotted : String) :
    (ofDotted dotted).segments.map String.toList = dotted.toList.splitOn '.' := by
  simp [ofDotted]

theorem isPlain_ofDotted (dotted : String) : (ofDotted dotted).IsPlain where
  nonempty := mt List.map_eq_nil_iff.1 (List.splitOn_ne_nil _ _)
  noDot := by
    intro segment mem
    obtain ⟨piece, inside, rfl⟩ := List.mem_map.1 mem
    rw [String.toList_ofList]
    exact not_mem_of_mem_splitOn inside

theorem join_ofDotted (dotted separator : String) :
    (ofDotted dotted).join separator = replaceDots separator dotted := by
  rw [join, map_toList_segments, intercalate_splitOn_eq_flatMap, replaceDots]

theorem dotted_ofDotted (dotted : String) : (ofDotted dotted).dotted = dotted := by
  rw [ToolPath.dotted, join, map_toList_segments]
  exact (congrArg String.ofList (List.intercalate_splitOn '.')).trans String.ofList_toList

theorem IsPlain.ofDotted_dotted {path : ToolPath} (plain : path.IsPlain) :
    ofDotted path.dotted = path := by
  have pieces : path.segments.map String.toList ≠ [] := mt List.map_eq_nil_iff.1 plain.nonempty
  have split : (path.dotted.toList.splitOn '.') = path.segments.map String.toList := by
    rw [dotted, join, String.toList_ofList]
    exact List.splitOn_intercalate '.' (List.forall_mem_map.2 plain.noDot) pieces
  rw [ofDotted, split, List.map_map]
  simp

theorem ofDotted_dotted_iff (path : ToolPath) : ofDotted path.dotted = path ↔ path.IsPlain := by
  constructor
  · intro same
    rw [← same]
    exact isPlain_ofDotted path.dotted
  · exact IsPlain.ofDotted_dotted

/-- A text is split into at least one segment, with no dot in any of them. The path is written as
the text again, and joined as the text with its dots replaced. A path is read back from its dotted
form if and only if it has a segment and no dot in any. -/
theorem dotted_correspondence :
    (∀ text separator : String,
      (ofDotted text).IsPlain ∧ (ofDotted text).dotted = text ∧
        (ofDotted text).join separator = replaceDots separator text) ∧
    ∀ path : ToolPath, ofDotted path.dotted = path ↔ path.IsPlain :=
  ⟨fun text separator =>
    ⟨isPlain_ofDotted text, dotted_ofDotted text, join_ofDotted text separator⟩,
    ofDotted_dotted_iff⟩

example : ofDotted ".a..b" = ⟨["", "a", "", "b"]⟩ ∧ ofDotted (dotted ⟨[]⟩) = ⟨[""]⟩ := by
  decide +kernel

end PlainVerse.ToolPath
