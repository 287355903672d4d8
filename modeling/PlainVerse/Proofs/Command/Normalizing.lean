import PlainVerse.Command.Compile
import PlainVerse.Proofs.Text.Lowering

/-!
# Commands in normal form

A command is in normal form if no blank stands at its ends and no character would be lowered. These
are just the commands that normalizing leaves alone, and it brings every command into this form.
Since nothing but the normal form is compiled, neither a second normalization nor blanks around a
command make a difference.
-/
namespace PlainVerse.Command

open Text

def IsNormal (text : String) : Prop :=
  Bare isBlank text.toList ∧ ∀ c ∈ text.toList, IsLower c

theorem isNormal_normalize (text : String) : IsNormal (normalize text) := by
  rw [IsNormal, normalize, String.toList_ofList]
  exact ⟨bare_lower (bare_dropEnds isBlank text.toList), isLower_of_mem_lowerAfter⟩

theorem IsNormal.normalize_eq {text : String} (normal : IsNormal text) : normalize text = text := by
  rw [normalize, trim, normal.1.dropEnds_eq, lower_eq_self normal.2, String.ofList_toList]

theorem normalize_eq_self_iff {text : String} : normalize text = text ↔ IsNormal text := by
  constructor
  · intro same
    rw [← same]
    exact isNormal_normalize text
  · exact IsNormal.normalize_eq

/-- Blanks around a text are trimmed before it is lowered, so they do not even change the form of a
sigma at its ends. -/
theorem normalize_surrounded {before after : String} (left : ∀ c ∈ before.toList, isBlank c = true)
    (right : ∀ c ∈ after.toList, isBlank c = true) (text : String) :
    normalize (before ++ text ++ after) = normalize text := by
  rw [normalize, String.toList_append, String.toList_append, trim_append_blanks right,
    trim_blanks_append left, normalize]

theorem compile_congr {text other : String} (same : normalize text = normalize other)
    (options : Options) : compile options text = compile options other := by
  rw [compile, compile, same]

/-- Normalizing brings every text into normal form and leaves texts in normal form alone, so it is
idempotent. A command can be replaced by its normal form, and blanks can be put around it, without
any effect on what it is compiled to. -/
theorem normalize_idempotent (text : String) :
    normalize (normalize text) = normalize text ∧
    (∀ other, normalize other = other ↔ IsNormal other) ∧
    ∀ options, compile options (normalize text) = compile options text ∧
      ∀ before after : String, (∀ c ∈ before.toList, isBlank c = true) →
        (∀ c ∈ after.toList, isBlank c = true) →
        compile options (before ++ text ++ after) = compile options text := by
  have twice : normalize (normalize text) = normalize text := (isNormal_normalize text).normalize_eq
  refine ⟨twice, fun other => normalize_eq_self_iff, fun options => ⟨?_, ?_⟩⟩
  · exact compile_congr twice options
  · intro before after left right
    exact compile_congr (normalize_surrounded left right text) options

/-- The payload ends with a sigma, and the name grows by a combining dot. -/
def capitalCommand : String := "COMPRESS payload 'ΟΔΟΣ' as İ"

theorem normalize_idempotent_capitalCommand :
    normalize capitalCommand = "compress payload 'οδος' as i\u0307" ∧
    normalize (normalize capitalCommand) = normalize capitalCommand ∧
    ((∀ c ∈ "\u3000\u0085".toList, isBlank c = true) ∧ (∀ c ∈ "\u00a0".toList, isBlank c = true) ∧
      compile {} ("\u3000\u0085" ++ capitalCommand ++ "\u00a0") = compile {} capitalCommand) := by
  have left : ∀ c ∈ "\u3000\u0085".toList, isBlank c = true := forall_mem_of_all (by decide)
  have right : ∀ c ∈ "\u00a0".toList, isBlank c = true := forall_mem_of_all (by decide)
  have facts := normalize_idempotent capitalCommand
  exact ⟨by decide +kernel, facts.1, left, right, (facts.2.2 {}).2 _ _ left right⟩

end PlainVerse.Command
