import PlainVerse.Command.Compile
import Mathlib.Data.List.Basic

/-!
# What each pass does when it succeeds

Every pass is inverted once: from its success follow the checks it made and the exact context it
leaves behind. A compiled plan is then a chain of four contexts, which begins with the empty one.
-/
namespace PlainVerse.Command

open Plan (Entry)

theorem bind_eq_ok {ε α β : Type} {x : Except ε α} {f : α → Except ε β} {b : β} :
    x >>= f = .ok b ↔ ∃ a, x = .ok a ∧ f a = .ok b := by
  cases x with
  | error e =>
      constructor
      · intro h
        cases h
      · rintro ⟨a, h, -⟩
        cases h
  | ok a =>
      constructor
      · intro h
        exact ⟨a, rfl, h⟩
      · rintro ⟨a', h, hf⟩
        cases h
        exact hf

/-- The context after a compress clause whose payload and seed have passed their checks. -/
def compressed (options : Options) (context : Context) (clause : CompressClause)
    (seed : UInt64) : Context :=
  let named := resultName context.aliases clause.name
  ⟨named.2.define named.1, some named.1,
    context.entries ++ [compressEntry options clause.payload seed named.1]⟩

theorem compress_eq_ok {options : Options} {context next : Context} {clause : CompressClause} :
    compress options context clause = .ok next ↔
      clause.payload ≠ "" ∧
        ∃ seed, seedOf options clause.seed = .ok seed ∧
          next = compressed options context clause seed := by
  unfold compress
  by_cases empty : clause.payload = ""
  · simp [empty, throw, throwThe, MonadExceptOf.throw, bind, Except.bind]
  · rw [if_neg empty]
    change (seedOf options clause.seed >>= fun seed =>
      Except.ok (compressed options context clause seed)) = .ok next ↔ _
    rw [bind_eq_ok]
    simp [empty, eq_comm]

theorem compare_eq_ok {context next : Context} {text : String} :
    compare context text = .ok next ↔
      ∃ pair, compared context text = .ok pair ∧
        next = ⟨(context.aliases.fresh "cmp").2.define (context.aliases.fresh "cmp").1,
          context.lastCompress,
          context.entries ++ [compareEntry pair.1 pair.2 (context.aliases.fresh "cmp").1]⟩ := by
  unfold compare
  rw [bind_eq_ok]
  constructor
  · rintro ⟨pair, hpair, h⟩
    cases h
    exact ⟨pair, hpair, rfl⟩
  · rintro ⟨pair, hpair, rfl⟩
    exact ⟨pair, hpair, rfl⟩

theorem explain_eq_ok {context next : Context} {text : String} :
    explain context text = .ok next ↔
      ∃ target, explained context text = .ok target ∧
        next = context.addEntry (explainEntry target) := by
  unfold explain
  rw [bind_eq_ok]
  constructor
  · rintro ⟨target, htarget, h⟩
    cases h
    exact ⟨target, htarget, rfl⟩
  · rintro ⟨target, htarget, rfl⟩
    exact ⟨target, htarget, rfl⟩

/-- Compared are two defined names, or the last compress result with itself. -/
theorem compared_eq_ok {context : Context} {text : String} {pair : String × String}
    (h : compared context text = .ok pair) :
    (pair.1 ∈ context.aliases.defined ∧ pair.2 ∈ context.aliases.defined) ∨
      (context.lastCompress = some pair.1 ∧ pair.2 = pair.1) := by
  unfold compared at h
  cases found : comparePair? text with
  | some names =>
      obtain ⟨a, b⟩ := names
      simp only [found] at h
      by_cases ha : context.aliases.isDefined a
      · by_cases hb : context.aliases.isDefined b
        · simp only [ha, hb, Bool.not_true, Bool.false_eq_true, if_false] at h
          cases h
          exact Or.inl ⟨of_decide_eq_true ha, of_decide_eq_true hb⟩
        · simp [ha, hb] at h
      · simp [ha] at h
  | none =>
      simp only [found] at h
      cases recent : context.lastCompress with
      | some last =>
          simp only [recent] at h
          cases h
          exact Or.inr ⟨rfl, rfl⟩
      | none =>
          simp only [recent] at h
          cases h

/-- Explained is a defined name, or the last one that was defined, or nothing that is known. -/
theorem explained_eq_ok {context : Context} {text target : String}
    (h : explained context text = .ok target) :
    target ∈ context.aliases.defined ∨ target = context.aliases.last.getD "unknown" := by
  unfold explained at h
  split at h
  · split at h
    · rename_i known
      cases h
      exact Or.inl (by simpa [AliasTable.isDefined] using known)
    · cases h
  · cases h
    exact Or.inr rfl

/-- A pass either runs or, without its keyword, leaves the context as it is. -/
theorem passed_eq_ok {present : Bool} {run : Except CompileError Context}
    {context next : Context} :
    (if present then run else .ok context) = .ok next ↔
      (present = true ∧ run = .ok next) ∨ (present = false ∧ context = next) := by
  cases present <;> simp

theorem perform_attest (options : Options) (text : String) (context : Context) :
    perform options text context .attest =
      .ok (if Family.attest.isPresent text then attest context else context) :=
  rfl

/-- A plan is compiled by the four passes in turn. -/
theorem compile_eq_ok {options : Options} {text : String} {plan : Plan} :
    compile options text = .ok plan ↔
      normalize text ≠ "" ∧
        ∃ afterCompress afterCompare final,
          (compressClauses (normalize text)).foldlM (compress options) .empty =
            .ok afterCompress ∧
          perform options (normalize text) afterCompress .compare = .ok afterCompare ∧
          perform options (normalize text)
            (if Family.attest.isPresent (normalize text) then attest afterCompare
              else afterCompare) .explain = .ok final ∧
          plan = ⟨options.version, final.entries⟩ := by
  unfold compile
  by_cases empty : normalize text = ""
  · simp [empty, throw, throwThe, MonadExceptOf.throw, bind, Except.bind]
  · simp only [empty, if_false, Family.all, List.foldlM_cons, List.foldlM_nil, bind_eq_ok,
      perform_attest, Except.ok.injEq, exists_eq_left']
    constructor
    · rintro ⟨final, ⟨c₁, h₁, c₂, h₂, c₄, h₄, hpure⟩, hplan⟩
      obtain rfl : c₄ = final := Except.ok.inj hpure
      exact ⟨empty, c₁, c₂, c₄, h₁, h₂, h₄, (Except.ok.inj hplan).symm⟩
    · rintro ⟨-, c₁, c₂, final, h₁, h₂, h₄, rfl⟩
      exact ⟨final, ⟨c₁, h₁, c₂, h₂, final, h₄, rfl⟩, rfl⟩

end PlainVerse.Command
