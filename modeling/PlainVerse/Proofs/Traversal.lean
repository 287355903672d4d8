import Mathlib.Data.List.Forall2

/-!
# Lists that are read part by part

A list is read if each of its parts is read, and the values stand in the order of the parts.
-/
namespace PlainVerse

variable {α β γ : Type} {f : α → Option β} {l : List α} {values : List β}

/-- The values of the parts, one by one. -/
theorem mapM_eq_some_iff :
    l.mapM f = some values ↔ List.Forall₂ (fun a b => f a = some b) l values := by
  induction l generalizing values with
  | nil =>
      rw [List.mapM_nil, List.forall₂_nil_left_iff]
      exact ⟨fun h => (Option.some.inj h).symm, fun h => congrArg some h.symm⟩
  | cons a rest ih =>
      rw [List.mapM_cons, List.forall₂_cons_left_iff, Option.bind_eq_bind,
        Option.bind_eq_some_iff]
      constructor
      · rintro ⟨b, here, h⟩
        obtain ⟨later, read, same⟩ := Option.bind_eq_some_iff.1 h
        exact ⟨b, later, here, ih.1 read, (Option.some.inj same).symm⟩
      · rintro ⟨b, later, here, read, rfl⟩
        exact ⟨b, here, Option.bind_eq_some_iff.2 ⟨later, ih.2 read, rfl⟩⟩

/-- Each value is that of some part. -/
theorem exists_of_mapM_eq_some (h : l.mapM f = some values) :
    ∀ b ∈ values, ∃ a ∈ l, f a = some b := by
  have each := mapM_eq_some_iff.1 h
  clear h
  induction each with
  | nil => exact List.forall_mem_nil _
  | cons here _ ih =>
      rw [List.forall_mem_cons]
      refine ⟨⟨_, List.mem_cons_self, here⟩, ?_⟩
      intro b mem
      obtain ⟨a, inside, read⟩ := ih b mem
      exact ⟨a, List.mem_cons_of_mem _ inside, read⟩

theorem mapM_map_eq_some {e : γ → α} {g : γ → β} {l : List γ}
    (h : ∀ c ∈ l, f (e c) = some (g c)) : (l.map e).mapM f = some (l.map g) := by
  rw [mapM_eq_some_iff, List.forall₂_map_left_iff, List.forall₂_map_right_iff, List.forall₂_same]
  exact h

theorem mapM_eq_of_forall₂ {R : α → β → Prop} {f : α → Option γ} {g : β → Option γ}
    (each : ∀ a b, R a b → f a = g b) {l : List α} {values : List β}
    (h : List.Forall₂ R l values) : l.mapM f = values.mapM g := by
  induction h with
  | nil => rfl
  | cons here _ ih => rw [List.mapM_cons, List.mapM_cons, each _ _ here, ih]

theorem mapM_map_value (f : α → Option β) (g : β → γ) (l : List α) :
    (l.mapM fun a => (f a).map g) = (l.mapM f).map (List.map g) := by
  induction l with
  | nil => rfl
  | cons a rest ih =>
      rw [List.mapM_cons, List.mapM_cons, ih]
      cases f a with
      | none => rfl
      | some b => cases rest.mapM f <;> rfl

theorem mapM_isSome : (l.mapM f).isSome ↔ ∀ a ∈ l, (f a).isSome := by
  induction l with
  | nil => simp
  | cons a rest ih =>
      rw [List.mapM_cons, List.forall_mem_cons, ← ih]
      cases f a with
      | none => simp
      | some b => cases rest.mapM f <;> simp

end PlainVerse
