import PlainVerse.Proofs.Json.Lexing

/-!
# Trees are read back from their tokens

The machine that builds trees is in the middle of a text when it meets a tree, with arrays and
objects open around it. Whatever is open, the tokens of a tree take it from the state in which a
value may come to the state in which that tree is complete.
-/
namespace PlainVerse.Json

namespace Written

/-- The first item of an array is read like any other. -/
theorem foldlM_firstItem (tree : Written) (stack : List Frame) (rest : List Token) :
    (tree.tokens ++ rest).foldlM step (.firstItem stack) =
      (tree.tokens ++ rest).foldlM step (.value (.items [] :: stack)) := by
  cases tree <;> rfl

section
variable {stack : List Frame} {rest : List Token}

/-- The items after the first, up to the closing bracket. -/
theorem foldlM_items {items : List Written}
    (each : ∀ item ∈ items, ∀ (stack : List Frame) (rest : List Token),
      (item.tokens ++ rest).foldlM step (.value stack) = rest.foldlM step (.complete item stack))
    (value : Written) (before : List Written) :
    ((items.map tokens).flatMap (.comma :: ·) ++ .closeArray :: rest).foldlM step
        (.complete value (.items before :: stack)) =
      rest.foldlM step (.complete (.array (before.reverse ++ value :: items)) stack) := by
  induction items generalizing value before with
  | nil =>
      rw [List.map_nil, List.flatMap_nil, List.nil_append, List.foldlM_cons,
        ← List.reverse_cons]
      rfl
  | cons item items ih =>
      obtain ⟨here, later⟩ := List.forall_mem_cons.1 each
      rw [List.map_cons, List.flatMap_cons, List.cons_append, List.cons_append,
        List.append_assoc, List.foldlM_cons]
      change (item.tokens ++ _).foldlM step (.value (.items (value :: before) :: stack)) = _
      rw [here, ih later, List.reverse_cons, List.append_assoc, List.singleton_append]

/-- The members after the first, up to the closing brace. -/
theorem foldlM_members {members : List (List Piece × Written)}
    (each : ∀ member ∈ members, ∀ (stack : List Frame) (rest : List Token),
      (member.2.tokens ++ rest).foldlM step (.value stack) =
        rest.foldlM step (.complete member.2 stack))
    (key : List Piece) (value : Written) (before : List (List Piece × Written)) :
    ((members.map fun member => .string member.1 :: .colon :: member.2.tokens).flatMap
        (.comma :: ·) ++ .closeObject :: rest).foldlM step
        (.complete value (.members before key :: stack)) =
      rest.foldlM step (.complete (.object (before.reverse ++ (key, value) :: members)) stack) := by
  induction members generalizing key value before with
  | nil =>
      rw [List.map_nil, List.flatMap_nil, List.nil_append, List.foldlM_cons,
        ← List.reverse_cons]
      rfl
  | cons member members ih =>
      obtain ⟨here, later⟩ := List.forall_mem_cons.1 each
      rw [List.map_cons, List.flatMap_cons, List.cons_append, List.cons_append, List.cons_append,
        List.cons_append, List.append_assoc, List.foldlM_cons]
      change (member.2.tokens ++ _).foldlM step
        (.value (.members ((key, value) :: before) member.1 :: stack)) = _
      rw [here, ih later, List.reverse_cons, List.append_assoc, List.singleton_append]

end

/-- The tokens of a tree complete it, inside whatever is open. -/
theorem foldlM_tokens (tree : Written) (stack : List Frame) (rest : List Token) :
    (tree.tokens ++ rest).foldlM step (.value stack) =
      rest.foldlM step (.complete tree stack) := by
  induction tree using Written.induct generalizing stack rest with
  | null => rfl
  | bool b => rfl
  | number n => rfl
  | string s => rfl
  | array items ih =>
      rw [tokens, itemTokens_eq_map]
      cases items with
      | nil => rfl
      | cons item items =>
          obtain ⟨here, later⟩ := List.forall_mem_cons.1 ih
          rw [List.map_cons, intercalate_cons, List.cons_append, List.foldlM_cons]
          simp only [List.singleton_append]
          change List.foldlM step (.firstItem stack) _ = _
          rw [List.append_assoc, List.append_assoc, foldlM_firstItem, here,
            List.singleton_append, foldlM_items later]
          rfl
  | object members ih =>
      rw [tokens, memberTokens_eq_map]
      cases members with
      | nil => rfl
      | cons member members =>
          obtain ⟨here, later⟩ := List.forall_mem_cons.1 ih
          rw [List.map_cons, intercalate_cons, List.cons_append, List.append_assoc,
            List.append_assoc]
          simp only [List.singleton_append]
          change (member.2.tokens ++ _).foldlM step (.value (.members [] member.1 :: stack)) = _
          rw [here, foldlM_members later]
          rfl

theorem ofTokens?_tokens (tree : Written) : ofTokens? tree.tokens = some tree := by
  have whole := foldlM_tokens tree [] []
  rw [List.append_nil] at whole
  rw [ofTokens?, whole]
  rfl

/-- A value without floating-point numbers is written so that its tree is read. -/
theorem read?_render {layout : Layout} (blank : layout.Blank) {json : Json}
    (exactly : json.All NoFloat) : read? (json.render layout) = some json.written := by
  rw [read?, tokens?_render blank exactly, Option.bind_some, ofTokens?_tokens]

end Written

end PlainVerse.Json
