/-!
# Maps that remember the order of their keys

A map from strings to values whose keys stay in the order of their first insertion. Inserting a
key that is already present replaces its value and keeps its place.
-/
namespace PlainVerse

structure OrderedMap (α : Type) where
  entries : List (String × α)
  distinct : (entries.map Prod.fst).Nodup

namespace OrderedMap
variable {α : Type}

def put (key : String) (value : α) : List (String × α) → List (String × α)
  | [] => [(key, value)]
  | entry :: rest =>
      if entry.1 = key then (key, value) :: rest else entry :: put key value rest

/-- A new key goes to the end; the keys are unchanged otherwise. -/
theorem keys_put (key : String) (value : α) (entries : List (String × α)) :
    (put key value entries).map Prod.fst =
      if key ∈ entries.map Prod.fst then entries.map Prod.fst
      else entries.map Prod.fst ++ [key] := by
  induction entries with
  | nil => rfl
  | cons entry rest ih =>
      by_cases h : entry.1 = key
      · simp [put, h]
      · have h' : ¬ key = entry.1 := fun e => h e.symm
        simp only [put, h, if_false, List.map_cons, ih, List.mem_cons, h', false_or]
        split <;> simp

theorem distinct_put (key : String) (value : α) {entries : List (String × α)}
    (h : (entries.map Prod.fst).Nodup) : ((put key value entries).map Prod.fst).Nodup := by
  rw [keys_put]
  split
  · exact h
  · rename_i absent
    rw [List.nodup_append]
    refine ⟨h, by simp, ?_⟩
    intro a ha b hb
    rw [List.mem_singleton] at hb
    exact fun e => absent (hb ▸ e ▸ ha)

def empty : OrderedMap α := ⟨[], List.nodup_nil⟩

def insert (map : OrderedMap α) (key : String) (value : α) : OrderedMap α :=
  ⟨put key value map.entries, distinct_put key value map.distinct⟩

/-- Inserts the entries from left to right. -/
def ofList (entries : List (String × α)) : OrderedMap α :=
  entries.foldl (fun map entry => map.insert entry.1 entry.2) empty

def keys (map : OrderedMap α) : List String := map.entries.map Prod.fst

def get? (map : OrderedMap α) (key : String) : Option α := map.entries.lookup key

theorem keys_insert (map : OrderedMap α) (key : String) (value : α) :
    (map.insert key value).keys = if key ∈ map.keys then map.keys else map.keys ++ [key] :=
  keys_put key value map.entries

theorem lookup_put (key other : String) (value : α) (entries : List (String × α)) :
    (put key value entries).lookup other =
      if other = key then some value else entries.lookup other := by
  induction entries with
  | nil =>
      by_cases h : other = key
      · simp [put, h]
      · have test : (other == key) = false := beq_eq_false_iff_ne.2 h
        simp [put, List.lookup_cons, test, h]
  | cons entry rest ih =>
      obtain ⟨name, old⟩ := entry
      by_cases h : other = name
      · subst h
        by_cases h' : other = key <;> simp [put, h']
      · have test : (other == name) = false := beq_eq_false_iff_ne.2 h
        by_cases h' : name = key
        · subst h'
          simp [put, List.lookup_cons, test, h]
        · simp [put, List.lookup_cons, test, h', ih]

/-- Where keys are distinct, each entry is found under its key. -/
theorem lookup_eq_some_iff_mem {κ : Type} [BEq κ] [LawfulBEq κ] {entries : List (κ × α)}
    (distinct : (entries.map Prod.fst).Nodup) {key : κ} {value : α} :
    entries.lookup key = some value ↔ (key, value) ∈ entries := by
  rw [List.lookup_eq_some_iff]
  constructor
  · rintro ⟨before, after, rfl, -⟩
    exact List.mem_append_right _ List.mem_cons_self
  · intro mem
    obtain ⟨before, after, rfl⟩ := List.append_of_mem mem
    refine ⟨before, after, rfl, fun entry earlier => bne_iff_ne.2 fun same => ?_⟩
    rw [List.map_append, List.nodup_append] at distinct
    exact distinct.2.2 entry.1 (List.mem_map_of_mem earlier) key List.mem_cons_self same.symm

theorem get?_eq_some_iff_mem (map : OrderedMap α) {key : String} {value : α} :
    map.get? key = some value ↔ (key, value) ∈ map.entries :=
  lookup_eq_some_iff_mem map.distinct

/-- An insertion is seen at its own key only. -/
theorem get?_insert (map : OrderedMap α) (key other : String) (value : α) :
    (map.insert key value).get? other = if other = key then some value else map.get? other :=
  lookup_put key other value map.entries

end OrderedMap
end PlainVerse
