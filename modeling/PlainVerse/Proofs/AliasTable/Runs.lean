import PlainVerse.Proofs.AliasTable.Fresh
import Mathlib.Data.List.Induction

/-!
# Runs of an alias table

A run is any sequence of calls that generate or define names. Names of one base differ because the
counter of the base only goes up. Names of different bases can be alike, as the second name of `r`
and the first one of `r2`, but not if each is defined as soon as it has been generated, because
what is defined stays defined and is never generated.
-/
namespace PlainVerse.AliasTable

inductive Call where
  | fresh (base : String)
  | define (name : String)
deriving DecidableEq, Repr

/-- A call with the name it has generated or defined. -/
inductive Event where
  | generated (base name : String)
  | defined (name : String)
deriving DecidableEq, Repr

def Call.event (table : AliasTable) : Call → Event
  | .fresh base => .generated base (table.fresh base).1
  | .define name => .defined name

def Call.next (table : AliasTable) : Call → AliasTable
  | .fresh base => (table.fresh base).2
  | .define name => table.define name

/-- The table after calls. -/
def after (table : AliasTable) (calls : List Call) : AliasTable := calls.foldl Call.next table

def events (table : AliasTable) : List Call → List Event
  | [] => []
  | call :: rest => call.event table :: events (call.next table) rest

def Call.definition? : Call → Option String
  | .fresh _ => none
  | .define name => some name

/-- The arguments of the definitions among calls, in their order. -/
def definitions (calls : List Call) : List String := calls.filterMap Call.definition?

def Event.name? : Event → Option String
  | .generated _ name => some name
  | .defined _ => none

def Event.nameFrom? (base : String) : Event → Option String
  | .generated other name => if other = base then some name else none
  | .defined _ => none

/-- The names that a run generates. -/
def generated (table : AliasTable) (calls : List Call) : List String :=
  (events table calls).filterMap Event.name?

/-- The names that a run generates from one base. -/
def generatedFrom (base : String) (table : AliasTable) (calls : List Call) : List String :=
  (events table calls).filterMap (Event.nameFrom? base)

/-- Every name is defined by the call right after the one that generates it. -/
def DefinedAtOnce : List Event → Prop
  | [] => True
  | .generated _ name :: rest => rest.head? = some (.defined name) ∧ DefinedAtOnce rest
  | .defined _ :: rest => DefinedAtOnce rest

instance decidableDefinedAtOnce : (events : List Event) → Decidable (DefinedAtOnce events)
  | [] => isTrue trivial
  | .generated _ _ :: rest =>
      have := decidableDefinedAtOnce rest
      inferInstanceAs (Decidable (_ ∧ _))
  | .defined _ :: rest => decidableDefinedAtOnce rest

section
variable (table : AliasTable)

theorem mem_defined_next {call : Call} {name : String} (h : name ∈ table.defined) :
    name ∈ (call.next table).defined := by
  cases call with
  | fresh base => exact h
  | define other => exact mem_define.2 (Or.inl h)

theorem counter_le_next (call : Call) (base : String) :
    table.counter base ≤ (call.next table).counter base := by
  cases call with
  | fresh other => exact counter_le_fresh table other base
  | define name => exact Nat.le_refl _

/-- A name that a call generates is not defined. -/
theorem not_mem_defined_of_event {call : Call} {name : String}
    (h : (call.event table).name? = some name) : name ∉ table.defined := by
  cases call with
  | fresh base =>
      obtain rfl : (table.fresh base).1 = name := Option.some.inj h
      exact fresh_not_mem_defined table base
  | define other => cases h

/-- A name that a call generates is the candidate that the counter of its base moves to. -/
theorem eq_candidate_of_event {call : Call} {base name : String}
    (h : (call.event table).nameFrom? base = some name) :
    name = candidate base ((call.next table).counter base) ∧
      table.counter base < (call.next table).counter base := by
  cases call with
  | fresh other =>
      rw [Call.event, Event.nameFrom?] at h
      split at h
      · rename_i same
        subst same
        obtain rfl : (table.fresh other).1 = name := Option.some.inj h
        rw [Call.next, fresh_counter_self]
        exact ⟨rfl, counter_lt_nextIndex table other⟩
      · cases h
  | define other => cases h

end

section
variable {table : AliasTable} {calls : List Call}

/-- Of the names from one base, all come after the counter. -/
theorem exists_index_of_mem_generatedFrom {base name : String}
    (mem : name ∈ generatedFrom base table calls) :
    ∃ index, table.counter base < index ∧ name = candidate base index := by
  induction calls generalizing table with
  | nil => cases mem
  | cons call rest ih =>
      obtain ⟨event, inside, held⟩ := List.mem_filterMap.1 mem
      rcases List.mem_cons.1 inside with rfl | later
      · obtain ⟨rfl, higher⟩ := eq_candidate_of_event table held
        exact ⟨_, higher, rfl⟩
      · obtain ⟨index, higher, rfl⟩ := ih (List.mem_filterMap.2 ⟨event, later, held⟩)
        exact ⟨index, Nat.lt_of_le_of_lt (counter_le_next table call base) higher, rfl⟩

theorem nodup_generatedFrom (base : String) : (generatedFrom base table calls).Nodup := by
  induction calls generalizing table with
  | nil => exact List.nodup_nil
  | cons call rest ih =>
      have later : (generatedFrom base (call.next table) rest).Nodup := ih
      rw [generatedFrom, events, List.filterMap_cons]
      split
      · exact later
      · rename_i name held
        refine List.nodup_cons.2 ⟨?_, later⟩
        intro again
        obtain ⟨here, -⟩ := eq_candidate_of_event table held
        obtain ⟨index, higher, there⟩ := exists_index_of_mem_generatedFrom again
        have same := candidate_injective (here.symm.trans there)
        exact Nat.ne_of_lt higher same

/-- What is defined when a run begins is never generated in it. -/
theorem not_mem_defined_of_mem_generated {name : String}
    (mem : name ∈ generated table calls) : name ∉ table.defined := by
  induction calls generalizing table with
  | nil => cases mem
  | cons call rest ih =>
      obtain ⟨event, inside, held⟩ := List.mem_filterMap.1 mem
      rcases List.mem_cons.1 inside with rfl | later
      · exact not_mem_defined_of_event table held
      · intro known
        exact ih (List.mem_filterMap.2 ⟨event, later, held⟩) (mem_defined_next table known)

/-- No name is generated twice: the next call defines it, and no call after that generates it. -/
theorem nodup_generated (atOnce : DefinedAtOnce (events table calls)) :
    (generated table calls).Nodup := by
  induction calls generalizing table with
  | nil => exact List.nodup_nil
  | cons call rest ih =>
      cases call with
      | define name => exact ih atOnce
      | fresh base =>
          obtain ⟨following, later⟩ := atOnce
          refine List.nodup_cons.2 ⟨?_, ih later⟩
          cases rest with
          | nil => cases following
          | cons second rest =>
              have second_eq : second = .define (table.fresh base).1 := by
                cases second with
                | fresh other => cases following
                | define name =>
                    have same : name = (table.fresh base).1 :=
                      Event.defined.inj (Option.some.inj following)
                    rw [same]
              subst second_eq
              intro (again : _ ∈ generated ((table.fresh base).2.define (table.fresh base).1) rest)
              exact not_mem_defined_of_mem_generated again (mem_define.2 (Or.inr rfl))

end

theorem after_concat (table : AliasTable) (calls : List Call) (call : Call) :
    table.after (calls ++ [call]) = call.next (table.after calls) := by
  rw [after, List.foldl_append]
  rfl

theorem definitions_concat_fresh (calls : List Call) (base : String) :
    definitions (calls ++ [.fresh base]) = definitions calls := by
  rw [definitions, List.filterMap_append]
  exact List.append_nil _

theorem definitions_concat_define (calls : List Call) (name : String) :
    definitions (calls ++ [.define name]) = definitions calls ++ [name] :=
  List.filterMap_append

theorem mem_defined_after {calls : List Call} {name : String} :
    name ∈ (empty.after calls).defined ↔ name ∈ definitions calls := by
  induction calls using List.reverseRecOn with
  | nil => rfl
  | append_singleton calls call ih =>
      rw [after_concat]
      cases call with
      | fresh base => rw [Call.next, fresh_defined, ih, definitions_concat_fresh]
      | define other =>
          rw [Call.next, mem_define, ih, definitions_concat_define, List.mem_append,
            List.mem_singleton]

/-- Names are listed in the order of their first definitions. -/
theorem pairwise_defined_after (calls : List Call) :
    (empty.after calls).defined.Pairwise fun first second =>
      (definitions calls).idxOf first < (definitions calls).idxOf second := by
  induction calls using List.reverseRecOn with
  | nil => exact List.Pairwise.nil
  | append_singleton calls call ih =>
      rw [after_concat]
      cases call with
      | fresh base =>
          rw [Call.next, fresh_defined, definitions_concat_fresh]
          exact ih
      | define name =>
          have kept : ∀ other ∈ (empty.after calls).defined,
              (definitions calls ++ [name]).idxOf other = (definitions calls).idxOf other := by
            intro other mem
            exact List.idxOf_append_of_mem (mem_defined_after.1 mem)
          have old : (empty.after calls).defined.Pairwise fun first second =>
              (definitions calls ++ [name]).idxOf first <
                (definitions calls ++ [name]).idxOf second := by
            refine ih.imp_of_mem ?_
            intro first second here there lower
            rw [kept first here, kept second there]
            exact lower
          rw [definitions_concat_define, Call.next, define]
          by_cases known : name ∈ (empty.after calls).defined
          · rw [if_pos known]
            exact old
          · rw [if_neg known]
            refine List.pairwise_append.2 ⟨old, List.pairwise_singleton _ _, ?_⟩
            intro first here second there
            obtain rfl := List.mem_singleton.1 there
            have absent : second ∉ definitions calls := fun mem => known (mem_defined_after.2 mem)
            rw [kept first here, List.idxOf_append_of_notMem absent]
            have lower := List.idxOf_lt_length_of_mem (mem_defined_after.1 here)
            omega

theorem last_after (calls : List Call) :
    (empty.after calls).last = (definitions calls).getLast? := by
  induction calls using List.reverseRecOn with
  | nil => rfl
  | append_singleton calls call ih =>
      rw [after_concat]
      cases call with
      | fresh base => rw [Call.next, fresh_last, ih, definitions_concat_fresh]
      | define name => rw [definitions_concat_define, List.getLast?_concat, Call.next, define]

/-- The laws of every run on a new table. A generated name is not defined when it is generated, and
generating it changes neither which names are defined nor which one was defined last. Names from
one base differ, and all names differ if each is defined at once. The table lists the names that
have been defined, each once and in the order of their first definitions, and knows the argument of
the latest definition. -/
theorem laws_of_run (calls : List Call) :
    (∀ before base rest, calls = before ++ .fresh base :: rest →
      (empty.after before).isDefined ((empty.after before).fresh base).1 = false ∧
      ((empty.after before).fresh base).2.defined = (empty.after before).defined ∧
      ((empty.after before).fresh base).2.last = (empty.after before).last) ∧
    (∀ base, (generatedFrom base empty calls).Nodup) ∧
    (DefinedAtOnce (events empty calls) → (generated empty calls).Nodup) ∧
    ((∀ name, name ∈ (empty.after calls).defined ↔ name ∈ definitions calls) ∧
      (empty.after calls).defined.Nodup ∧
      (empty.after calls).defined.Pairwise fun first second =>
        (definitions calls).idxOf first < (definitions calls).idxOf second) ∧
    (empty.after calls).last = (definitions calls).getLast? := by
  refine ⟨?_, nodup_generatedFrom, nodup_generated,
    ⟨fun name => mem_defined_after, ?_, pairwise_defined_after calls⟩, last_after calls⟩
  · intro before base rest _
    exact ⟨decide_eq_false (fresh_not_mem_defined _ base), fresh_defined _ base, fresh_last _ base⟩
  · refine (pairwise_defined_after calls).imp ?_
    rintro first _ lower rfl
    exact Nat.lt_irrefl _ lower

/-- The second name of `r` is the first one of `r2`, which has been defined at once. -/
def crossingCalls : List Call :=
  [.fresh "r", .define "r", .fresh "r2", .define "r2", .fresh "r", .define "r3", .define "r"]

theorem laws_of_crossingCalls :
    (DefinedAtOnce (events empty crossingCalls) ∧ (generated empty crossingCalls).Nodup ∧
      generated empty crossingCalls = ["r", "r2", "r3"]) ∧
    (crossingCalls = crossingCalls.take 4 ++ .fresh "r" :: crossingCalls.drop 5 ∧
      (empty.after (crossingCalls.take 4)).isDefined
        ((empty.after (crossingCalls.take 4)).fresh "r").1 = false) := by
  have atOnce : DefinedAtOnce (events empty crossingCalls) := by decide +kernel
  exact ⟨⟨atOnce, (laws_of_run crossingCalls).2.2.1 atOnce, by decide +kernel⟩, rfl,
    ((laws_of_run crossingCalls).1 _ "r" _ rfl).1⟩

end PlainVerse.AliasTable
