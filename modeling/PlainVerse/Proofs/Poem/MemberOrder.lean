import Mathlib.Data.Nat.Init
import Mathlib.Logic.Relation
import PlainVerse.Poem.Json
import PlainVerse.Proofs.Json.Values

/-!
# The order of members

The kind of a statement stands in the same object as its parts, before or after them, and decides
which members are parts. What is read from a text depends on the value that is written there, and
for the value of a program neither the order of the members nor any member that is no part makes a
difference, at any depth. The members of a program may also stand in an array, without names.
-/
namespace PlainVerse.Poem

open Json (Members Reader Record Written Follows text? natural? list? map?)

namespace GeneDecl

def ofMembers? (members : Members) : Option GeneDecl := do
  let name ← members.required "name" text?
  let desc ← members.optional "desc" text?
  let cmd ← members.optional "cmd" text?
  let inputs ← members.withDefault "inputs" [] (list? text?)
  let outputs ← members.withDefault "outputs" [] (list? text?)
  some ⟨name, desc, cmd, inputs, outputs⟩

theorem ofRecord?_eq {record : Record} {members : Members} (means : record.Means members) :
    ofRecord? record = ofMembers? members := by
  have texts : Follows record.room (Reader.list Reader.text) (list? text?) :=
    .list fun room _ => Json.follows_text room
  simp only [ofRecord?, ofMembers?, means.required_eq (Json.follows_text _),
    means.optional_eq (Json.follows_text _), means.withDefault_eq texts]

end GeneDecl

namespace Statement

def kindOf? : Json → Option Kind
  | .string word => Kind.ofWord? word
  | value => (natural? UInt64.size value).bind fun index => Kind.all[index]?

/-- The statement of a kind with the given members, given what the list inside it means. -/
def partsOf? (inside : Json → Option (List Statement)) (members : Members) (line : Nat) :
    Kind → Option Statement
  | .name => return .name line (← members.required "name" text?)
  | .emit => do
      let topic ← members.required "topic" text?
      return .emit line topic (← members.optional "payload" text?)
  | .trigger => do
      let condition ← members.required "condition" text?
      return .trigger line condition (← members.required "children" inside)
  | .invoke => do
      let tool ← members.required "tool" text?
      let args ← members.withDefault "kwargs" .empty (map? text?)
      return .invoke line (.ofDotted tool) args
  | .remember => do
      let key ← members.required "key" text?
      return .remember line key (← members.required "value" text?)
  | .gene => return .gene line (← GeneDecl.ofMembers? members)
  | .text => do
      let words ← members.required "text" text?
      let points ← members.required "score" (natural? UInt8.size)
      return .text line words (UInt8.ofNat points)

def ofMembers? (inside : Json → Option (List Statement)) (members : Members) :
    Option Statement := do
  let line ← members.required "line" (natural? UInt64.size)
  let kind ← members.required "type" kindOf?
  partsOf? inside members line kind

/-- The statement that a value is read as. -/
def ofValue? : (room : Nat) → Json → Option Statement
  | room + 2, value => value.members?.bind (ofMembers? (list? (ofValue? room)))
  | _, value => value.members?.bind (ofMembers? fun _ => none)

theorem follows_readKind (room : Nat) : Follows room readKind kindOf? := by
  intro tree value h
  have index := Json.follows_natural room UInt64.size h
  cases Json.matches_of_asWritten? h with
  | string found => exact congrArg (Option.bind · Kind.ofWord?) found
  | _ => exact congrArg (Option.bind · fun index => Kind.all[index]?) index

theorem follows_readWith {room : Nat} {inside : Reader (List Statement)}
    {meaning : Json → Option (List Statement)}
    (follows : ∀ r, room = r + 1 → Follows r inside meaning) :
    Follows room (readWith inside) fun value => value.members?.bind (ofMembers? meaning) := by
  apply Record.follows_bind
  intro record members deeper means
  have texts : Follows record.room (Reader.map Reader.text) (map? text?) :=
    .map fun room _ => Json.follows_text room
  simp only [means.required_eq (Json.follows_text _),
    means.required_eq (Json.follows_natural _ _), means.required_eq (follows_readKind _),
    means.optional_eq (Json.follows_text _), means.withDefault_eq texts,
    means.required_eq (follows _ deeper), GeneDecl.ofRecord?_eq means]
  rfl

/-- A statement is told from its value. The object of a trigger and the list inside it take two
levels. -/
theorem follows_readParts (room : Nat) : Follows room readParts (ofValue? room) := by
  induction room using Nat.twoStepInduction with
  | zero => exact follows_readWith fun _ _ _ _ _ => rfl
  | one => exact follows_readWith fun _ _ _ _ _ => rfl
  | more room ih _ =>
      refine follows_readWith ?_
      intro r deeper
      refine .list ?_
      intro r' deeper'
      have same : r' = room := by omega
      subst same
      exact ih

theorem follows_read (room : Nat) : Follows room Statement.read (ofValue? room) := by
  intro tree value h
  rw [Statement.read, Json.ofWritten?_of_asWritten? h]
  exact follows_readParts room h

end Statement

namespace Program

def ofMembers? (inside : Json → Option (List Statement)) (members : Members) :
    Option Program := do
  let statements ← members.required "statements" inside
  let name ← members.optional "name" text?
  let source ← members.withDefault "source" "" text?
  some ⟨statements, name, source⟩

/-- The names of a program's own members, in the order in which they stand in an array. -/
def ownNames : List String := ["statements", "name", "source"]

/-- The program that a value is read as. -/
def ofValue? (room : Nat) (value : Json) : Option Program :=
  (value.membersAs? ownNames).bind (ofMembers? (list? (Statement.ofValue? room)))

theorem follows_read (room : Nat) : Follows (room + 2) Program.read (ofValue? room) := by
  apply Record.follows_bind_named
  intro record members deeper means
  have statements : Follows record.room (Reader.list Statement.read)
      (list? (Statement.ofValue? room)) := by
    refine .list ?_
    intro r deeper'
    have same : r = room := by omega
    subst same
    exact Statement.follows_read r
  simp only [ofMembers?, means.required_eq statements, means.optional_eq (Json.follows_text _),
    means.withDefault_eq (Json.follows_text _)]

/-- What is read from a text is told from its value. -/
theorem ofText?_eq_ofValue? {text : String} {value : Json} (h : Json.valueOf? text = some value) :
    ofText? text = ofValue? (Json.depthLimit - 2) value := by
  obtain ⟨tree, parsed, h⟩ := Option.bind_eq_some_iff.1 h
  rw [ofText?, Reader.run, parsed]
  exact follows_read (Json.depthLimit - 2) h

end Program

/-- The names of the members that hold the parts of a statement. -/
def Kind.parts : Kind → List String
  | .name => ["name"]
  | .emit => ["topic", "payload"]
  | .trigger => ["condition", "children"]
  | .invoke => ["tool", "kwargs"]
  | .remember => ["key", "value"]
  | .gene => ["name", "desc", "cmd", "inputs", "outputs"]
  | .text => ["text", "score"]

namespace Statement

/-- The names of a statement's own members: its line, its kind, and the parts of that kind. -/
def ownNames (members : Members) : List String :=
  ["line", "type"] ++
    ((members.filter (·.1 = "type")).filterMap fun member => kindOf? member.2).flatMap Kind.parts

theorem mem_ownNames {members : Members} {value : Json} {kind : Kind}
    (mem : ("type", value) ∈ members) (named : kindOf? value = some kind) {name : String}
    (part : name ∈ kind.parts) : name ∈ ownNames members := by
  have marked : ("type", value) ∈ members.filter (·.1 = "type") :=
    List.mem_filter.2 ⟨mem, decide_eq_true rfl⟩
  exact List.mem_append_right _
    (List.mem_flatMap.2 ⟨kind, List.mem_filterMap.2 ⟨_, marked, named⟩, part⟩)

/-- One edit of a statement, or of a statement at most `depth` triggers inside it. -/
def Edit : (depth : Nat) → Json → Json → Prop
  | 0 => Json.Edit ownNames "children" fun _ _ => False
  | depth + 1 => Json.Edit ownNames "children" (Edit depth)

theorem partsOf?_eq_of_agree {inside : Json → Option (List Statement)} {members others : Members}
    {kind : Kind} (agree : ∀ name ∈ kind.parts, "children" ≠ name → members.Agree others name)
    (children : kind = .trigger →
      members.required "children" inside = others.required "children" inside) (line : Nat) :
    partsOf? inside members line kind = partsOf? inside others line kind := by
  have required : ∀ {α : Type} (name : String) (meaning : Json → Option α),
      name ∈ kind.parts → "children" ≠ name →
        members.required name meaning = others.required name meaning :=
    fun name meaning part other => (agree name part other).required meaning
  have withDefault : ∀ {α : Type} (name : String) (default : α) (meaning : Json → Option α),
      name ∈ kind.parts → "children" ≠ name →
        members.withDefault name default meaning = others.withDefault name default meaning :=
    fun name default meaning part other => (agree name part other).withDefault default meaning
  cases kind with
  | trigger => simp (disch := decide) only [partsOf?, required, children]
  | gene =>
      simp (disch := decide) only [partsOf?, GeneDecl.ofMembers?, Members.optional, required,
        withDefault]
  | _ => simp (disch := decide) only [partsOf?, Members.optional, required, withDefault]

/-- An edit of its members leaves a statement as it is. Only the kind tells which of the other
members are parts, so it is settled first. -/
theorem ofMembers?_eq_of_edit {members others : Members} {step : Json → Json → Prop}
    (edit : Json.Edit ownNames "children" step (.object members) (.object others))
    {inside : Json → Option (List Statement)} (respects : Json.Respects step inside) :
    ofMembers? inside members = ofMembers? inside others := by
  have line : members.Agree others "line" :=
    edit.agree (List.mem_append_left _ (by decide)) (by decide)
  have type : members.Agree others "type" :=
    edit.agree (List.mem_append_left _ (by decide)) (by decide)
  rw [ofMembers?, ofMembers?, line.required, ← type.required]
  cases found : members.required "type" kindOf? with
  | none => rfl
  | some kind =>
      obtain ⟨value, mem, named⟩ := Members.exists_of_required found
      have own : ∀ name ∈ kind.parts, name ∈ ownNames members := fun name part =>
        mem_ownNames mem named part
      have parts : ∀ line,
          partsOf? inside members line kind = partsOf? inside others line kind := by
        refine partsOf?_eq_of_agree (fun name part other => edit.agree (own name part) other) ?_
        rintro rfl
        exact edit.required_items (own "children" (by decide)) respects
      exact congrArg (Option.bind _) (funext parts)

theorem ofValue?_eq_of_step {step : Json → Json → Prop} {first second : Json}
    (keeps : ∀ {first second}, step first second →
      ∀ room, ofValue? room first = ofValue? room second)
    (edit : Json.Edit ownNames "children" step first second) (room : Nat) :
    ofValue? room first = ofValue? room second := by
  obtain ⟨members, others, rfl, rfl⟩ := edit.exists_members
  unfold ofValue?
  split
  · exact ofMembers?_eq_of_edit edit (Json.respects_list fun inside => keeps inside _)
  · exact ofMembers?_eq_of_edit edit fun _ _ _ _ _ => rfl

/-- An edit at any depth leaves the statement as it is. -/
theorem ofValue?_eq_of_edit {depth : Nat} {first second : Json} (edit : Edit depth first second)
    (room : Nat) : ofValue? room first = ofValue? room second := by
  induction depth generalizing first second room with
  | zero => exact ofValue?_eq_of_step (fun impossible => absurd impossible id) edit room
  | succ depth ih => exact ofValue?_eq_of_step ih edit room

end Statement

namespace Program

/-- One edit of the members of a program, or of a statement at any depth in it. -/
def MemberEdit : Json → Json → Prop :=
  Json.Edit (fun _ => ownNames) "statements"
    fun first second => ∃ depth, Statement.Edit depth first second

/-- One edit of a program. Members that are given by position may also be given by name. -/
inductive Edit : Json → Json → Prop
  | member {first second : Json} (edit : MemberEdit first second) : Edit first second
  | position {items : List Json} (few : items.length ≤ ownNames.length) :
      Edit (.array items) (.object (ownNames.zip items))

theorem ofMembers?_eq_of_edit {members others : Members}
    (edit : MemberEdit (.object members) (.object others)) (room : Nat) :
    ofMembers? (list? (Statement.ofValue? room)) members =
      ofMembers? (list? (Statement.ofValue? room)) others := by
  have statements : members.required "statements" (list? (Statement.ofValue? room)) =
      others.required "statements" (list? (Statement.ofValue? room)) := by
    refine Json.Edit.required_items edit (by decide) (Json.respects_list ?_)
    intro first second inside
    obtain ⟨depth, inside⟩ := inside
    exact Statement.ofValue?_eq_of_edit inside room
  have name : members.Agree others "name" := Json.Edit.agree edit (by decide) (by decide)
  have source : members.Agree others "source" := Json.Edit.agree edit (by decide) (by decide)
  rw [ofMembers?, ofMembers?, statements, Members.optional, name.withDefault, source.withDefault]
  rfl

theorem ofValue?_eq_of_edit {first second : Json} (edit : Edit first second) (room : Nat) :
    ofValue? room first = ofValue? room second := by
  cases edit with
  | member edit =>
      obtain ⟨members, others, rfl, rfl⟩ := Json.Edit.exists_members edit
      exact ofMembers?_eq_of_edit edit room
  | @position items few =>
      rw [ofValue?, Json.membersAs?, if_pos few]
      rfl

theorem ofValue?_eq_of_edits {first second : Json} (edits : Relation.EqvGen Edit first second)
    (room : Nat) : ofValue? room first = ofValue? room second := by
  induction edits with
  | rel _ _ edit => exact ofValue?_eq_of_edit edit room
  | refl _ => rfl
  | symm _ _ _ ih => exact ih.symm
  | trans _ _ _ _ _ first second => exact first.trans second

/-- Texts whose values differ by edits only are read as the same program, or neither is read. -/
theorem ofText?_eq_of_edits {text other : String} {value edited : Json}
    (valid : Json.valueOf? text = some value) (otherValid : Json.valueOf? other = some edited)
    (edits : Relation.EqvGen Edit value edited) : ofText? text = ofText? other := by
  rw [ofText?_eq_ofValue? valid, ofText?_eq_ofValue? otherValid, ofValue?_eq_of_edits edits]

/-- A trigger with one statement inside it, its members in the usual order. -/
def dawn : Json :=
  .object [("line", .ofNat 1), ("type", .string "when"), ("condition", .string "dawn"),
    ("children", .array [.object [("line", .ofNat 2), ("type", .string "emit"),
      ("topic", .string "light")]])]

def tidy : Json := .object [("statements", .array [dawn])]

def positional : Json := .array [.array [dawn]]

/-- The same trigger with its parts before its kind, and with two members more. One of them has a
name that counts in a line of text. -/
def shuffled : Json :=
  .object [("mood", .null), ("statements", .array [.object [("children", .array [.object [
    ("topic", .string "light"), ("type", .string "emit"), ("line", .ofNat 2), ("score", .null)]]),
    ("condition", .string "dawn"), ("type", .string "when"), ("line", .ofNat 1)]])]

/-- First the statement inside the trigger is edited, then the trigger, then the program. -/
theorem ofText?_tidy_eq_shuffled :
    Json.valueOf? tidy.compact = some tidy ∧ Json.valueOf? shuffled.pretty = some shuffled ∧
    Json.valueOf? positional.compact = some positional ∧
    Relation.EqvGen Edit tidy shuffled ∧ Relation.EqvGen Edit positional shuffled ∧
    ofText? tidy.compact = some ⟨[.trigger 1 "dawn" [.emit 2 "light" none]], none, ""⟩ ∧
    ofText? tidy.compact = ofText? shuffled.pretty ∧
    ofText? positional.compact = ofText? shuffled.pretty := by
  have tidyTree : Written.read? tidy.compact = some tidy.written :=
    Written.read?_render Json.Layout.blank_compact (by decide)
  have shuffledTree : Written.read? shuffled.pretty = some shuffled.written :=
    Written.read?_render Json.Layout.blank_pretty (by decide)
  have positionalTree : Written.read? positional.compact = some positional.written :=
    Written.read?_render Json.Layout.blank_compact (by decide)
  have valid : Json.valueOf? tidy.compact = some tidy := by
    rw [Json.valueOf?, tidyTree]
    rfl
  have shuffledValid : Json.valueOf? shuffled.pretty = some shuffled := by
    rw [Json.valueOf?, shuffledTree]
    rfl
  have positionalValid : Json.valueOf? positional.compact = some positional := by
    rw [Json.valueOf?, positionalTree]
    rfl
  have found : ofText? tidy.compact =
      some ⟨[.trigger 1 "dawn" [.emit 2 "light" none]], none, ""⟩ := by
    rw [ofText?, Reader.run, tidyTree]
    rfl
  have statement : ∀ {first second : Json}, Statement.Edit 1 first second →
      Relation.EqvGen Edit (.object [("statements", .array [first])])
        (.object [("statements", .array [second])]) := fun edit =>
    .rel _ _ (.member (@Json.Edit.item _ _ _ [] [] [] [] _ _ ⟨1, edit⟩))
  have child : ∀ {first second : Json}, Statement.Edit 0 first second →
      Statement.Edit 1
        (.object [("line", .ofNat 1), ("type", .string "when"), ("condition", .string "dawn"),
          ("children", .array [first])])
        (.object [("line", .ofNat 1), ("type", .string "when"), ("condition", .string "dawn"),
          ("children", .array [second])]) := fun edit =>
    @Json.Edit.item _ _ _ [_, _, _] [] [] [] _ _ edit
  have edits : Relation.EqvGen Edit tidy shuffled :=
    .trans _ _ _ (statement (child (.insert (by decide : "score" ∉ _)))) <|
    .trans _ _ _ (statement (child (.reorder (List.reverse_perm _).symm))) <|
    .trans _ _ _ (statement (.reorder (List.reverse_perm _).symm)) <|
    .rel _ _ (.member (.insert (by decide : "mood" ∉ ownNames)))
  have named : Relation.EqvGen Edit positional shuffled :=
    .trans _ _ _ (.rel _ _ (.position (by decide))) edits
  exact ⟨valid, shuffledValid, positionalValid, edits, named, found,
    ofText?_eq_of_edits valid shuffledValid edits,
    ofText?_eq_of_edits positionalValid shuffledValid named⟩

end Program
end PlainVerse.Poem
