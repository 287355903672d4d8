import PlainVerse.Poem.Json
import PlainVerse.Proofs.Json.Records
import PlainVerse.Proofs.Poem.Reading
import PlainVerse.Proofs.ToolPath.Dotted

/-!
# Programs are read back

A statement is an object in which its line and its kind stand beside its parts. Statements are read
back if their lines fit into 64 bits and their tool paths can be split at the dots again. A list or
map that a text leaves out is written as an empty one, so a program can be written one level deeper
than the text it was read from, but no deeper.
-/
namespace PlainVerse

open Json (Reader Record Written NoFloat InRange ReadsBack)

namespace Poem
namespace Statement

/-- Induction on a statement: only triggers have statements inside them. -/
theorem induct {motive : Statement → Prop}
    (trigger : ∀ line condition children, (∀ child ∈ children, motive child) →
      motive (.trigger line condition children))
    (alone : ∀ statement, statement.kind ≠ .trigger → motive statement)
    (statement : Statement) : motive statement :=
  @Statement.rec motive (fun children => ∀ child ∈ children, motive child)
    (fun _ _ => alone _ (by simp [kind])) (fun _ _ _ => alone _ (by simp [kind])) trigger
    (fun _ _ _ => alone _ (by simp [kind])) (fun _ _ _ => alone _ (by simp [kind]))
    (fun _ _ => alone _ (by simp [kind])) (fun _ _ _ => alone _ (by simp [kind]))
    (List.forall_mem_nil _) (fun _ _ first later => List.forall_mem_cons.2 ⟨first, later⟩) statement

theorem forall_nodesOf {p : Statement → Prop} {statements : List Statement} :
    (∀ node ∈ nodesOf statements, p node) ↔
      ∀ statement ∈ statements, ∀ node ∈ statement.nodes, p node := by
  induction statements with
  | nil => simp [nodesOf]
  | cons statement rest ih =>
      rw [nodesOf, List.forall_mem_append, ih, List.forall_mem_cons]

def tool? : Statement → Option ToolPath
  | .invoke _ tool _ => some tool
  | _ => none

/-- The number of the line fits into 64 bits, and the tool path can be written as one text. -/
structure IsPlain (statement : Statement) : Prop where
  line : statement.line < UInt64.size
  tool : ∀ tool ∈ statement.tool?, tool.IsPlain

instance (statement : Statement) : Decidable statement.IsPlain :=
  decidable_of_iff (statement.line < UInt64.size ∧ ∀ tool ∈ statement.tool?, tool.IsPlain)
    ⟨fun h => ⟨h.1, h.2⟩, fun h => ⟨h.line, h.tool⟩⟩

theorem isPlain_of_tool? {statement : Statement} (line : statement.line < UInt64.size)
    (none : statement.tool? = none) : statement.IsPlain :=
  ⟨line, by simp [none]⟩

theorem listToJson_eq_map (statements : List Statement) :
    listToJson statements = statements.map toJson := by
  induction statements with
  | nil => rfl
  | cons statement rest ih => rw [listToJson, ih, List.map_cons]

end Statement

/-- An integer of 64 bits, or no number at all. -/
def IsExact (json : Json) : Prop := json.NoFloat ∧ json.InRange

theorem isExact_string (s : String) : (Json.string s).All IsExact :=
  List.forall_mem_singleton.2 ⟨trivial, trivial⟩

theorem isExact_ofNat {n : Nat} (small : n < UInt64.size) : (Json.ofNat n).All IsExact :=
  List.forall_mem_singleton.2 ⟨trivial, Json.fits_ofNat small⟩

theorem isExact_strings (texts : List String) : (Json.strings texts).All IsExact := by
  rw [Json.strings, Json.all_array, List.forall_mem_map]
  exact ⟨⟨trivial, trivial⟩, fun text _ => isExact_string text⟩

theorem isExact_textMap (args : OrderedMap String) : (Json.textMap args).All IsExact :=
  Json.all_textMap (fun _ => ⟨trivial, trivial⟩) (fun _ => ⟨trivial, trivial⟩) args

theorem forall_member? {p : Json → Prop} (string : ∀ s, p (.string s)) (name : String)
    (value : Option String) : ∀ member ∈ member? name value, p member.2 := by
  cases value with
  | none => exact List.forall_mem_nil _
  | some text => exact List.forall_mem_singleton.2 (string text)

theorem GeneDecl.forall_members {p : Json → Prop} (string : ∀ s, p (.string s))
    (strings : ∀ texts, p (Json.strings texts)) (decl : GeneDecl) :
    ∀ member ∈ decl.members, p member.2 := by
  simp only [GeneDecl.members, List.forall_mem_append, List.forall_mem_cons]
  exact ⟨⟨⟨⟨string _, List.forall_mem_nil _⟩, forall_member? string _ _⟩,
    forall_member? string _ _⟩, strings _, strings _, List.forall_mem_nil _⟩

theorem depth_strings (texts : List String) : (Json.strings texts).depth ≤ 1 := by
  rw [Json.strings, Json.depth_array_le, List.forall_mem_map]
  exact fun text _ => Nat.le_refl 0

theorem list_strings (texts : List String) (room : Nat) :
    Reader.list Reader.text (room + 1) (Json.strings texts).written = some texts :=
  Reader.list_written (fun text _ room _ => Reader.text_written room text)
    ((depth_strings texts).trans (Nat.le_add_left 1 room))

namespace Statement

/-- What a statement holds beside its line and its kind. -/
def parts : Statement → List (String × Json)
  | .name _ given => [("name", .string given)]
  | .emit _ topic payload => ("topic", .string topic) :: member? "payload" payload
  | .trigger _ condition children =>
      [("condition", .string condition), ("children", .array (children.map toJson))]
  | .invoke _ tool args => [("tool", .string tool.dotted), ("kwargs", Json.textMap args)]
  | .remember _ key value => [("key", .string key), ("value", .string value)]
  | .gene _ decl => decl.members
  | .text _ words points => [("text", .string words), ("score", .ofNat points.toNat)]

def members (statement : Statement) : List (String × Json) :=
  ("line", .ofNat statement.line) :: ("type", .string statement.kind.word) :: statement.parts

theorem toJson_eq_object (statement : Statement) :
    statement.toJson = .object statement.members := by
  cases statement with
  | trigger line condition children => rw [toJson, listToJson_eq_map]; rfl
  | _ => rfl

theorem forall_parts {statement : Statement} (h : statement.kind ≠ .trigger) {p : Json → Prop}
    (string : ∀ s, p (.string s)) (strings : ∀ texts, p (Json.strings texts))
    (map : ∀ args, p (Json.textMap args)) (score : ∀ points : UInt8, p (.ofNat points.toNat)) :
    ∀ member ∈ statement.parts, p member.2 := by
  cases statement with
  | trigger => exact absurd rfl h
  | name => simp [parts, string]
  | emit _ topic payload =>
      exact List.forall_mem_cons.2 ⟨string topic, forall_member? string _ payload⟩
  | invoke => simp [parts, string, map]
  | remember => simp [parts, string]
  | gene _ decl => exact decl.forall_members string strings
  | text => simp [parts, string, score]

theorem isExact_toJson {statement : Statement}
    (small : ∀ node ∈ statement.nodes, node.line < UInt64.size) :
    statement.toJson.All IsExact := by
  induction statement using Statement.induct with
  | trigger line condition children ih =>
      rw [nodes, List.forall_mem_cons, forall_nodesOf] at small
      rw [toJson_eq_object, members, Json.all_object, List.forall_mem_cons, List.forall_mem_cons,
        parts, List.forall_mem_cons, List.forall_mem_singleton, Json.all_array, List.forall_mem_map]
      exact ⟨⟨trivial, trivial⟩, isExact_ofNat small.1, isExact_string _, isExact_string _,
        ⟨trivial, trivial⟩, fun child mem => ih child mem (small.2 child mem)⟩
  | alone statement leaf =>
      rw [nodes_of_kind leaf, List.forall_mem_singleton] at small
      rw [toJson_eq_object, members, Json.all_object, List.forall_mem_cons, List.forall_mem_cons]
      refine ⟨⟨trivial, trivial⟩, isExact_ofNat small, isExact_string _, ?_⟩
      refine forall_parts leaf isExact_string isExact_strings isExact_textMap fun points => ?_
      exact isExact_ofNat (Nat.lt_trans points.toNat_lt (by decide))

theorem depth_toJson_le {statement : Statement} {n : Nat} :
    statement.toJson.depth ≤ n + 1 ↔ ∀ member ∈ statement.parts, member.2.depth ≤ n := by
  rw [toJson_eq_object, Json.depth_object_le, members, List.forall_mem_cons, List.forall_mem_cons]
  exact ⟨fun h => h.2.2, fun h => ⟨Nat.zero_le n, Nat.zero_le n, h⟩⟩

theorem depth_pos (statement : Statement) : 0 < statement.toJson.depth := by
  rw [toJson_eq_object]
  exact Nat.succ_pos _

theorem depth_trigger_le {line : Nat} {condition : String} {children : List Statement} {n : Nat} :
    (trigger line condition children).toJson.depth ≤ n + 2 ↔
      ∀ child ∈ children, child.toJson.depth ≤ n := by
  rw [depth_toJson_le, parts, List.forall_mem_cons, List.forall_mem_singleton, Json.depth_array_le,
    List.forall_mem_map]
  exact and_iff_right (Nat.zero_le _)

/-- A trigger is an object with a list in it. -/
theorem exists_room_of_trigger {line : Nat} {condition : String} {children : List Statement}
    {room : Nat} (shallow : (trigger line condition children).toJson.depth ≤ room) :
    ∃ n, room = n + 2 := by
  cases room with
  | zero => exact absurd shallow (Nat.not_le_of_lt (depth_pos _))
  | succ room =>
      rw [depth_toJson_le, parts, List.forall_mem_cons, List.forall_mem_singleton] at shallow
      have list : 0 < (Json.array (children.map toJson)).depth := Nat.succ_pos _
      have inner : 0 < room := list.trans_le shallow.2
      exact ⟨room - 1, by omega⟩

/-- Collections are as deep as it gets without a trigger. -/
theorem depth_of_kind {statement : Statement} (leaf : statement.kind ≠ .trigger) :
    statement.toJson.depth ≤ 2 := by
  rw [depth_toJson_le]
  exact forall_parts leaf (p := (·.depth ≤ 1)) (fun _ => Nat.zero_le 1) depth_strings
    (fun args => Nat.le_of_eq (Json.depth_textMap args)) fun _ => Nat.zero_le 1

theorem distinct_members (statement : Statement) : (statement.members.map Prod.fst).Nodup := by
  cases statement with
  | emit _ topic payload => cases payload <;> simp [members, parts, member?]
  | gene _ decl =>
      obtain ⟨name, desc, cmd, inputs, outputs⟩ := decl
      cases desc <;> cases cmd <;> simp [members, parts, GeneDecl.members, member?]
  | _ => simp [members, parts]

theorem readKind_word (room : Nat) (kind : Kind) :
    readKind room (Json.string kind.word).written = some kind := by
  rw [Json.written, readKind, Json.string?_piecesOf]
  cases kind <;> decide

section
variable (statement : Statement) (room : Nat)

theorem required_line (small : statement.line < UInt64.size) :
    (Record.ofMembers statement.members room).required "line" (Reader.natural UInt64.size) =
      some statement.line := by
  rw [Record.required_ofMembers statement.distinct_members rfl,
    Reader.natural_written small (Nat.le_refl _)]

theorem required_type :
    (Record.ofMembers statement.members room).required "type" readKind = some statement.kind := by
  rw [Record.required_ofMembers statement.distinct_members rfl, readKind_word]

end

theorem lookup_gene (line : Nat) (decl : GeneDecl) :
    (gene line decl).members.lookup "desc" = decl.desc.map Json.string ∧
    (gene line decl).members.lookup "cmd" = decl.cmd.map Json.string ∧
    (gene line decl).members.lookup "inputs" = some (Json.strings decl.inputs) ∧
    (gene line decl).members.lookup "outputs" = some (Json.strings decl.outputs) := by
  obtain ⟨name, desc, cmd, inputs, outputs⟩ := decl
  cases desc <;> cases cmd <;> exact ⟨rfl, rfl, rfl, rfl⟩

theorem ofRecord?_members (line : Nat) (decl : GeneDecl) (room : Nat) :
    GeneDecl.ofRecord? (Record.ofMembers (gene line decl).members (room + 1)) = some decl := by
  have distinct := (gene line decl).distinct_members
  obtain ⟨desc, cmd, inputs, outputs⟩ := lookup_gene line decl
  unfold GeneDecl.ofRecord?
  rw [Record.required_ofMembers distinct rfl, Record.optional_text distinct desc,
    Record.optional_text distinct cmd, Record.withDefault_ofMembers distinct inputs,
    Record.withDefault_ofMembers distinct outputs, Reader.text_written, list_strings, list_strings]
  rfl

section
variable {inside : Reader (List Statement)} {room : Nat}

/-- One case for each kind of statement; only triggers look at what is inside. -/
theorem readWith_of_kind {statement : Statement} (leaf : statement.kind ≠ .trigger)
    (plain : statement.IsPlain) (shallow : statement.toJson.depth ≤ room + 1) :
    readWith inside (room + 1) statement.toJson.written = some statement := by
  have distinct := statement.distinct_members
  rw [depth_toJson_le] at shallow
  rw [toJson_eq_object, readWith, Record.ofWritten?_written]
  simp only [Option.bind_eq_bind, Option.bind_some, required_line statement room plain.line,
    required_type]
  cases statement with
  | trigger => exact absurd rfl leaf
  | name line given =>
      simp only [kind]
      rw [Record.required_ofMembers distinct rfl, Reader.text_written]
      rfl
  | emit line topic payload =>
      have found : (emit line topic payload).members.lookup "payload" =
          payload.map Json.string := by cases payload <;> rfl
      simp only [kind]
      rw [Record.required_ofMembers distinct rfl, Reader.text_written,
        Record.optional_text distinct found]
      rfl
  | invoke line tool args =>
      have enough : 1 ≤ room := by
        rw [← Json.depth_textMap args]
        exact shallow ("kwargs", Json.textMap args) (by simp [parts])
      have path : ToolPath.ofDotted tool.dotted = tool := (plain.tool tool rfl).ofDotted_dotted
      have map : Reader.map Reader.text room (Json.textMap args).written = some args :=
        Reader.textMap_written args enough
      simp only [kind]
      rw [Record.required_ofMembers distinct rfl, Reader.text_written,
        Record.withDefault_ofMembers distinct rfl, map]
      exact congrArg (fun tool => some (invoke line tool args)) path
  | remember line key value =>
      simp only [kind]
      rw [Record.required_ofMembers distinct rfl, Record.required_ofMembers distinct rfl,
        Reader.text_written, Reader.text_written]
      rfl
  | gene line decl =>
      have enough : 1 ≤ room :=
        (Nat.succ_le_succ (Nat.zero_le _)).trans
          (shallow ("inputs", Json.strings decl.inputs) (by simp [parts, GeneDecl.members]))
      obtain ⟨room, rfl⟩ := Nat.exists_eq_add_of_le' enough
      simp only [kind]
      rw [ofRecord?_members]
      rfl
  | text line words points =>
      simp only [kind]
      rw [Record.required_ofMembers distinct rfl, Record.required_ofMembers distinct rfl,
        Reader.text_written, Reader.natural_written points.toNat_lt (by decide)]
      exact congrArg (fun points => some (text line words points)) UInt8.ofNat_toNat

theorem readWith_trigger {line : Nat} {condition : String} {children : List Statement}
    (small : line < UInt64.size)
    (read : inside room (Json.array (children.map toJson)).written = some children) :
    readWith inside (room + 1) (trigger line condition children).toJson.written =
      some (trigger line condition children) := by
  have distinct := (trigger line condition children).distinct_members
  rw [toJson_eq_object, readWith, Record.ofWritten?_written]
  simp only [Option.bind_eq_bind, Option.bind_some,
    required_line (trigger line condition children) room small, required_type, kind]
  rw [Record.required_ofMembers distinct rfl, Record.required_ofMembers distinct rfl,
    Reader.text_written, read]
  rfl

end

theorem readParts_toJson {statement : Statement}
    (plain : ∀ node ∈ statement.nodes, node.IsPlain) {room : Nat}
    (shallow : statement.toJson.depth ≤ room) :
    readParts room statement.toJson.written = some statement := by
  induction statement using Statement.induct generalizing room with
  | trigger line condition children ih =>
      rw [nodes, List.forall_mem_cons, forall_nodesOf] at plain
      obtain ⟨room, rfl⟩ := exists_room_of_trigger shallow
      rw [depth_trigger_le] at shallow
      have deep : (Json.array (children.map toJson)).depth ≤ room + 1 := by
        rwa [Json.depth_array_le, List.forall_mem_map]
      refine readWith_trigger plain.1.line (Reader.list_written ?_ deep)
      intro child mem _ _
      exact ih child mem (plain.2 child mem) (shallow child mem)
  | alone statement leaf =>
      rw [nodes_of_kind leaf, List.forall_mem_singleton] at plain
      obtain ⟨inside, other⟩ : ∃ inside, readParts room statement.toJson.written =
          readWith inside room statement.toJson.written := by
        unfold readParts
        split
        · exact ⟨_, rfl⟩
        · exact ⟨_, rfl⟩
      obtain ⟨room, rfl⟩ := Nat.exists_eq_add_of_lt (statement.depth_pos.trans_le shallow)
      rw [Nat.zero_add] at other shallow ⊢
      rw [other, readWith_of_kind leaf plain shallow]

theorem read_toJson {statement : Statement} (plain : ∀ node ∈ statement.nodes, node.IsPlain)
    {room : Nat} (shallow : statement.toJson.depth ≤ room) :
    Statement.read room statement.toJson.written = some statement := by
  have exactly := isExact_toJson fun node mem => (plain node mem).line
  have any := Json.ofWritten?_written (fun part mem => (exactly part mem).1)
    (fun part mem => (exactly part mem).2) shallow
  rw [Statement.read, any, readParts_toJson plain shallow]
  rfl

theorem lt_of_natural {bound room n : Nat} {tree : Written}
    (h : Reader.natural bound room tree = some n) : n < bound := by
  unfold Reader.natural at h
  split at h
  · split at h
    · split at h
      · rename_i inside
        cases h
        omega
      · cases h
    · cases h
  · cases h

/-- Whatever is read has a line that fits and a tool path that was split at its dots, and the
statements inside it were read as such. -/
theorem exists_of_readWith {inside : Reader (List Statement)} {room : Nat} {tree : Written}
    {statement : Statement} (h : readWith inside room tree = some statement) :
    ∃ record, Record.ofWritten? room tree = some record ∧ statement.IsPlain ∧
      (statement.kind = .trigger →
        record.required "children" inside = some statement.children) := by
  obtain ⟨record, hrecord, h⟩ := Option.bind_eq_some_iff.1 h
  obtain ⟨line, hline, h⟩ := Option.bind_eq_some_iff.1 h
  obtain ⟨kind, -, h⟩ := Option.bind_eq_some_iff.1 h
  obtain ⟨_, _, number⟩ := Record.exists_of_required hline
  have small : line < UInt64.size := lt_of_natural number
  refine ⟨record, hrecord, ?_⟩
  cases kind with
  | name =>
      obtain ⟨given, -, h⟩ := Option.bind_eq_some_iff.1 h
      cases h
      exact ⟨isPlain_of_tool? small rfl, by simp [Statement.kind]⟩
  | emit =>
      obtain ⟨topic, -, h⟩ := Option.bind_eq_some_iff.1 h
      obtain ⟨payload, -, h⟩ := Option.bind_eq_some_iff.1 h
      cases h
      exact ⟨isPlain_of_tool? small rfl, by simp [Statement.kind]⟩
  | trigger =>
      obtain ⟨condition, -, h⟩ := Option.bind_eq_some_iff.1 h
      obtain ⟨children, hchildren, h⟩ := Option.bind_eq_some_iff.1 h
      cases h
      exact ⟨isPlain_of_tool? small rfl, fun _ => hchildren⟩
  | invoke =>
      obtain ⟨tool, -, h⟩ := Option.bind_eq_some_iff.1 h
      obtain ⟨args, -, h⟩ := Option.bind_eq_some_iff.1 h
      cases h
      refine ⟨⟨small, ?_⟩, by simp [Statement.kind]⟩
      intro path mem
      cases mem
      exact ToolPath.isPlain_ofDotted tool
  | remember =>
      obtain ⟨key, -, h⟩ := Option.bind_eq_some_iff.1 h
      obtain ⟨value, -, h⟩ := Option.bind_eq_some_iff.1 h
      cases h
      exact ⟨isPlain_of_tool? small rfl, by simp [Statement.kind]⟩
  | gene =>
      obtain ⟨decl, -, h⟩ := Option.bind_eq_some_iff.1 h
      cases h
      exact ⟨isPlain_of_tool? small rfl, by simp [Statement.kind]⟩
  | text =>
      obtain ⟨words, -, h⟩ := Option.bind_eq_some_iff.1 h
      obtain ⟨points, -, h⟩ := Option.bind_eq_some_iff.1 h
      cases h
      exact ⟨isPlain_of_tool? small rfl, by simp [Statement.kind]⟩

/-- A statement is written at most one level deeper than it was read: its lists and maps are written
also where they were left out. A child lies two levels below its trigger in the tree as well as in
what is written. -/
theorem isPlain_of_readParts {room : Nat} {tree : Written} {statement : Statement}
    (h : readParts room tree = some statement) {n : Nat} (shallow : tree.depth ≤ n) :
    (∀ node ∈ statement.nodes, node.IsPlain) ∧ statement.toJson.depth ≤ n + 1 := by
  induction statement using Statement.induct generalizing room tree n with
  | trigger line condition children ih =>
      match room with
      | 0 | 1 =>
          obtain ⟨_, _, _, inside⟩ := exists_of_readWith h
          obtain ⟨_, _, impossible⟩ := Record.exists_of_required (inside rfl)
          cases impossible
      | room + 2 =>
          obtain ⟨record, hrecord, plain, inside⟩ := exists_of_readWith h
          obtain ⟨k, rfl, -, members⟩ := Record.depth_of_ofWritten? hrecord shallow
          obtain ⟨member, mem, list⟩ := Record.exists_of_required (inside rfl)
          obtain ⟨_, k, _, rfl, each⟩ := Reader.exists_of_list list (members member mem)
          have facts : ∀ child ∈ children, (∀ node ∈ child.nodes, node.IsPlain) ∧
              child.toJson.depth ≤ k + 1 := by
            intro child mem
            obtain ⟨tree, shallow, found⟩ := each child mem
            exact ih child mem found shallow
          constructor
          · rw [nodes, List.forall_mem_cons, forall_nodesOf]
            exact ⟨plain, fun child mem => (facts child mem).1⟩
          · rw [depth_trigger_le]
            exact fun child mem => (facts child mem).2
  | alone statement leaf =>
      obtain ⟨inside, read⟩ : ∃ inside, readWith inside room tree = some statement := by
        unfold readParts at h
        split at h
        · exact ⟨_, h⟩
        · exact ⟨_, h⟩
      obtain ⟨record, hrecord, plain, -⟩ := exists_of_readWith read
      obtain ⟨k, rfl, -, -⟩ := Record.depth_of_ofWritten? hrecord shallow
      rw [nodes_of_kind leaf, List.forall_mem_singleton]
      exact ⟨plain, (depth_of_kind leaf).trans (Nat.le_add_left 2 k)⟩

end Statement

namespace Program
variable {program : Program}

/-- Every statement of the program is plain, also inside a trigger. -/
def IsPlain (program : Program) : Prop := ∀ node ∈ program.nodes, node.IsPlain

instance (program : Program) : Decidable program.IsPlain :=
  List.decidableBAll _ program.nodes

def members (program : Program) : List (String × Json) :=
  ("statements", .array (program.statements.map Statement.toJson)) ::
    (member? "name" program.name ++ [("source", .string program.source)])

theorem toJson_eq_object (program : Program) : program.toJson = .object program.members := by
  rw [toJson, Statement.listToJson_eq_map]
  rfl

theorem distinct_members (program : Program) : (program.members.map Prod.fst).Nodup := by
  rw [members]
  cases program.name <;> simp [member?]

theorem lookup_members (program : Program) :
    program.members.lookup "name" = program.name.map Json.string ∧
      program.members.lookup "source" = some (.string program.source) := by
  rw [members]
  cases program.name <;> exact ⟨rfl, rfl⟩

theorem depth_toJson_le {n : Nat} :
    program.toJson.depth ≤ n + 2 ↔
      ∀ statement ∈ program.statements, statement.toJson.depth ≤ n := by
  rw [toJson_eq_object, Json.depth_object_le, members, List.forall_mem_cons,
    List.forall_mem_append, List.forall_mem_singleton, Json.depth_array_le, List.forall_mem_map]
  exact and_iff_left ⟨forall_member? (p := (·.depth ≤ n + 1)) (fun _ => Nat.zero_le _) _ _,
    Nat.zero_le _⟩

theorem noFloat_toJson (plain : program.IsPlain) : program.toJson.All NoFloat := by
  rw [IsPlain, nodes, Statement.forall_nodesOf] at plain
  rw [toJson_eq_object, Json.all_object, members, List.forall_mem_cons, List.forall_mem_append,
    List.forall_mem_singleton, Json.all_array, List.forall_mem_map]
  refine ⟨trivial, ⟨trivial, fun statement mem part inside => ?_⟩,
    forall_member? Json.noFloat_string _ _, Json.noFloat_string _⟩
  have exactly := Statement.isExact_toJson fun node inner => (plain statement mem node inner).line
  exact (exactly part inside).1

theorem read_toJson (plain : program.IsPlain) {room : Nat} (shallow : program.toJson.depth ≤ room) :
    Program.read room program.toJson.written = some program := by
  rw [IsPlain, nodes, Statement.forall_nodesOf] at plain
  cases room with
  | zero => exact absurd shallow (Nat.not_succ_le_zero _)
  | succ room =>
      rw [toJson_eq_object, Json.depth_object_le, members, List.forall_mem_cons] at shallow
      have statements := Reader.list_written
        (fun statement mem _ => Statement.read_toJson (plain statement mem)) shallow.1
      have distinct := program.distinct_members
      obtain ⟨name, source⟩ := program.lookup_members
      rw [toJson_eq_object, Program.read, Record.ofNamed?_written]
      simp only [Option.bind_eq_bind, Option.bind_some]
      rw [Record.required_ofMembers distinct rfl, statements, Record.optional_text distinct name,
        Record.withDefault_ofMembers distinct source, Reader.text_written]
      rfl

/-- A program is read back from its text. -/
theorem ofText?_render {layout : Json.Layout} (blank : layout.Blank) (plain : program.IsPlain)
    (shallow : program.toJson.depth ≤ Json.depthLimit) :
    Program.ofText? (program.toJson.render layout) = some program := by
  rw [ofText?, Reader.run_render blank (noFloat_toJson plain), read_toJson plain shallow]

/-- A program is written at most one level deeper than it was read. -/
theorem isPlain_of_read {room : Nat} {tree : Written} (h : Program.read room tree = some program)
    {n : Nat} (shallow : tree.depth ≤ n) :
    program.IsPlain ∧ program.toJson.depth ≤ n + 1 := by
  obtain ⟨record, hrecord, h⟩ := Option.bind_eq_some_iff.1 h
  obtain ⟨statements, hstatements, h⟩ := Option.bind_eq_some_iff.1 h
  obtain ⟨name, -, h⟩ := Option.bind_eq_some_iff.1 h
  obtain ⟨source, -, h⟩ := Option.bind_eq_some_iff.1 h
  cases h
  obtain ⟨k, rfl, -, members⟩ := Record.depth_of_ofNamed? hrecord shallow
  obtain ⟨member, mem, list⟩ := Record.exists_of_required hstatements
  obtain ⟨_, k, _, rfl, each⟩ := Reader.exists_of_list list (members member mem)
  have facts : ∀ statement ∈ statements, (∀ node ∈ statement.nodes, node.IsPlain) ∧
      statement.toJson.depth ≤ k + 1 := by
    intro statement mem
    obtain ⟨tree, shallow, found⟩ := each statement mem
    obtain ⟨_, _, parts⟩ := Option.bind_eq_some_iff.1 found
    exact Statement.isPlain_of_readParts parts shallow
  constructor
  · exact Statement.forall_nodesOf.2 fun statement mem => (facts statement mem).1
  · exact depth_toJson_le.2 fun statement mem => (facts statement mem).2

end Program

theorem isPlain_of_invoke? {text : List Char} {tool : ToolPath} {args : OrderedMap String}
    (h : invoke? text = some (tool, args)) : tool.IsPlain := by
  obtain ⟨rest, -, h⟩ := Option.bind_eq_some_iff.1 h
  obtain ⟨⟨dotted, after⟩, -, h⟩ := Option.bind_eq_some_iff.1 h
  cases h
  exact ToolPath.isPlain_ofDotted _

theorem isPlain_childOf {cap : UInt8} {line : Line} (small : line.number < UInt64.size) :
    (childOf cap line).IsPlain := by
  refine ⟨by rwa [childOf_line], ?_⟩
  unfold childOf
  split
  · simp [Statement.tool?]
  · split
    · rename_i found
      simpa [Statement.tool?] using isPlain_of_invoke? found
    · simp [Statement.tool?, textOf]

theorem isPlain_of_openingOf {cap : UInt8} {line : Line} {statement : Statement}
    (h : openingOf cap line = .single statement) (small : line.number < UInt64.size) :
    statement.IsPlain := by
  refine ⟨by rwa [(openingOf_single h).1], ?_⟩
  unfold openingOf at h
  repeat' split at h
  all_goals cases h
  · simp [Statement.tool?]
  · simp [Statement.tool?]
  · rename_i found
    simpa [Statement.tool?] using isPlain_of_invoke? found
  · simp [Statement.tool?]
  · simp [Statement.tool?, textOf]

/-- What is inside a trigger of a poem is no trigger, which bounds the depth. -/
theorem isPlain_of_reads {cap : UInt8} {lines : List Line} {statements : List Statement}
    (h : Reads cap lines statements) (small : ∀ line ∈ lines, line.number < UInt64.size) :
    ∀ statement ∈ statements,
      (∀ node ∈ statement.nodes, node.IsPlain) ∧ statement.toJson.depth ≤ 4 := by
  induction h with
  | done => exact List.forall_mem_nil _
  | blank _ _ ih => exact ih (List.forall_mem_cons.1 small).2
  | single _ opening _ ih =>
      obtain ⟨here, later⟩ := List.forall_mem_cons.1 small
      have leaf := (openingOf_single opening).2.1
      refine List.forall_mem_cons.2 ⟨⟨?_, ?_⟩, ih later⟩
      · rw [nodes_of_kind leaf, List.forall_mem_singleton]
        exact isPlain_of_openingOf opening here
      · exact (Statement.depth_of_kind leaf).trans (by decide)
  | @trigger line condition taken after statements _ _ _ _ ih =>
      obtain ⟨here, later⟩ := List.forall_mem_cons.1 small
      obtain ⟨block, later⟩ := List.forall_mem_append.1 later
      refine List.forall_mem_cons.2 ⟨⟨?_, ?_⟩, ih later⟩
      · rw [Statement.nodes, nodesOf_children, List.forall_mem_cons, List.forall_mem_map]
        refine ⟨Statement.isPlain_of_tool? here rfl, fun other mem => ?_⟩
        exact isPlain_childOf (block other (mem_nonBlank.1 mem).1)
      · rw [Statement.depth_trigger_le, List.forall_mem_map]
        exact fun other _ => Statement.depth_of_kind (childOf_kind_ne_trigger cap other)
  | @gene line name block after statements _ _ _ _ _ ih =>
      obtain ⟨here, later⟩ := List.forall_mem_cons.1 small
      have leaf : (Statement.gene line.number (.ofLines name block)).kind ≠ .trigger := by
        simp [Statement.kind]
      refine List.forall_mem_cons.2 ⟨⟨?_, ?_⟩, ih (List.forall_mem_append.1 later).2⟩
      · rw [nodes_of_kind leaf, List.forall_mem_singleton]
        exact Statement.isPlain_of_tool? here rfl
      · exact (Statement.depth_of_kind leaf).trans (by decide)

theorem isPlain_parse {source : String} (lines : (source.toList.splitOn '\n').length < UInt64.size)
    (cap : UInt8) : (parse source cap).IsPlain ∧ (parse source cap).toJson.depth ≤ 6 := by
  have small : ∀ line ∈ Line.ofSource source, line.number < UInt64.size := by
    intro line mem
    have inside := (List.getElem?_eq_some_iff.1 (Line.mem_ofSource.1 mem).2).choose
    omega
  have facts := isPlain_of_reads (statementsOf_reads cap (Line.ofSource source)) small
  exact ⟨Statement.forall_nodesOf.2 fun statement mem => (facts statement mem).1,
    Program.depth_toJson_le.2 fun statement mem => (facts statement mem).2⟩

/-- A program is read back from both of its written forms if its lines fit into 64 bits, its tool
paths have segments and no dots in them, and it is nested at most 127 deep. That is so for every
parsed poem whose lines can be counted in 64 bits, and for every program that has been read from a
text nested at most 126 deep. -/
theorem program_round_trip :
    (∀ program : Program, program.IsPlain → program.toJson.depth ≤ 127 →
      ReadsBack Program.ofText? program.toJson program) ∧
    (∀ (source : String) (cap : UInt8), (source.toList.splitOn '\n').length < UInt64.size →
      ReadsBack Program.ofText? (parse source cap).toJson (parse source cap)) ∧
    (∀ (text : String) (tree : Written) (program : Program), Written.read? text = some tree →
      tree.depth ≤ 126 → Program.ofText? text = some program →
      ReadsBack Program.ofText? program.toJson program) := by
  have back : ∀ program : Program, program.IsPlain → program.toJson.depth ≤ 127 →
      ReadsBack Program.ofText? program.toJson program := fun program plain shallow =>
    Json.readsBack_of_render fun blank => Program.ofText?_render blank plain shallow
  refine ⟨back, fun source cap lines => ?_, fun text tree program read shallow found => ?_⟩
  · obtain ⟨plain, deep⟩ := isPlain_parse lines cap
    exact back _ plain (deep.trans (by decide))
  · have whole : Program.read Json.depthLimit tree = some program := by
      rwa [Program.ofText?, Reader.run, read, Option.bind_some] at found
    obtain ⟨plain, deep⟩ := Program.isPlain_of_read whole shallow
    exact back program plain deep

/-- A trigger inside a trigger, arguments that are not sorted, and nothing where something may be
left out. -/
def nestedProgram : Program :=
  ⟨[.trigger 1 "a\"\\" [.trigger 18446744073709551615 "\n\x01é" [.emit 3 "t" none]],
    .invoke 4 ⟨["b", ""]⟩ (.ofList [("z", "1"), ("y", "2")]),
    .gene 5 ⟨"g", none, some "c", [], ["o"]⟩], none, ""⟩

/-- A program by position, without name and source. It holds a tool without its arguments. -/
def bareInvoke : Json :=
  .array [.array [.object [("tool", .string "a.b"), ("type", .string "use"), ("line", .ofNat 7)]]]

theorem nestedProgram_round_trip :
    (nestedProgram.IsPlain ∧ nestedProgram.toJson.depth ≤ 127 ∧
      ReadsBack Program.ofText? nestedProgram.toJson nestedProgram) ∧
    (("use a.b(x: 1)".toList.splitOn '\n').length < UInt64.size ∧
      ReadsBack Program.ofText? (parse "use a.b(x: 1)" 5).toJson (parse "use a.b(x: 1)" 5)) ∧
    Written.read? bareInvoke.compact = some bareInvoke.written ∧ bareInvoke.written.depth ≤ 126 ∧
    Program.ofText? bareInvoke.compact = some ⟨[.invoke 7 ⟨["a", "b"]⟩ .empty], none, ""⟩ ∧
    ReadsBack Program.ofText? (Program.mk [.invoke 7 ⟨["a", "b"]⟩ .empty] none "").toJson
      ⟨[.invoke 7 ⟨["a", "b"]⟩ .empty], none, ""⟩ := by
  have plain : nestedProgram.IsPlain := by decide +kernel
  have shallow : nestedProgram.toJson.depth ≤ 127 := by decide
  have lines : ("use a.b(x: 1)".toList.splitOn '\n').length < UInt64.size := by decide
  have tree : Written.read? bareInvoke.compact = some bareInvoke.written :=
    Written.read?_render Json.Layout.blank_compact (by decide)
  have found : Program.ofText? bareInvoke.compact =
      some ⟨[.invoke 7 ⟨["a", "b"]⟩ .empty], none, ""⟩ := by
    rw [Program.ofText?, Reader.run, tree]
    rfl
  have low : bareInvoke.written.depth ≤ 126 := by decide
  exact ⟨⟨plain, shallow, program_round_trip.1 _ plain shallow⟩,
    ⟨lines, program_round_trip.2.1 _ 5 lines⟩, tree, low, found,
    program_round_trip.2.2 _ _ _ tree low found⟩

end Poem
end PlainVerse
