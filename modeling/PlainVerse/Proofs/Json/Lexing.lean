import PlainVerse.Proofs.Json.Scalars
import PlainVerse.Proofs.Text.Normal
import PlainVerse.Proofs.Text.Splitting

/-!
# The tokens of a written value

A written value is cut into the tokens of its tree, whatever the layout is, as long as it puts
nothing but blanks between them. The end of a number shows only in what comes next, which must not
go on with it. A comma, a bracket, a blank and the end of the text do not.
-/
namespace PlainVerse.Json

open Text (Stops stops_cons)

theorem tokens?_congr {text other : List Char}
    (same : text.dropWhile isSpace = other.dropWhile isSpace) : tokens? text = tokens? other := by
  rw [tokens?.eq_def, tokens?.eq_def other, same]

theorem tokens?_spaces {blanks : List Char} (spaces : ∀ c ∈ blanks, isSpace c = true)
    (text : List Char) : tokens? (blanks ++ text) = tokens? text :=
  tokens?_congr (List.dropWhile_append_of_pos spaces)

theorem tokens?_cons {c : Char} {text rest : List Char} {token : Token}
    (solid : isSpace c = false) (first : token? c text = some (token, rest)) :
    tokens? (c :: text) = (tokens? rest).map (token :: ·) := by
  rw [tokens?.eq_def]
  have start : (c :: text).dropWhile isSpace = c :: text := by rw [List.dropWhile_cons, solid]; rfl
  split
  · rename_i nothing
    rw [start] at nothing
    cases nothing
  · rename_i found
    rw [start] at found
    cases found
    split
    · rename_i none
      rw [first] at none
      cases none
    · rename_i found
      rw [first] at found
      cases found
      rfl

theorem isSpace_iff {c : Char} :
    isSpace c = true ↔ c = ' ' ∨ c = '\t' ∨ c = '\n' ∨ c = '\r' := by
  simp [isSpace, or_assoc]

/-- A text is cut into some tokens, and then what follows it is cut. -/
def Cuts (text : List Char) (tokens : List Token) : Prop :=
  ∀ rest, Stops isNumberPart rest → tokens? (text ++ rest) = (tokens? rest).map (tokens ++ ·)

theorem punctuation_facts {c : Char} {token : Token} (known : punctuation? c = some token) :
    isSpace c = false ∧ isNumberPart c = false := by
  have marks : ∀ c ∈ ['[', ']', '\x7b', '\x7d', ',', ':'],
      isSpace c = false ∧ isNumberPart c = false := Text.forall_mem_of_all (by decide)
  apply marks
  unfold punctuation? at known
  split at known <;> simp_all

theorem tokens?_punctuation {c : Char} {token : Token} (known : punctuation? c = some token)
    (rest : List Char) : tokens? (c :: rest) = (tokens? rest).map (token :: ·) := by
  apply tokens?_cons (punctuation_facts known).1
  rw [token?, known]

theorem Cuts.spaced {text blanks : List Char} {tokens : List Token} (h : Cuts text tokens)
    (spaces : ∀ c ∈ blanks, isSpace c = true) : Cuts (blanks ++ text) tokens := by
  intro rest stop
  rw [List.append_assoc, tokens?_spaces spaces, h rest stop]

theorem cuts_scalar {c : Char} {text : List Char} {token : Token} (solid : isSpace c = false)
    (word : punctuation? c = none)
    (h : ∀ rest, Stops isNumberPart rest → scalar? c (text ++ rest) = some (token, rest)) :
    Cuts (c :: text) [token] := by
  intro rest stop
  have first : token? c (text ++ rest) = some (token, rest) := by rw [token?, word, h rest stop]
  rw [List.cons_append, tokens?_cons solid first]
  rfl

theorem cuts_null : Cuts ['n', 'u', 'l', 'l'] [.null] :=
  cuts_scalar (by decide) rfl fun _ _ => rfl

theorem cuts_bool (b : Bool) (layout : Layout) (depth : Nat) :
    Cuts (write layout depth (.bool b)) [.bool b] := by
  cases b with
  | true => exact cuts_scalar (by decide) rfl fun _ _ => rfl
  | false => exact cuts_scalar (by decide) rfl fun _ _ => rfl

theorem cuts_quoted (text : String) : Cuts (quoted text) [.string (piecesOf text)] := by
  apply cuts_scalar (by decide) rfl
  intro rest _
  rw [scalar?, if_pos rfl, List.append_assoc, List.singleton_append, pieces?_quoted]
  rfl

theorem begins_number : ∀ {c : Char}, c.isDigit = true →
    isSpace c = false ∧ punctuation? c = none ∧ c ≠ '"' ∧ c ≠ '-' :=
  @Text.of_isDigit _ (by decide)

theorem cuts_int (n : Int) : Cuts (Number.int n).text [.number (Number.int n).numeral] := by
  by_cases negative : n < 0
  · have text : (Number.int n).text = '-' :: Text.decimal n.natAbs := if_pos negative
    have numeral : (Number.int n).numeral = ⟨true, Text.decimal n.natAbs, [], none⟩ := by
      rw [Number.numeral, decide_eq_true negative]
    rw [text, numeral]
    apply cuts_scalar (by decide) rfl
    intro rest stop
    rw [scalar?, if_neg (by decide), if_pos rfl, numeral?_decimal stop]
    rfl
  · have text : (Number.int n).text = Text.decimal n.natAbs := if_neg negative
    have numeral : (Number.int n).numeral = ⟨false, Text.decimal n.natAbs, [], none⟩ := by
      rw [Number.numeral, decide_eq_false negative]
    rw [text, numeral]
    cases digits : Text.decimal n.natAbs with
    | nil => exact absurd digits Nat.toDigits_ne_nil
    | cons d later =>
        have digit : d.isDigit = true := isDigit_of_mem_decimal (digits ▸ List.mem_cons_self)
        obtain ⟨solid, word, quote, minus⟩ := begins_number digit
        apply cuts_scalar solid word
        intro rest stop
        rw [scalar?, if_neg quote, if_neg minus, if_pos digit, ← List.cons_append, ← digits,
          numeral?_decimal stop]
        rfl

/-- A layout that adds nothing but blanks. -/
structure Layout.Blank (layout : Layout) : Prop where
  lineBreak : ∀ depth, ∀ c ∈ layout.lineBreak depth, isSpace c = true
  gap : ∀ c ∈ layout.gap, isSpace c = true

theorem Layout.blank_compact : Layout.compact.Blank where
  lineBreak := fun _ => List.forall_mem_nil _
  gap := List.forall_mem_nil _

theorem Layout.blank_pretty : Layout.pretty.Blank where
  lineBreak := by
    intro depth
    rw [Layout.pretty, List.forall_mem_cons]
    refine ⟨by decide, ?_⟩
    intro c mem
    rw [List.eq_of_mem_replicate mem]
    decide
  gap := Text.forall_mem_of_all (by decide)

theorem stops_of_isSpace {blanks text : List Char} (spaces : ∀ c ∈ blanks, isSpace c = true)
    (stop : Stops isNumberPart text) : Stops isNumberPart (blanks ++ text) := by
  cases blanks with
  | nil => exact stop
  | cons c rest =>
      apply stops_cons
      rcases isSpace_iff.1 (spaces c List.mem_cons_self) with rfl | rfl | rfl | rfl <;> decide

section
variable {α : Type} {text : α → List Char} {tokens : α → List Token} {items : List α}

/-- What stands between the first part and the closing bracket. -/
theorem tokens?_more (each : ∀ item ∈ items, Cuts (text item) (tokens item)) {rest : List Char}
    (stop : Stops isNumberPart rest) :
    Stops isNumberPart ((items.map text).flatMap (',' :: ·) ++ rest) ∧
      tokens? ((items.map text).flatMap (',' :: ·) ++ rest) =
        (tokens? rest).map ((items.map tokens).flatMap (.comma :: ·) ++ ·) := by
  induction items with
  | nil => exact ⟨stop, by simp⟩
  | cons item items ih =>
      obtain ⟨here, later⟩ := List.forall_mem_cons.1 each
      obtain ⟨next, more⟩ := ih later
      refine ⟨stops_cons (by decide) _, ?_⟩
      simp only [List.map_cons, List.flatMap_cons, List.cons_append, List.append_assoc]
      rw [tokens?_punctuation rfl, here _ next, more]
      simp [Function.comp_def]

theorem cuts_bracketed {layout : Layout} (blank : layout.Blank) (depth : Nat)
    {opening closing : Char} {first last : Token} (opens : punctuation? opening = some first)
    (closes : punctuation? closing = some last)
    (each : ∀ item ∈ items, Cuts (text item) (tokens item)) :
    Cuts (bracketed layout depth opening closing (items.map text))
      (first :: ([.comma].intercalate (items.map tokens) ++ [last])) := by
  intro rest stop
  cases items with
  | nil =>
      change tokens? (opening :: closing :: rest) = _
      rw [tokens?_punctuation opens, tokens?_punctuation closes, Option.map_map]
      rfl
  | cons item items =>
      obtain ⟨here, later⟩ := List.forall_mem_cons.1 each
      have close : Stops isNumberPart (layout.lineBreak depth ++ closing :: rest) := by
        apply stops_of_isSpace (blank.lineBreak depth)
        exact stops_cons (punctuation_facts closes).2 rest
      have spaced : ∀ item ∈ items,
          Cuts (layout.lineBreak (depth + 1) ++ text item) (tokens item) :=
        fun item mem => (later item mem).spaced (blank.lineBreak _)
      obtain ⟨next, more⟩ := tokens?_more spaced close
      have shape : bracketed layout depth opening closing ((item :: items).map text) ++ rest =
          opening :: (layout.lineBreak (depth + 1) ++ (text item ++
            ((items.map fun item => layout.lineBreak (depth + 1) ++ text item).flatMap (',' :: ·) ++
              (layout.lineBreak depth ++ closing :: rest)))) := by
        simp [bracketed, commaSeparated, Function.comp_def]
      rw [shape, tokens?_punctuation opens, tokens?_spaces (blank.lineBreak _), here _ next, more,
        tokens?_spaces (blank.lineBreak _), tokens?_punctuation closes, List.map_cons,
        intercalate_cons]
      simp [Function.comp_def]

end

/-- A value without floating-point numbers. -/
def NoFloat : Json → Prop
  | .number (.float _) => False
  | _ => True

instance : DecidablePred NoFloat
  | .number (.float _) => isFalse id
  | .number (.int _) => isTrue trivial
  | .null | .bool _ | .string _ | .array _ | .object _ => isTrue trivial

/-- A value without floating-point numbers is cut into the tokens of its tree. -/
theorem cuts_write {layout : Layout} (blank : layout.Blank) {json : Json}
    (exactly : json.All NoFloat) (depth : Nat) :
    Cuts (write layout depth json) json.written.tokens := by
  induction json using Json.induct generalizing depth with
  | null => exact cuts_null
  | bool b => exact cuts_bool b layout depth
  | number n =>
      cases n with
      | int n => exact cuts_int n
      | float x => exact absurd (exactly _ List.mem_cons_self) id
  | string s => exact cuts_quoted s
  | array items ih =>
      rw [all_array] at exactly
      rw [write, writeItems_eq_map, written_array, Written.tokens, Written.itemTokens_eq_map,
        List.map_map]
      apply cuts_bracketed blank depth rfl rfl
      intro item mem
      exact ih item mem (exactly.2 item mem) _
  | object members ih =>
      rw [all_object] at exactly
      rw [write, writeMembers_eq_map, written_object, Written.tokens, Written.memberTokens_eq_map,
        List.map_map]
      apply cuts_bracketed blank depth rfl rfl
      intro member mem rest stop
      have value := ih member mem (exactly.2 member mem) (depth + 1) rest stop
      rw [List.append_assoc, List.cons_append, List.append_assoc,
        cuts_quoted member.1 _ (stops_cons (by decide) _), tokens?_punctuation rfl,
        tokens?_spaces blank.gap, value]
      simp [Function.comp_def]

theorem tokens?_render {layout : Layout} (blank : layout.Blank) {json : Json}
    (exactly : json.All NoFloat) :
    tokens? (json.render layout).toList = some json.written.tokens := by
  have whole := cuts_write blank exactly 0 [] (Text.stops_nil _)
  have nothing : tokens? [] = some [] := by
    rw [tokens?.eq_def]
    rfl
  rw [List.append_nil, nothing, Option.map_some, List.append_nil] at whole
  rw [render, String.toList_ofList, whole]

end PlainVerse.Json
