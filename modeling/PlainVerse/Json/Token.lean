import PlainVerse.Text.Scan

/-!
# The words of a JSON text

Between blanks a JSON text is a sequence of tokens. A string is kept as it is escaped, because a
`\u` escape may be half of a surrogate pair, and a number as its digits, because its size is not
limited by the grammar. Both are given a value only where they are used.
-/
namespace PlainVerse.Json

/-- A character of a string: itself, or a 16-bit unit given by four hexadecimal digits. -/
inductive Piece where
  | char (value : Char)
  | unit (value : Nat)
deriving DecidableEq, Repr

/-- The digits of a number. The fraction is empty when there is none; an exponent has a sign, true
for negative, and digits. -/
structure Numeral where
  negative : Bool
  whole : List Char
  fraction : List Char
  exponent : Option (Bool × List Char)
deriving DecidableEq, Repr

inductive Token where
  | openArray
  | closeArray
  | openObject
  | closeObject
  | comma
  | colon
  | null
  | bool (value : Bool)
  | number (value : Numeral)
  | string (pieces : List Piece)
deriving DecidableEq, Repr

/-- The blanks of a JSON text: space, tab, line feed and carriage return. -/
def isSpace (c : Char) : Bool := c = ' ' || c = '\t' || c = '\n' || c = '\r'

/-- The character of a backslash escape with one letter. -/
def escape? : Char → Option Char
  | '"' => some '"'
  | '\\' => some '\\'
  | '/' => some '/'
  | 'b' => some '\x08'
  | 'f' => some '\x0c'
  | 'n' => some '\n'
  | 'r' => some '\r'
  | 't' => some '\t'
  | _ => none

def hexValue? (c : Char) : Option Nat :=
  if c.isDigit then some (c.toNat - '0'.toNat)
  else if 'a' ≤ c ∧ c ≤ 'f' then some (c.toNat - 'a'.toNat + 10)
  else if 'A' ≤ c ∧ c ≤ 'F' then some (c.toNat - 'A'.toNat + 10)
  else none

/-- A 16-bit unit from its four hexadecimal digits. -/
def unit? (a b c d : Char) : Option Nat := do
  let a ← hexValue? a
  let b ← hexValue? b
  let c ← hexValue? c
  let d ← hexValue? d
  some (a * 4096 + b * 256 + c * 16 + d)

/-- The pieces of a string up to its closing quote, and what follows the quote. -/
def pieces? : List Char → Option (List Piece × List Char)
  | [] => none
  | '"' :: rest => some ([], rest)
  | '\\' :: 'u' :: a :: b :: c :: d :: rest => do
      let unit ← unit? a b c d
      let (pieces, tail) ← pieces? rest
      some (.unit unit :: pieces, tail)
  | '\\' :: letter :: rest => do
      let c ← escape? letter
      let (pieces, tail) ← pieces? rest
      some (.char c :: pieces, tail)
  | c :: rest =>
      if c.toNat < 0x20 ∨ c = '\\' then none
      else do
        let (pieces, tail) ← pieces? rest
        some (.char c :: pieces, tail)

/-- The digits before the point; a zero stands alone. -/
def whole? (text : List Char) : Option (List Char × List Char) :=
  match Text.run? Char.isDigit text with
  | some ('0' :: _ :: _, _) => none
  | digits => digits

/-- The digits after a point, if there is one. -/
def fraction? : List Char → Option (List Char × List Char)
  | '.' :: text => Text.run? Char.isDigit text
  | text => some ([], text)

/-- A sign, true for a minus, which may be left out. -/
def sign : List Char → Bool × List Char
  | '-' :: text => (true, text)
  | '+' :: text => (false, text)
  | text => (false, text)

/-- The sign and digits of an exponent, if there is one. -/
def exponent? (text : List Char) : Option (Option (Bool × List Char) × List Char) :=
  match text with
  | [] => some (none, text)
  | mark :: tail =>
      if mark = 'e' ∨ mark = 'E' then
        (Text.run? Char.isDigit (sign tail).2).map fun (digits, rest) =>
          (some ((sign tail).1, digits), rest)
      else some (none, text)

/-- A number without its sign. -/
def numeral? (negative : Bool) (text : List Char) : Option (Numeral × List Char) := do
  let (whole, text) ← whole? text
  let (fraction, text) ← fraction? text
  let (exponent, text) ← exponent? text
  some (⟨negative, whole, fraction, exponent⟩, text)

def punctuation? : Char → Option Token
  | '[' => some .openArray
  | ']' => some .closeArray
  | '\x7b' => some .openObject
  | '\x7d' => some .closeObject
  | ',' => some .comma
  | ':' => some .colon
  | _ => none

/-- The three named values, by their first letter and the letters after it. -/
def named? : Char → Option (List Char × Token)
  | 'n' => some (['u', 'l', 'l'], .null)
  | 't' => some (['r', 'u', 'e'], .bool true)
  | 'f' => some (['a', 'l', 's', 'e'], .bool false)
  | _ => none

/-- The string, number or named value that begins with the character `c`, and what follows it. -/
def scalar? (c : Char) (text : List Char) : Option (Token × List Char) :=
  if c = '"' then (pieces? text).map fun (pieces, rest) => (.string pieces, rest)
  else if c = '-' then (numeral? true text).map fun (numeral, rest) => (.number numeral, rest)
  else if c.isDigit then
    (numeral? false (c :: text)).map fun (numeral, rest) => (.number numeral, rest)
  else do
    let (letters, token) ← named? c
    let rest ← Text.after? letters text
    some (token, rest)

/-- The token that begins with the character `c`, and what follows it. -/
def token? (c : Char) (text : List Char) : Option (Token × List Char) :=
  match punctuation? c with
  | some token => some (token, text)
  | none => scalar? c text

theorem pieces?_length {text rest : List Char} {pieces : List Piece}
    (h : pieces? text = some (pieces, rest)) : rest.length < text.length := by
  fun_induction pieces? text generalizing pieces with
  | case1 => simp at h
  | case2 tail =>
      simp only [Option.some.injEq, Prod.mk.injEq] at h
      simp [h.2]
  | case3 a b c d tail ih =>
      simp only [Option.bind_eq_bind, Option.bind_eq_some_iff, Option.some.injEq] at h
      obtain ⟨_, _, ⟨p, r⟩, hp, he⟩ := h
      simp only [Prod.mk.injEq] at he
      have := ih (he.2 ▸ hp)
      simp only [List.length_cons]
      omega
  | case4 letter tail _ ih =>
      simp only [Option.bind_eq_bind, Option.bind_eq_some_iff, Option.some.injEq] at h
      obtain ⟨_, _, ⟨p, r⟩, hp, he⟩ := h
      simp only [Prod.mk.injEq] at he
      have := ih (he.2 ▸ hp)
      simp only [List.length_cons]
      omega
  | case5 => simp at h
  | case6 c tail _ _ _ _ ih =>
      simp only [Option.bind_eq_bind, Option.bind_eq_some_iff, Option.some.injEq] at h
      obtain ⟨⟨p, r⟩, hp, he⟩ := h
      simp only [Prod.mk.injEq] at he
      have := ih (he.2 ▸ hp)
      simp only [List.length_cons]
      omega

theorem run_length_lt {p : Char → Bool} {text run rest : List Char}
    (h : Text.run? p text = some (run, rest)) : rest.length < text.length := by
  have total := Text.run?_length h
  have positive := Text.run?_length_pos h
  omega

theorem whole?_length {text digits rest : List Char} (h : whole? text = some (digits, rest)) :
    rest.length < text.length := by
  unfold whole? at h
  split at h
  · simp at h
  · exact run_length_lt h

theorem fraction?_length {text digits rest : List Char}
    (h : fraction? text = some (digits, rest)) : rest.length ≤ text.length := by
  unfold fraction? at h
  split at h
  · have := run_length_lt h
    simp only [List.length_cons]
    omega
  · simp only [Option.some.injEq, Prod.mk.injEq] at h
    exact Nat.le_of_eq (by rw [h.2])

theorem sign_length (text : List Char) : (sign text).2.length ≤ text.length := by
  unfold sign
  split <;> simp

theorem exponent?_length {text rest : List Char} {exponent : Option (Bool × List Char)}
    (h : exponent? text = some (exponent, rest)) : rest.length ≤ text.length := by
  unfold exponent? at h
  split at h
  · simp only [Option.some.injEq, Prod.mk.injEq] at h
    exact Nat.le_of_eq (by rw [h.2])
  · rename_i mark tail
    split at h
    · obtain ⟨⟨digits, r⟩, hrun, he⟩ := Option.map_eq_some_iff.1 h
      simp only [Prod.mk.injEq] at he
      have := run_length_lt hrun
      have := sign_length tail
      simp only [List.length_cons, ← he.2]
      omega
    · simp only [Option.some.injEq, Prod.mk.injEq] at h
      exact Nat.le_of_eq (by rw [h.2])

theorem numeral?_length {negative : Bool} {text rest : List Char} {numeral : Numeral}
    (h : numeral? negative text = some (numeral, rest)) : rest.length < text.length := by
  simp only [numeral?, Option.bind_eq_bind, Option.bind_eq_some_iff, Option.some.injEq] at h
  obtain ⟨⟨_, a⟩, ha, ⟨_, b⟩, hb, ⟨_, c⟩, hc, he⟩ := h
  have := whole?_length ha
  have := fraction?_length hb
  have := exponent?_length hc
  simp only [Prod.mk.injEq] at he
  simp only [← he.2]
  simp only at *
  omega

theorem scalar?_length {c : Char} {text rest : List Char} {token : Token}
    (h : scalar? c text = some (token, rest)) : rest.length ≤ text.length := by
  unfold scalar? at h
  split at h
  · obtain ⟨⟨_, r⟩, hr, he⟩ := Option.map_eq_some_iff.1 h
    simp only [Prod.mk.injEq] at he
    exact Nat.le_of_lt (pieces?_length (he.2 ▸ hr))
  split at h
  · obtain ⟨⟨_, r⟩, hr, he⟩ := Option.map_eq_some_iff.1 h
    simp only [Prod.mk.injEq] at he
    exact Nat.le_of_lt (numeral?_length (he.2 ▸ hr))
  split at h
  · obtain ⟨⟨_, r⟩, hr, he⟩ := Option.map_eq_some_iff.1 h
    simp only [Prod.mk.injEq] at he
    exact Nat.le_of_lt_succ (numeral?_length (he.2 ▸ hr))
  · simp only [Option.bind_eq_bind, Option.bind_eq_some_iff, Option.some.injEq] at h
    obtain ⟨⟨letters, _⟩, _, r, hr, he⟩ := h
    simp only [Prod.mk.injEq] at he
    have := Text.after?_length (he.2 ▸ hr)
    omega

/-- A token takes at least the character that it begins with. -/
theorem token?_length {c : Char} {text rest : List Char} {token : Token}
    (h : token? c text = some (token, rest)) : rest.length ≤ text.length := by
  unfold token? at h
  split at h
  · simp only [Option.some.injEq, Prod.mk.injEq] at h
    exact Nat.le_of_eq (by rw [h.2])
  · exact scalar?_length h

/-- The tokens of a text; none if some part of it is no token. -/
def tokens? (text : List Char) : Option (List Token) :=
  match _htext : text.dropWhile isSpace with
  | [] => some []
  | c :: tail =>
      match _htoken : token? c tail with
      | none => none
      | some (token, rest) => (tokens? rest).map (token :: ·)
termination_by text.length
decreasing_by
  have shorter := token?_length _htoken
  have := (List.dropWhile_sublist isSpace (l := text)).length_le
  rw [_htext, List.length_cons] at this
  omega

end PlainVerse.Json
