import ThingTypes.Json.Number
import ThingTypes.Text.Digits

/-
  Reading JSON texts. Characters become tokens and tokens become a value, each by a machine that
  takes one symbol at a time: `Lexer.step` over characters, `Builder.step` over tokens. A key
  that is repeated in an object keeps its first place and its last value. Arrays and objects nest
  at most 127 deep.
-/

namespace ThingTypes.Json

inductive Token where
  | openArray
  | closeArray
  | openObject
  | closeObject
  | comma
  | colon
  | scalar (j : Json)

/-! ## From characters to tokens -/

/-- What the characters read last belong to. Characters already read stand in reverse. -/
inductive LexMode where
  | between
  /-- A numeral or a literal name. -/
  | word (seen : List Char)
  | string (seen : List Char)
  /-- After a backslash. -/
  | escape (seen : List Char)
  /-- After `\u` and some hex digits; `lead?` is a leading surrogate that came before. -/
  | unit (seen : List Char) (lead? : Option Nat) (count : Nat) (value : Nat)
  /-- After a leading surrogate: a second `\u` must follow. -/
  | lead (seen : List Char) (lead : Nat)
  | leadEscape (seen : List Char) (lead : Nat)

structure Lexer where
  mode : LexMode := .between
  /-- The tokens already read, in reverse. -/
  tokens : List Token := []

namespace Lexer

def isBlank (c : Char) : Bool := c = ' ' || c = '\n' || c = '\t' || c = '\r'

def bracket? (c : Char) : Option Token :=
  if c = '[' then some .openArray
  else if c = ']' then some .closeArray
  else if c = '{' then some .openObject
  else if c = '}' then some .closeObject
  else if c = ',' then some .comma
  else if c = ':' then some .colon
  else none

/-- The value of a numeral or a literal name. -/
def word? (word : List Char) : Option Json :=
  if word = "true".toList then some (.bool true)
  else if word = "false".toList then some (.bool false)
  else if word = "null".toList then some .null
  else ((Numeral.ofText? word).bind Numeral.value?).map .number

/-- The character that a backslash and `c` stand for. -/
def escaped? (c : Char) : Option Char :=
  if c = '"' ∨ c = '\\' ∨ c = '/' then some c
  else if c = 'b' then some '\x08'
  else if c = 'f' then some '\x0c'
  else if c = 'n' then some '\n'
  else if c = 'r' then some '\r'
  else if c = 't' then some '\t'
  else none

/-- The mode after a complete `\u` escape: a code unit is a character, or half of one. -/
def afterUnit? (seen : List Char) (lead? : Option Nat) (value : Nat) : Option LexMode :=
  let isLead := 0xd800 ≤ value && value < 0xdc00
  let isTrail := 0xdc00 ≤ value && value < 0xe000
  match lead? with
  | some lead =>
    if isTrail then
      some (.string (Char.ofNat (0x10000 + (lead - 0xd800) * 0x400 + (value - 0xdc00)) :: seen))
    else none
  | none =>
    if isLead then some (.lead seen value)
    else if isTrail then none
    else some (.string (Char.ofNat value :: seen))

/-- Between tokens: blanks are skipped, brackets are tokens, a quote opens a string, and anything
else starts a word. -/
def startToken (tokens : List Token) (c : Char) : Lexer :=
  if isBlank c then ⟨.between, tokens⟩
  else match bracket? c with
    | some token => ⟨.between, token :: tokens⟩
    | none => if c = '"' then ⟨.string [], tokens⟩ else ⟨.word [c], tokens⟩

def step (s : Lexer) (c : Char) : Option Lexer :=
  match s.mode with
  | .between => some (startToken s.tokens c)
  | .word seen =>
    if isBlank c || (bracket? c).isSome || c = '"' then
      (word? seen.reverse).map fun j => startToken (.scalar j :: s.tokens) c
    else some { s with mode := .word (c :: seen) }
  | .string seen =>
    if c = '"' then some ⟨.between, .scalar (.string (String.ofList seen.reverse)) :: s.tokens⟩
    else if c = '\\' then some { s with mode := .escape seen }
    else if c.toNat < 0x20 then none
    else some { s with mode := .string (c :: seen) }
  | .escape seen =>
    if c = 'u' then some { s with mode := .unit seen none 0 0 }
    else (escaped? c).map fun e => { s with mode := .string (e :: seen) }
  | .unit seen lead? count value => do
    let digit ← Text.digit? 16 c
    let value := 16 * value + digit
    if count = 3 then (afterUnit? seen lead? value).map fun mode => { s with mode }
    else return { s with mode := .unit seen lead? (count + 1) value }
  | .lead seen lead => if c = '\\' then some { s with mode := .leadEscape seen lead } else none
  | .leadEscape seen lead =>
    if c = 'u' then some { s with mode := .unit seen (some lead) 0 0 } else none

/-- The tokens of a text. -/
def tokens? (text : List Char) : Option (List Token) := do
  let s ← text.foldlM step {}
  match s.mode with
  | .between => return s.tokens.reverse
  | .word seen => (word? seen.reverse).map fun j => (.scalar j :: s.tokens).reverse
  | _ => none

end Lexer

/-! ## From tokens to a value -/

/-- An array or object that is not closed yet, with what it holds so far. -/
inductive Frame where
  | array (items : List Json)
  | object (members : List (String × Json)) (key : String)

/-- What may come next. -/
inductive Expectation where
  | value
  | valueOrClose
  | commaOrClose
  | key
  | keyOrClose
  | colon
  | nothing

structure Builder where
  frames : List Frame := []
  expectation : Expectation := .value
  result? : Option Json := none

/-- The greatest number of arrays and objects that may be open at once. -/
def nestingLimit : Nat := 127

namespace Builder

/-- Takes a complete value into the innermost open array or object. -/
def put (s : Builder) (j : Json) : Builder :=
  match s.frames with
  | [] => ⟨[], .nothing, some j⟩
  | .array items :: frames =>
    { s with frames := .array (j :: items) :: frames, expectation := .commaOrClose }
  | .object members key :: frames =>
    { s with
      frames := .object (Entries.insert key j members) key :: frames
      expectation := .commaOrClose }

def pushFrame? (s : Builder) (frame : Frame) (expectation : Expectation) : Option Builder :=
  if s.frames.length < nestingLimit then some { s with frames := frame :: s.frames, expectation }
  else none

/-- The start of a value. -/
def startValue? (s : Builder) : Token → Option Builder
  | .scalar j => some (s.put j)
  | .openArray => s.pushFrame? (.array []) .valueOrClose
  | .openObject => s.pushFrame? (.object [] "") .keyOrClose
  | _ => none

/-- Closes the innermost open array or object. -/
def close? (s : Builder) : Token → Option Builder
  | .closeArray => match s.frames with
    | .array items :: frames => some ({ s with frames }.put (.array items.reverse))
    | _ => none
  | .closeObject => match s.frames with
    | .object members _ :: frames => some ({ s with frames }.put (.object members))
    | _ => none
  | _ => none

def takeKey? (s : Builder) : Token → Option Builder
  | .scalar (.string key) => match s.frames with
    | .object members _ :: frames =>
      some { s with frames := .object members key :: frames, expectation := .colon }
    | _ => none
  | _ => none

def takeComma? (s : Builder) : Option Builder :=
  match s.frames with
  | .array _ :: _ => some { s with expectation := .value }
  | .object _ _ :: _ => some { s with expectation := .key }
  | [] => none

def step (s : Builder) (token : Token) : Option Builder :=
  match s.expectation with
  | .value => s.startValue? token
  | .valueOrClose => match token with
    | .closeArray => s.close? token
    | _ => s.startValue? token
  | .commaOrClose => match token with
    | .comma => s.takeComma?
    | _ => s.close? token
  | .key => s.takeKey? token
  | .keyOrClose => match token with
    | .closeObject => s.close? token
    | _ => s.takeKey? token
  | .colon => match token with
    | .colon => some { s with expectation := .value }
    | _ => none
  | .nothing => none

end Builder

/-- The value of a JSON text, or `none` if it is not one. -/
def ofText? (text : String) : Option Json := do
  let tokens ← Lexer.tokens? text.toList
  let s ← tokens.foldlM Builder.step {}
  s.result?

end ThingTypes.Json
