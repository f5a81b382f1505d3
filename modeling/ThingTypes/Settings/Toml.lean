import ThingTypes.Settings.Value
import ThingTypes.Text.Split

/-
  The part of TOML that settings files use: comments, headers of tables, and entries whose values
  are basic strings, truth values and integers. Each stands on a line of its own. A table has one
  header, and a key one entry.
-/

namespace ThingTypes.Toml

def isBlank (c : Char) : Bool := c = ' ' || c = '\t'

def skipBlanks (cs : List Char) : List Char := cs.dropWhile isBlank

/-- Control characters, except the tab, stand nowhere in a line. -/
def isControl (c : Char) : Bool := (c.toNat < 0x20 && c != '\t') || c.toNat = 0x7f

/-- Whether nothing is left of a line but blanks and a comment. -/
def isRest (cs : List Char) : Bool :=
  match skipBlanks cs with
  | [] => true
  | '#' :: comment => !comment.any isControl
  | _ => false

/-- The character with a number. Surrogates are no characters. -/
def charOf? (n : Nat) : Option Char :=
  if h : n.isValidChar then some (Char.ofNatAux n h) else none

/-- The character for the letter behind a backslash. -/
def escaped? (c : Char) : Option Char :=
  Entries.get? c [('b', '\x08'), ('t', '\t'), ('n', '\n'), ('f', '\x0c'), ('r', '\r'), ('"', '"'),
    ('\\', '\\')]

/-- The characters of a basic string up to its closing quote, and what comes behind it. -/
def stringBody? : List Char → Option (List Char × List Char)
  | '"' :: rest => some ([], rest)
  | '\\' :: 'u' :: a :: b :: c :: d :: rest => do
    let char ← (Text.natural? 16 [a, b, c, d]).bind charOf?
    let (cs, rest) ← stringBody? rest
    return (char :: cs, rest)
  | '\\' :: 'U' :: a :: b :: c :: d :: e :: f :: g :: h :: rest => do
    let char ← (Text.natural? 16 [a, b, c, d, e, f, g, h]).bind charOf?
    let (cs, rest) ← stringBody? rest
    return (char :: cs, rest)
  | '\\' :: c :: rest => do
    let char ← escaped? c
    let (cs, rest) ← stringBody? rest
    return (char :: cs, rest)
  | c :: rest =>
    if isControl c then none
    else do
      let (cs, rest) ← stringBody? rest
      return (c :: cs, rest)
  | [] => none

def isKeyChar (c : Char) : Bool := c.isAlphanum || c = '_' || c = '-'

/-- A key, bare or in quotes, and what comes behind it. -/
def key? : List Char → Option (String × List Char)
  | '"' :: rest => (stringBody? rest).map fun (cs, rest) => (String.ofList cs, rest)
  | cs =>
    let (key, rest) := cs.span isKeyChar
    if key.isEmpty then none else some (String.ofList key, rest)

/-- Digits without the underscores between them, if each of these stands between two digits. -/
def plainDigits? (base : Nat) : List Char → Option (List Char)
  | [] => none
  | [d] => (Text.digit? base d).map fun _ => [d]
  | d :: '_' :: rest => (Text.digit? base d).bind fun _ => (plainDigits? base rest).map (d :: ·)
  | d :: rest => (Text.digit? base d).bind fun _ => (plainDigits? base rest).map (d :: ·)

/-- A number in digits of a base other than ten. Zeros may stand in front. -/
def based? (base : Nat) (digits : List Char) : Option Int :=
  ((plainDigits? base digits).bind (Text.natural? base)).map Int.ofNat

/-- A number in decimal digits, with or without a sign. No zero stands in front of other digits. -/
def decimal? (word : List Char) : Option Int := do
  let (negative, digits) := Text.splitSign word
  let plain ← plainDigits? 10 digits
  if plain.head? = some '0' ∧ plain.length ≠ 1 then none
  else (Text.natural? 10 plain).map (Text.withSign negative)

/-- An integer that fits 64 bits: decimal, or behind a mark for the base. -/
def integer? (word : List Char) : Option Int :=
  let n? := match word with
    | '0' :: 'x' :: digits => based? 16 digits
    | '0' :: 'o' :: digits => based? 8 digits
    | '0' :: 'b' :: digits => based? 2 digits
    | _ => decimal? word
  n?.filter SettingsValue.fitsInteger

def isWordChar (c : Char) : Bool := c.isAlphanum || c = '_' || c = '+' || c = '-'

/-- A value, and what comes behind it. -/
def value? : List Char → Option (SettingsValue × List Char)
  | '"' :: rest => (stringBody? rest).map fun (cs, rest) => (.text (String.ofList cs), rest)
  | cs =>
    let (word, rest) := cs.span isWordChar
    if word = "true".toList then some (.bool true, rest)
    else if word = "false".toList then some (.bool false, rest)
    else (integer? word).map fun n => (.integer n, rest)

inductive Line where
  | blank
  | header (name : String)
  | entry (key : String) (value : SettingsValue)
deriving Repr, Inhabited

def line? (cs : List Char) : Option Line :=
  match skipBlanks cs with
  | '[' :: rest => do
    let (name, rest) ← key? (skipBlanks rest)
    match skipBlanks rest with
    | ']' :: rest => if isRest rest then some (.header name) else none
    | _ => none
  | cs =>
    if isRest cs then some .blank
    else do
      let (key, rest) ← key? cs
      match skipBlanks rest with
      | '=' :: rest =>
        let (value, rest) ← value? (skipBlanks rest)
        if isRest rest then some (.entry key value) else none
      | _ => none

/-- A document read up to some line: its entries, and the table that the last header opened. -/
structure Document where
  entries : List (String × SettingsValue) := []
  table? : Option String := none
deriving Inhabited

def Document.add? (d : Document) : Line → Option Document
  | .blank => some d
  | .header name =>
    if (ThingTypes.Entries.get? name d.entries).isSome then none
    else some { entries := d.entries ++ [(name, .table [])], table? := some name }
  | .entry key value =>
    match d.table? with
    | none =>
      if (ThingTypes.Entries.get? key d.entries).isSome then none
      else some { d with entries := d.entries ++ [(key, value)] }
    | some name =>
      match ThingTypes.Entries.get? name d.entries with
      | some (.table entries) =>
        if (ThingTypes.Entries.get? key entries).isSome then none
        else
          let table := SettingsValue.table (entries ++ [(key, value)])
          some { d with entries := ThingTypes.Entries.insert name table d.entries }
      | _ => none

/-- A mark at the start of a text that only says how it is encoded. -/
def byteOrderMark : Char := '\ufeff'

/-- The entries of a text. -/
def ofText? (text : String) : Option (List (String × SettingsValue)) := do
  let cs := match text.toList with
    | c :: cs => if c = byteOrderMark then cs else c :: cs
    | [] => []
  let lines ← (Text.lines cs).mapM line?
  let document ← lines.foldlM Document.add? {}
  return document.entries

/-! ## Writing -/

/-- A character inside a basic string. -/
def escape (c : Char) : List Char :=
  if c = '"' then ['\\', '"']
  else if c = '\\' then ['\\', '\\']
  else if c = '\x08' then ['\\', 'b']
  else if c = '\t' then ['\\', 't']
  else if c = '\n' then ['\\', 'n']
  else if c = '\x0c' then ['\\', 'f']
  else if c = '\r' then ['\\', 'r']
  else if isControl c then
    ['\\', 'u', '0', '0', (Nat.digitChar (c.toNat / 16)).toUpper,
      (Nat.digitChar (c.toNat % 16)).toUpper]
  else [c]

def basicString (s : String) : String :=
  String.ofList ('"' :: (s.toList.flatMap escape ++ ['"']))

def entry (key value : String) : String :=
  key ++ " = " ++ value ++ "\n"

def header (name : String) : String :=
  "[" ++ name ++ "]\n"

end ThingTypes.Toml
