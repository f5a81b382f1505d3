import ThingTypes.Kotlin.Profile
import Mathlib.Data.List.Basic

/-
  String literals read back. A reader of the target language takes a string literal up to the first
  quote that is not escaped, each escape for its character and every other character for itself. It
  takes exactly the literal that is printed for a text, whatever follows it, and gives that text:
  nothing in a name or a value ends its literal or starts a template in it.
-/

namespace ThingTypes.Kotlin

/-! ## The reader -/

/-- The character that a letter behind a backslash stands for. -/
def escapedChar? (letter : Char) : Option Char :=
  [('"', '"'), ('\\', '\\'), ('$', '$'), ('n', '\n'), ('r', '\r'), ('t', '\t')].lookup letter

/-- The value of a string behind its opening quote, and what follows its closing one. -/
def readString? : List Char → Option (List Char × List Char)
  | [] => none
  | c :: text =>
    if c = '"' then some ([], text)
    else if c = '\\' then
      match text with
      | [] => none
      | letter :: text => do
        let c ← escapedChar? letter
        let (value, rest) ← readString? text
        return (c :: value, rest)
    else do
      let (value, rest) ← readString? text
      return (c :: value, rest)

/-- The value of a string literal at the start of a text, and what follows it. -/
def readLiteral? : List Char → Option (List Char × List Char)
  | '"' :: text => readString? text
  | _ => none

/-- The characters of a text that are no part of an escape. -/
def unescaped : List Char → List Char
  | [] => []
  | [c] => [c]
  | c :: d :: text => if c = '\\' then unescaped text else c :: unescaped (d :: text)

/-! ## One character -/

theorem readString?_quote (rest : List Char) : readString? ('"' :: rest) = some ([], rest) := by
  rw [readString?.eq_def]
  rfl

theorem readString?_escape {letter c : Char} (h : escapedChar? letter = some c)
    (text : List Char) :
    readString? ('\\' :: letter :: text) = (readString? text).map fun r => (c :: r.1, r.2) := by
  rw [readString?, if_neg (by decide), if_pos rfl, h]
  cases readString? text <;> rfl

theorem readString?_plain {c : Char} (hquote : c ≠ '"') (hbackslash : c ≠ '\\')
    (text : List Char) :
    readString? (c :: text) = (readString? text).map fun r => (c :: r.1, r.2) := by
  rw [readString?.eq_def]
  dsimp only
  rw [if_neg hquote, if_neg hbackslash]
  cases readString? text <;> rfl

/-- The reader takes what is printed for a character for that character. -/
theorem readString?_literalChar_append (c : Char) (text : List Char) :
    readString? (literalChar c ++ text) = (readString? text).map fun r => (c :: r.1, r.2) := by
  unfold literalChar
  split_ifs with hquote hbackslash hdollar hn hr ht
  case neg => exact readString?_plain hquote hbackslash text
  all_goals
    subst c
    exact readString?_escape rfl text

/-- Apart from escapes nothing but the character itself is printed for it, and it is neither a quote
nor a dollar sign then. -/
theorem unescaped_literalChar_append (c : Char) (text : List Char) :
    unescaped (literalChar c ++ text) = unescaped text ∨
      c ≠ '"' ∧ c ≠ '$' ∧ unescaped (literalChar c ++ text) = c :: unescaped text := by
  unfold literalChar
  split_ifs with hquote hbackslash hdollar hn hr ht
  case neg =>
    refine .inr ⟨hquote, hdollar, ?_⟩
    cases text <;> simp [unescaped, hbackslash]
  all_goals exact .inl (by cases text <;> simp [unescaped])

theorem not_lineBreak_of_mem_literalChar {c d : Char} (hd : d ∈ literalChar c) :
    d ≠ '\n' ∧ d ≠ '\r' := by
  unfold literalChar at hd
  split_ifs at hd with hquote hbackslash hdollar hn hr ht
  case neg =>
    rw [List.mem_singleton.mp hd]
    exact ⟨hn, hr⟩
  all_goals
    simp only [List.mem_cons, List.not_mem_nil, or_false] at hd
    obtain rfl | rfl := hd <;> decide

/-! ## Texts -/

theorem readString?_flatMap_literalChar (text rest : List Char) :
    readString? (text.flatMap literalChar ++ '"' :: rest) = some (text, rest) := by
  induction text with
  | nil => exact readString?_quote rest
  | cons c cs ih =>
    rw [List.flatMap_cons, List.append_assoc, readString?_literalChar_append, ih]
    rfl

theorem not_mem_unescaped_flatMap_literalChar (text : List Char) :
    ∀ c ∈ unescaped (text.flatMap literalChar), c ≠ '"' ∧ c ≠ '$' := by
  induction text with
  | nil => simp [unescaped]
  | cons d text ih =>
    rw [List.flatMap_cons]
    obtain hescape | ⟨hquote, hdollar, hplain⟩ :=
      unescaped_literalChar_append d (text.flatMap literalChar)
    · rwa [hescape]
    · rw [hplain]
      exact List.forall_mem_cons.mpr ⟨⟨hquote, hdollar⟩, ih⟩

/-- A string literal is read to its end, as the text that it was printed for. Between its quotes
there are no line breaks, and no quote and no dollar sign but escaped ones. -/
theorem stringLiteral_reads_back (s : String) (rest : List Char) :
    readLiteral? ((stringLiteral s).toList ++ rest) = some (s.toList, rest) ∧
      ∃ body, (stringLiteral s).toList = '"' :: (body ++ ['"']) ∧
        (∀ c ∈ body, c ≠ '\n' ∧ c ≠ '\r') ∧ ∀ c ∈ unescaped body, c ≠ '"' ∧ c ≠ '$' := by
  have hliteral : (stringLiteral s).toList = '"' :: (s.toList.flatMap literalChar ++ ['"']) := by
    rw [stringLiteral, String.toList_ofList]
  refine ⟨?_, s.toList.flatMap literalChar, hliteral, fun c hc => ?_,
    not_mem_unescaped_flatMap_literalChar s.toList⟩
  · rw [hliteral, List.cons_append, List.append_assoc]
    exact readString?_flatMap_literalChar s.toList rest
  · obtain ⟨d, -, hc⟩ := List.mem_flatMap.mp hc
    exact not_lineBreak_of_mem_literalChar hc

end ThingTypes.Kotlin
