import ThingTypes.Proofs.Identifier.Spelling

/-
  How the names of types are spelled. They are made of class names, which are letters and digits,
  and nothing sets a digit in front of them off. So a name starts with a capital letter, or with a
  digit that a text starts with by which something is named. As long as these texts are of ASCII,
  that is all that keeps a name from being a word of the target language (`IsTypeName.spec`).
-/

namespace ThingTypes.Identifier

variable {digits : Char → Prop} {text name : String}

/-- A capital letter, or one of the digits, and then letters and digits. -/
def IsTypeName (digits : Char → Prop) (name : String) : Prop :=
  ∃ first rest, name.toList = first :: rest ∧
    (first.isUpper = true ∨ first.isDigit = true ∧ digits first) ∧
    ∀ c ∈ rest, c.isAlphanum = true

/-- A text that types are named by. Its letters and numerals are those of ASCII, and if the first of
them is a digit, then names may start with it. -/
structure IsHint (digits : Char → Prop) (text : String) : Prop where
  ascii : AsciiWords text.toList
  digit : ∀ c ∈ text.toList.find? Unicode.isAlphanumeric, c.isDigit = true → digits c

theorem not_isDigit_of_isUpper {c : Char} (h : c.isUpper = true) : c.isDigit = false := by
  have halphanum := isAlphanum_of_isCapitalOrDigit (c := c) (by simp [isCapitalOrDigit, h])
  have hletter : c.isAlpha = true := Bool.or_eq_true_iff.mpr (.inl h)
  rw [(hasCases_of_isAlphanum halphanum).isDigit, hletter, Bool.not_true]

/-- In upper case a letter is a capital one and a digit is the same. -/
theorem toUpper_cases {c : Char} (h : c.isAlphanum = true) :
    c.toUpper.isUpper = true ∨ c.isDigit = true ∧ c.toUpper = c := by
  have hcases := hasCases_of_isAlphanum h
  rw [hcases.upper.1, hcases.isDigit, hcases.toUpper_eq_self, hcases.isLower]
  cases c.isAlpha <;> simp

/-! ## Names -/

theorem isTypeName_of_capital (hfirst : name.toList.head?.any Char.isUpper = true)
    (hchars : name.toList.all Char.isAlphanum = true) : IsTypeName digits name := by
  cases hname : name.toList with
  | nil => simp [hname] at hfirst
  | cons first rest =>
    rw [hname, List.all_cons, Bool.and_eq_true, List.all_eq_true] at hchars
    rw [hname] at hfirst
    exact ⟨first, rest, hname, .inl (by simpa using hfirst), hchars.2⟩

namespace IsTypeName

theorem chars (h : IsTypeName digits name) : ∀ c ∈ name.toList, c.isAlphanum = true := by
  obtain ⟨first, rest, hname, hfirst, hrest⟩ := h
  rw [hname]
  refine List.forall_mem_cons.mpr ⟨?_, hrest⟩
  refine isAlphanum_of_isCapitalOrDigit ?_
  rcases hfirst with hupper | ⟨hdigit, -⟩
  · simp [isCapitalOrDigit, hupper]
  · simp [isCapitalOrDigit, hdigit]

theorem append (h : IsTypeName digits name) (htext : ∀ c ∈ text.toList, c.isAlphanum = true) :
    IsTypeName digits (name ++ text) := by
  obtain ⟨first, rest, hname, hfirst, hrest⟩ := h
  refine ⟨first, rest ++ text.toList, ?_, hfirst, List.forall_mem_append.mpr ⟨hrest, htext⟩⟩
  rw [String.toList_append, hname, List.cons_append]

theorem append_number (h : IsTypeName digits name) (n : Nat) :
    IsTypeName digits (name ++ toString n) := by
  refine h.append fun c hc => ?_
  have hmem : c ∈ Nat.toDigits 10 n := by simpa [Nat.repr] using hc
  have hdigit : c.isDigit = true := Nat.isDigit_of_mem_toDigits (by decide) (by decide) hmem
  simp [Char.isAlphanum, hdigit]

/-- Types can be named by a name again. -/
theorem isHint (h : IsTypeName digits name) : IsHint digits name := by
  have hchars := h.chars
  refine ⟨fun c hc _ => lt_of_isAlphanum (hchars c hc), fun c hc hdigit => ?_⟩
  obtain ⟨first, rest, hname, hfirst, -⟩ := h
  rw [hname] at hc hchars
  rw [List.find?_cons_of_pos (isAlphanumeric_of_isAlphanum (hchars first List.mem_cons_self))] at hc
  obtain rfl : first = c := Option.some.inj hc
  rcases hfirst with hupper | ⟨-, hallowed⟩
  · exact absurd hdigit (by simp [not_isDigit_of_isUpper hupper])
  · exact hallowed

end IsTypeName

theorem isTypeName_rule : NameRule (IsTypeName digits) (IsTypeName digits) where
  append _ hfront hname := hfront.append hname.chars
  number n hname := hname.append_number n
  shared := isTypeName_of_capital rfl rfl

/-! ## Class names -/

theorem IsHint.className (h : IsHint digits text) (hne : className text ≠ "") :
    IsTypeName digits (className text) := by
  obtain ⟨hnil, -⟩ | ⟨first, rest, hfind, hchars, hcapital, hrest⟩ := classChars_spec h.ascii
  · exact absurd (congrArg String.ofList hnil) hne
  · have hmem : first ∈ text.toList := List.mem_of_find?_eq_some hfind
    have halphanumeric : Unicode.isAlphanumeric first = true := List.find?_some hfind
    have halphanum : first.isAlphanum = true := by
      have hlow := h.ascii first hmem halphanumeric
      rwa [Unicode.isAlphanumeric, if_pos hlow] at halphanumeric
    refine ⟨first.toUpper, rest, ?_, ?_, hrest⟩
    · rw [Identifier.className, String.toList_ofList, hchars]
    · rcases toUpper_cases halphanum with hupper | ⟨hdigit, hsame⟩
      · exact .inl hupper
      · rw [hsame]
        exact .inr ⟨hdigit, h.digit first hfind hdigit⟩

theorem IsHint.className_isHint (h : IsHint digits text) :
    IsHint digits (Identifier.className text) := by
  by_cases hne : Identifier.className text = ""
  · rw [hne]
    exact ⟨nofun, nofun⟩
  · exact (h.className hne).isHint

/-- The class name of a text, of which nothing may be left, with a name behind it. -/
theorem IsHint.className_append (h : IsHint digits text) (hname : IsTypeName digits name) :
    IsTypeName digits (Identifier.className text ++ name) := by
  by_cases hne : Identifier.className text = ""
  · rwa [hne, String.empty_append]
  · exact (h.className hne).append hname.chars

/-! ## Words -/

/-- A letter or an underscore. -/
def isWordStart (c : Char) : Bool :=
  c.isAlpha || c = '_'

/-- A letter or digit can start a word if it is no digit. -/
theorem isWordStart_of_isAlphanum {c : Char} (h : c.isAlphanum = true) :
    isWordStart c = !c.isDigit := by
  have hunderscore : c ≠ '_' := by
    rintro rfl
    exact absurd h (by decide)
  simp [isWordStart, hunderscore, (hasCases_of_isAlphanum h).isDigit]

/-- Reserved words start with a small letter, and no name of a type does. -/
theorem IsTypeName.not_isReserved (h : IsTypeName digits name) : isReserved name = false := by
  have hsmall : ∀ word ∈ reservedWords, word.toList.head?.any isCapitalOrDigit = false := by decide
  refine Bool.eq_false_iff.mpr fun hreserved => ?_
  have hother := hsmall name (List.contains_iff_mem.mp hreserved)
  obtain ⟨first, rest, hname, hfirst, -⟩ := h
  rw [hname, List.head?_cons, Option.any_some, isCapitalOrDigit, Bool.or_eq_false_iff] at hother
  rcases hfirst with hupper | ⟨hdigit, -⟩
  · exact absurd hupper (by simp [hother.1])
  · exact absurd hdigit (by simp [hother.2])

/-- The name of a type is no reserved word, and it is a word unless it starts with a digit, which is
then one that names may start with. -/
theorem IsTypeName.spec (h : IsTypeName digits name) :
    IsWord isCapitalOrDigit Char.isAlphanum name.toList ∧ isReserved name = false ∧
      (IsWord isWordStart isWordChar name.toList ↔ startsWithDigit name.toList = false) ∧
      (startsWithDigit name.toList = true → ∃ c ∈ name.toList.head?, digits c) := by
  have hreserved := h.not_isReserved
  have hchars := h.chars
  obtain ⟨first, rest, hname, hfirst, hrest⟩ := h
  rw [hname] at hchars
  rw [hname, startsWithDigit, List.head?_cons, Option.any_some]
  have hstart := isWordStart_of_isAlphanum (hchars first List.mem_cons_self)
  refine ⟨⟨first, rest, rfl, ?_, hrest⟩, hreserved, ⟨?_, fun hletter => ?_⟩, fun hdigit => ?_⟩
  · rcases hfirst with hupper | ⟨hdigit, -⟩
    · simp [isCapitalOrDigit, hupper]
    · simp [isCapitalOrDigit, hdigit]
  · rintro ⟨_, _, hsame, hword, -⟩
    obtain ⟨rfl, -⟩ := List.cons.inj hsame
    simpa [hstart] using hword
  · exact ⟨first, rest, rfl, by simp [hstart, hletter],
      fun c hc => isWordChar_of_isAlphanum (hrest c hc)⟩
  · rcases hfirst with hupper | ⟨-, hallowed⟩
    · exact absurd hdigit (by simp [not_isDigit_of_isUpper hupper])
    · exact ⟨first, rfl, hallowed⟩

end ThingTypes.Identifier
