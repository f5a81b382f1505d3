import ThingTypes.Proofs.Identifier.Plain

/-
  Names as words of the target language. A name is one character that may start it, followed by
  characters that may go on. Property names and constants are made of the letters and numerals of
  their text, so they are words of ASCII where those are of ASCII; a package segment leaves out all
  that is not. A leading digit and a reserved word are set off, and a text without letters and
  numerals has a name of its own.
-/

namespace ThingTypes.Identifier

/-! ## The grammar -/

/-- A character that may start a word, then characters that may go on. -/
def IsWord (starts goesOn : Char → Bool) (text : List Char) : Prop :=
  ∃ first rest, text = first :: rest ∧ starts first = true ∧ ∀ c ∈ rest, goesOn c = true

/-- The letters and numerals of a text are those of ASCII. Everything else is free. -/
def AsciiWords (text : List Char) : Prop :=
  ∀ c ∈ text, Unicode.isAlphanumeric c = true → c.toNat < 0x80

instance : DecidablePred AsciiWords := fun text =>
  List.decidableBAll (fun c => Unicode.isAlphanumeric c = true → c.toNat < 0x80) text

def isWordChar (c : Char) : Bool :=
  c.isAlphanum || c = '_'

/-- A small letter or an underscore. -/
def isSmallStart (c : Char) : Bool :=
  c.isLower || c = '_'

def isSmallChar (c : Char) : Bool :=
  isSmallStart c || c.isDigit

/-- A capital or a digit: what the first letter or numeral of a word becomes in upper case. -/
def isCapitalOrDigit (c : Char) : Bool :=
  c.isUpper || c.isDigit

def isConstantChar (c : Char) : Bool :=
  isCapitalOrDigit c || c = '_'

theorem IsWord.chars {text : List Char} (h : IsWord isCapitalOrDigit isConstantChar text) :
    ∀ c ∈ text, isConstantChar c = true := by
  obtain ⟨first, rest, rfl, hfirst, hrest⟩ := h
  exact List.forall_mem_cons.mpr ⟨by simp [isConstantChar, hfirst], hrest⟩

/-! ## Letters and digits of ASCII -/

theorem isAlphanumeric_of_isAlphanum {c : Char} (h : c.isAlphanum = true) :
    Unicode.isAlphanumeric c = true := by
  rwa [Unicode.isAlphanumeric, if_pos (lt_of_isAlphanum h)]

theorem toUpper_of_isAlphanum {c : Char} (h : c.isAlphanum = true) :
    Unicode.toUpper c = [c.toUpper] :=
  if_pos (lt_of_isAlphanum h)

theorem toLower_of_isAlphanum {c : Char} (h : c.isAlphanum = true) :
    Unicode.toLower c = [c.toLower] :=
  if_pos (lt_of_isAlphanum h)

/-- What the two cases of a letter or digit are: those of a letter are a capital and a small letter,
and a digit is the same in both. -/
@[mk_iff]
structure HasCases (c : Char) : Prop where
  isDigit : c.isDigit = !c.isAlpha
  isLower : c.isLower = (c.isAlpha && !c.isUpper)
  upper : c.toUpper.isUpper = c.isAlpha ∧ c.toUpper.isLower = false ∧ c.toUpper.isDigit = !c.isAlpha
  lower : c.toLower.isLower = c.isAlpha ∧ c.toLower.isUpper = false ∧ c.toLower.isDigit = !c.isAlpha
  toUpper_eq_self : c.toUpper = c ↔ c.isLower = false
  toLower_eq_self : c.toLower = c ↔ c.isUpper = false

instance : DecidablePred HasCases := fun c => decidable_of_iff' _ (hasCases_iff c)

theorem hasCases_of_isAlphanum {c : Char} (h : c.isAlphanum = true) : HasCases c :=
  forall_ascii (P := fun c => c.isAlphanum = true → HasCases c) (by decide +kernel)
    (lt_of_isAlphanum h) h

theorem isCapitalOrDigit_toUpper {c : Char} (h : c.isAlphanum = true) :
    isCapitalOrDigit c.toUpper = true := by
  obtain ⟨hupper, -, hdigit⟩ := (hasCases_of_isAlphanum h).upper
  rw [isCapitalOrDigit, hupper, hdigit, Bool.or_not_self]

theorem isAlphanum_toLower {c : Char} (h : c.isAlphanum = true) : c.toLower.isAlphanum = true := by
  obtain ⟨hlower, hupper, hdigit⟩ := (hasCases_of_isAlphanum h).lower
  unfold Char.isAlphanum Char.isAlpha
  rw [hupper, hlower, hdigit, Bool.false_or, Bool.or_not_self]

theorem isAlphanum_of_isCapitalOrDigit {c : Char} (h : isCapitalOrDigit c = true) :
    c.isAlphanum = true := by
  unfold isCapitalOrDigit at h
  unfold Char.isAlphanum Char.isAlpha
  grind

theorem isAlphanum_toUpper {c : Char} (h : c.isAlphanum = true) : c.toUpper.isAlphanum = true :=
  isAlphanum_of_isCapitalOrDigit (isCapitalOrDigit_toUpper h)

theorem isSmallChar_toLower {c : Char} (h : c.isAlphanum = true) :
    isSmallChar c.toLower = true := by
  obtain ⟨hlower, -, hdigit⟩ := (hasCases_of_isAlphanum h).lower
  rw [isSmallChar, isSmallStart, hlower, hdigit, Bool.or_right_comm, Bool.or_not_self, Bool.true_or]

theorem isWordChar_of_isAlphanum {c : Char} (h : c.isAlphanum = true) : isWordChar c = true := by
  simp [isWordChar, h]

/-! ## Words of a text -/

theorem ne_nil_of_mem_splitCase (cs : List Char) : ∀ word ∈ splitCase cs, word ≠ [] := by
  fun_induction splitCase cs with
  | case1 => simp
  | case2 c => simp
  | case3 c d rest words _ ih => exact List.forall_mem_cons.mpr ⟨List.cons_ne_nil _ _, ih⟩
  | case4 c d rest words _ hnone ih => simp
  | case5 c d rest words _ word others hwords ih =>
    refine List.forall_mem_cons.mpr ⟨List.cons_ne_nil _ _, fun other hother => ih other ?_⟩
    rw [show splitCase (d :: rest) = word :: others from hwords]
    exact List.mem_cons_of_mem _ hother

theorem exists_splitCase_cons (c : Char) (cs : List Char) :
    ∃ word others, splitCase (c :: cs) = (c :: word) :: others := by
  have hflatten := flatten_splitCase (c :: cs)
  cases hsplit : splitCase (c :: cs) with
  | nil =>
    rw [hsplit] at hflatten
    cases hflatten
  | cons first others =>
    have hne : first ≠ [] := ne_nil_of_mem_splitCase (c :: cs) first (hsplit ▸ List.mem_cons_self)
    obtain ⟨d, word, rfl⟩ := List.exists_cons_of_ne_nil hne
    rw [hsplit, List.flatten_cons, List.cons_append, List.cons.injEq] at hflatten
    exact ⟨word, others, by rw [hflatten.1]⟩

theorem ne_nil_of_mem_words {cs word : List Char} (h : word ∈ words cs) : word ≠ [] := by
  obtain ⟨piece, -, hword⟩ := List.mem_flatMap.mp h
  exact ne_nil_of_mem_splitCase piece word hword

/-- The words have the letters and numerals of the text, in order. -/
theorem flatten_words (cs : List Char) : (words cs).flatten = cs.filter Unicode.isAlphanumeric := by
  have hpieces : ∀ pieces : List (List Char),
      (pieces.flatMap splitCase).flatten = pieces.flatten := by
    intro pieces
    induction pieces with
    | nil => rfl
    | cons piece pieces ih => simp [flatten_splitCase, ih]
  rw [words, hpieces, Text.flatten_splitOn]
  simp

theorem isAlphanum_of_mem_words_of_ascii {cs word : List Char} (hascii : AsciiWords cs)
    (hword : word ∈ words cs) {c : Char} (hc : c ∈ word) : c.isAlphanum = true := by
  have hmem : c ∈ cs.filter Unicode.isAlphanumeric := by
    rw [← flatten_words]
    exact List.mem_flatten_of_mem hword hc
  obtain ⟨hmem, halphanumeric⟩ := List.mem_filter.mp hmem
  have hlow := hascii c hmem halphanumeric
  rwa [Unicode.isAlphanumeric, if_pos hlow] at halphanumeric

theorem flatMap_of_singletons {α β : Type} {f : α → List β} {g : α → β} {l : List α}
    (h : ∀ a ∈ l, f a = [g a]) : l.flatMap f = l.map g := by
  rw [List.flatMap_congr h]
  exact List.flatMap_pure_eq_map g l

theorem capitalize_of_isAlphanum {c : Char} {cs : List Char}
    (h : ∀ d ∈ c :: cs, d.isAlphanum = true) :
    capitalize (c :: cs) = c.toUpper :: cs.map Char.toLower := by
  obtain ⟨hc, hcs⟩ := List.forall_mem_cons.mp h
  rw [capitalize, toUpper_of_isAlphanum hc,
    flatMap_of_singletons fun d hd => toLower_of_isAlphanum (hcs d hd), List.singleton_append]

theorem isAlphanum_of_mem_capitalize {word : List Char} (h : ∀ c ∈ word, c.isAlphanum = true) :
    ∀ c ∈ capitalize word, c.isAlphanum = true := by
  cases word with
  | nil => simp [capitalize]
  | cons c cs =>
    rw [capitalize_of_isAlphanum h]
    obtain ⟨hc, hcs⟩ := List.forall_mem_cons.mp h
    refine List.forall_mem_cons.mpr ⟨isAlphanum_toUpper hc, ?_⟩
    exact List.forall_mem_map.mpr fun d hd => isAlphanum_toLower (hcs d hd)

/-! ## Class names -/

/-- A class name is letters and digits, and starts with the first letter or numeral of its text in
upper case. -/
theorem classChars_spec {cs : List Char} (hascii : AsciiWords cs) :
    classChars cs = [] ∧ cs.find? Unicode.isAlphanumeric = none ∨
      ∃ first rest, cs.find? Unicode.isAlphanumeric = some first ∧
        classChars cs = first.toUpper :: rest ∧ isCapitalOrDigit first.toUpper = true ∧
        ∀ c ∈ rest, c.isAlphanum = true := by
  have hfind : cs.find? Unicode.isAlphanumeric = (words cs).flatten.head? := by
    rw [flatten_words, List.head?_filter]
  have hchars : ∀ word ∈ words cs, ∀ c ∈ word, c.isAlphanum = true :=
    fun word hword c hc => isAlphanum_of_mem_words_of_ascii hascii hword hc
  rw [hfind, classChars]
  cases hwords : words cs with
  | nil => exact .inl ⟨rfl, rfl⟩
  | cons word others =>
    rw [hwords] at hchars
    obtain ⟨hword, hothers⟩ := List.forall_mem_cons.mp hchars
    have hmem : word ∈ words cs := hwords ▸ List.mem_cons_self
    obtain ⟨first, rest, rfl⟩ := List.exists_cons_of_ne_nil (ne_nil_of_mem_words hmem)
    have hcapital := capitalize_of_isAlphanum hword
    have hrest := isAlphanum_of_mem_capitalize hword
    rw [hcapital] at hrest
    refine .inr ⟨first, rest.map Char.toLower ++ others.flatMap capitalize, rfl, ?_,
      isCapitalOrDigit_toUpper (hword _ List.mem_cons_self), ?_⟩
    · rw [List.flatMap_cons, hcapital, List.cons_append]
    · refine List.forall_mem_append.mpr ⟨(List.forall_mem_cons.mp hrest).2, fun c hc => ?_⟩
      obtain ⟨other, hother, hc⟩ := List.mem_flatMap.mp hc
      exact isAlphanum_of_mem_capitalize (hothers other hother) c hc

/-! ## Property names -/

/-- No reserved word starts with an underscore. -/
theorem not_isReserved_underscore (cs : List Char) :
    isReserved (String.ofList ('_' :: cs)) = false := by
  have hheads : ∀ word ∈ reservedWords, word.toList.head? ≠ some '_' := by decide
  refine Bool.eq_false_iff.mpr fun hreserved => ?_
  exact hheads _ (List.contains_iff_mem.mp hreserved) (by rw [String.toList_ofList]; rfl)

/-- What is guarded is not reserved and starts with no digit. -/
theorem guarded_spec {goesOn : Char → Bool} {first : Char} {rest : List Char}
    (hfirst : isSmallChar first = true) (hchars : ∀ c ∈ first :: rest, goesOn c = true) :
    IsWord isSmallStart goesOn (guarded (first :: rest)) ∧
      isReserved (String.ofList (guarded (first :: rest))) = false := by
  unfold guarded
  split
  · exact ⟨⟨'_', first :: rest, rfl, by decide, hchars⟩, not_isReserved_underscore _⟩
  · rename_i hguard
    obtain ⟨hreserved, hdigit⟩ := Bool.or_eq_false_iff.mp (Bool.eq_false_iff.mpr hguard)
    refine ⟨⟨first, rest, rfl, ?_, (List.forall_mem_cons.mp hchars).2⟩, hreserved⟩
    simp only [startsWithDigit, List.head?_cons, Option.any_some] at hdigit
    simpa [isSmallChar, hdigit] using hfirst

theorem propertyName_spec {s : String} (hascii : AsciiWords s.toList) :
    IsWord isSmallStart isWordChar (propertyName s).toList ∧
      isReserved (propertyName s) = false := by
  unfold propertyName
  obtain ⟨hnone, -⟩ | ⟨letter, rest, -, hchars, hcapital, hrest⟩ := classChars_spec hascii
  · rw [hnone]
    exact ⟨⟨'_', "value".toList, rfl, by decide, List.all_eq_true.mp (by decide)⟩, by decide⟩
  · rw [hchars]
    have hfirst := isAlphanum_of_isCapitalOrDigit hcapital
    dsimp only
    rw [toLower_of_isAlphanum hfirst, List.singleton_append, String.toList_ofList]
    refine guarded_spec (isSmallChar_toLower hfirst) fun c hc => ?_
    rcases List.mem_cons.mp hc with rfl | hc
    · exact isWordChar_of_isAlphanum (isAlphanum_toLower hfirst)
    · exact isWordChar_of_isAlphanum (hrest c hc)

/-! ## Constants -/

/-- Words joined by underscores, if there are any. -/
theorem isWord_intercalate {texts : List (List Char)} (hne : texts ≠ [])
    (htexts : ∀ text ∈ texts, IsWord isCapitalOrDigit isConstantChar text) :
    IsWord isCapitalOrDigit isConstantChar (['_'].intercalate texts) := by
  induction texts with
  | nil => exact absurd rfl hne
  | cons text others ih =>
    obtain ⟨htext, hothers⟩ := List.forall_mem_cons.mp htexts
    cases others with
    | nil => simpa using htext
    | cons other others =>
      obtain ⟨first, rest, htext, hfirst, hrest⟩ := htext
      have hjoined := ih (List.cons_ne_nil _ _) hothers
      rw [List.intercalate_cons_cons, htext]
      refine ⟨first, rest ++ ['_'] ++ ['_'].intercalate (other :: others), by simp, hfirst, ?_⟩
      rw [List.append_assoc, List.forall_mem_append, List.forall_mem_append]
      exact ⟨hrest, List.all_eq_true.mp (by decide), hjoined.chars⟩

theorem isWord_uppercase {word : List Char} (hne : word ≠ [])
    (hchars : ∀ c ∈ word, c.isAlphanum = true) :
    IsWord isCapitalOrDigit isConstantChar (Unicode.uppercase word) := by
  obtain ⟨first, rest, rfl⟩ := List.exists_cons_of_ne_nil hne
  rw [Unicode.uppercase, flatMap_of_singletons fun c hc => toUpper_of_isAlphanum (hchars c hc)]
  obtain ⟨hfirst, hrest⟩ := List.forall_mem_cons.mp hchars
  refine ⟨first.toUpper, rest.map Char.toUpper, rfl, isCapitalOrDigit_toUpper hfirst, ?_⟩
  refine List.forall_mem_map.mpr fun c hc => ?_
  simp [isConstantChar, isCapitalOrDigit_toUpper (hrest c hc)]

theorem constantName_spec {s : String} (hascii : AsciiWords s.toList) :
    IsWord Char.isUpper isConstantChar (constantName s).toList := by
  have hwords : ∀ text ∈ (words s.toList).map Unicode.uppercase,
      IsWord isCapitalOrDigit isConstantChar text :=
    List.forall_mem_map.mpr fun word hword => isWord_uppercase (ne_nil_of_mem_words hword)
      fun c hc => isAlphanum_of_mem_words_of_ascii hascii hword hc
  unfold constantName
  by_cases hnone : (words s.toList).map Unicode.uppercase = []
  · rw [hnone]
    exact ⟨'V', "ALUE".toList, rfl, by decide, List.all_eq_true.mp (by decide)⟩
  · obtain ⟨first, rest, hname, hfirst, hrest⟩ := isWord_intercalate hnone hwords
    rw [hname]
    dsimp only
    rw [if_neg (by simp)]
    split
    · rw [String.toList_append, String.toList_ofList]
      refine ⟨'V', "ALUE_".toList ++ first :: rest, rfl, by decide, ?_⟩
      rw [List.forall_mem_append, List.forall_mem_cons]
      exact ⟨List.all_eq_true.mp (by decide), by simp [isConstantChar, hfirst], hrest⟩
    · rename_i hdigit
      rw [String.toList_ofList]
      simp only [startsWithDigit, List.head?_cons, Option.any_some] at hdigit
      refine ⟨first, rest, rfl, ?_, hrest⟩
      simpa [isCapitalOrDigit, hdigit] using hfirst

/-! ## Package segments -/

theorem packageSegment_spec (s : String) :
    IsWord isSmallStart isSmallChar (packageSegment s).toList ∧
      isReserved (packageSegment s) = false := by
  have hchars : ∀ c ∈ (s.toList.filter isSegmentChar).map Char.toLower, isSmallChar c = true := by
    refine List.forall_mem_map.mpr fun c hc => ?_
    have hsegment := (List.mem_filter.mp hc).2
    simp only [isSegmentChar, Bool.or_eq_true, decide_eq_true_eq] at hsegment
    rcases hsegment with halphanum | rfl
    · exact isSmallChar_toLower halphanum
    · decide
  unfold packageSegment
  cases hsegment : (s.toList.filter isSegmentChar).map Char.toLower with
  | nil =>
    exact ⟨⟨'f', "eature".toList, rfl, by decide, List.all_eq_true.mp (by decide)⟩, by decide⟩
  | cons first rest =>
    rw [hsegment] at hchars
    dsimp only
    rw [if_neg (by simp), String.toList_ofList]
    exact guarded_spec (hchars _ List.mem_cons_self) hchars

/-! ## All of them -/

/-- The names that are not those of types are words of the target language. -/
theorem names_are_words (s : String) :
    (AsciiWords s.toList →
      IsWord isSmallStart isWordChar (propertyName s).toList ∧
        isReserved (propertyName s) = false ∧
        IsWord Char.isUpper isConstantChar (constantName s).toList) ∧
      IsWord isSmallStart isSmallChar (packageSegment s).toList ∧
      isReserved (packageSegment s) = false := by
  refine ⟨fun hascii => ?_, packageSegment_spec s⟩
  obtain ⟨hword, hfree⟩ := propertyName_spec hascii
  exact ⟨hword, hfree, constantName_spec hascii⟩

/-- A digit in front, a sign beyond ASCII and a reserved word. -/
theorem names_are_words_of_signs :
    AsciiWords "2nd → class".toList ∧
      IsWord isSmallStart isWordChar (propertyName "2nd → class").toList ∧
      isReserved (propertyName "2nd → class") = false ∧
      IsWord Char.isUpper isConstantChar (constantName "2nd → class").toList := by
  have hascii : AsciiWords "2nd → class".toList := by decide +kernel
  exact ⟨hascii, (names_are_words "2nd → class").1 hascii⟩

end ThingTypes.Identifier
