import ThingTypes.Proofs.Identifier.Spelling
import ThingTypes.Proofs.Unicode.Letters

/-
  Class names that are made class names again. The words of a class name need not be the words that
  it was made of: two words of one letter each are joined to one word of two capitals, and the
  second one is made small then (`x-y` is `XY` and then `Xy`). A text is its own class name exactly
  if it is nothing but letters and numerals and its words are capitalised as they stand
  (`classChars_eq_self_iff`). For class names of ASCII texts that means that no word of one letter
  stands before a letter that no second one follows (`classChars_again_iff_of_ascii`).
-/

namespace ThingTypes.Identifier

open Unicode (isAlphanumeric toUpper toLower StartsWithLetter)

/-! ## Characters and what they are mapped to -/

/-- The characters of a word, each with what it is in the capitalised word. -/
def mappedChars : List Char → List (Char × List Char)
  | [] => []
  | c :: cs => (c, toUpper c) :: cs.map fun d => (d, toLower d)

theorem map_fst_mappedChars (word : List Char) : (mappedChars word).map Prod.fst = word := by
  cases word with
  | nil => rfl
  | cons c cs => simp [mappedChars, Function.comp_def]

theorem flatMap_snd_mappedChars (word : List Char) :
    (mappedChars word).flatMap Prod.snd = capitalize word := by
  cases word with
  | nil => rfl
  | cons c cs => simp [mappedChars, capitalize, List.flatMap_map]

theorem startsWithLetter_of_mem_mappedChars {word : List Char}
    (h : ∀ c ∈ word, isAlphanumeric c = true) :
    ∀ p ∈ mappedChars word, StartsWithLetter p.1 p.2 := by
  cases word with
  | nil => nofun
  | cons c cs =>
    obtain ⟨hc, hcs⟩ := List.forall_mem_cons.mp h
    refine List.forall_mem_cons.mpr ⟨Unicode.startsWithLetter_toUpper hc, ?_⟩
    exact List.forall_mem_map.mpr fun d hd => Unicode.startsWithLetter_toLower (hcs d hd)

/-- If the letters and numerals that are made are the characters that they are made of, then nothing
else is made. -/
theorem eq_singleton_of_filter_eq {mapped : List (Char × List Char)}
    (hletters : ∀ p ∈ mapped, StartsWithLetter p.1 p.2)
    (h : (mapped.flatMap Prod.snd).filter isAlphanumeric = mapped.map Prod.fst) :
    ∀ p ∈ mapped, p.2 = [p.1] := by
  induction mapped with
  | nil => nofun
  | cons p mapped ih =>
    obtain ⟨⟨first, rest, hp, hfirst, hrest⟩, hothers⟩ := List.forall_mem_cons.mp hletters
    rw [List.flatMap_cons, hp, List.cons_append, List.filter_cons, if_pos hfirst,
      List.filter_append, List.map_cons, List.cons.injEq] at h
    obtain ⟨hsame, h⟩ := h
    rw [hrest hsame, List.filter_nil, List.nil_append] at h
    refine List.forall_mem_cons.mpr ⟨?_, ih hothers h⟩
    rw [hp, hrest hsame, hsame]

theorem classChars_of_capitalized {cs : List Char}
    (h : ∀ word ∈ words cs, capitalize word = word) : classChars cs = cs.filter isAlphanumeric :=
  calc classChars cs = (words cs).flatMap id := List.flatMap_congr h
    _ = cs.filter isAlphanumeric := by rw [List.flatMap_id, flatten_words]

/-- A text is its own class name exactly if it is letters and numerals and its words are capitalised
as they stand. -/
theorem classChars_eq_self_iff {cs : List Char} :
    classChars cs = cs ↔
      (∀ c ∈ cs, isAlphanumeric c = true) ∧ ∀ word ∈ words cs, capitalize word = word := by
  constructor
  · intro h
    have hmapped : ((words cs).flatMap mappedChars).flatMap Prod.snd = cs := by
      rw [List.flatMap_assoc]
      simp only [flatMap_snd_mappedChars]
      exact h
    have hchars : ((words cs).flatMap mappedChars).map Prod.fst = cs.filter isAlphanumeric := by
      rw [List.map_flatMap, ← flatten_words]
      simp only [map_fst_mappedChars]
      exact List.flatMap_id'
    have hsame : ∀ p ∈ (words cs).flatMap mappedChars, p.2 = [p.1] := by
      refine eq_singleton_of_filter_eq (fun p hp => ?_) (by rw [hmapped, hchars])
      obtain ⟨word, hword, hp⟩ := List.mem_flatMap.mp hp
      exact startsWithLetter_of_mem_mappedChars (isAlphanumeric_of_mem_words hword) p hp
    have hwords : ∀ word ∈ words cs, capitalize word = word := by
      intro word hword
      rw [← flatMap_snd_mappedChars, flatMap_of_singletons fun p hp =>
        hsame p (List.mem_flatMap.mpr ⟨word, hword, hp⟩), map_fst_mappedChars]
    rw [classChars_of_capitalized hwords] at h
    exact ⟨List.filter_eq_self.mp h, hwords⟩
  · rintro ⟨hchars, hwords⟩
    rw [classChars_of_capitalized hwords, List.filter_eq_self.mpr hchars]

theorem className_eq_self_iff {text : String} :
    className text = text ↔ classChars text.toList = text.toList := by
  rw [← String.toList_inj, className, String.toList_ofList]

/-- A class name is a class name again exactly if the characters are. -/
theorem className_again_eq_iff {text : String} :
    className (className text) = className text ↔
      classChars (classChars text.toList) = classChars text.toList := by
  rw [className_eq_self_iff, className, String.toList_ofList]

/-! ## One character after the other -/

/-- What the class name of a run has for the characters behind its first one, `c`. -/
def recased (c : Char) : List Char → List Char
  | [] => []
  | d :: rest => (if startsWord c d rest.head? then toUpper d else toLower d) ++ recased d rest

theorem flatMap_capitalize_splitCase (cs : List Char) :
    ∀ c, (splitCase (c :: cs)).flatMap capitalize = toUpper c ++ recased c cs := by
  induction cs with
  | nil => simp [splitCase, capitalize, recased]
  | cons d rest ih =>
    intro c
    have hrest := ih d
    rw [splitCase, recased]
    split
    · rw [List.flatMap_cons, hrest]
      simp [capitalize]
    · -- the word goes on: the characters behind `d` are spelled as if `d` began it
      obtain ⟨word, others, hsplit⟩ := exists_splitCase_cons d rest
      rw [hsplit, List.flatMap_cons, capitalize, List.append_assoc, List.append_cancel_left_eq]
        at hrest
      rw [hsplit]
      simp [capitalize, ← hrest]

/-- A text of letters and numerals is one run. -/
theorem words_of_isAlphanumeric {cs : List Char} (h : ∀ c ∈ cs, isAlphanumeric c = true) :
    words cs = splitCase cs := by
  have hpiece : Text.splitOn (!isAlphanumeric ·) cs = [cs] := by
    rw [Text.splitOn_eq_splitOnP]
    exact List.splitOnP_eq_singleton fun c hc => by simp [h c hc]
  rw [words, hpiece, List.flatMap_singleton]

/-! ## Letters and digits of ASCII -/

theorem isUppercase_of_isAlphanum {c : Char} (h : c.isAlphanum = true) :
    Unicode.isUppercase c = c.isUpper :=
  if_pos (lt_of_isAlphanum h)

theorem isLowercase_of_isAlphanum {c : Char} (h : c.isAlphanum = true) :
    Unicode.isLowercase c = c.isLower :=
  if_pos (lt_of_isAlphanum h)

theorem toUpper_of_isUpper {c : Char} (h : c.isAlphanum = true) (hupper : c.isUpper = true) :
    c.toUpper = c := by
  have hcases := hasCases_of_isAlphanum h
  rw [hcases.toUpper_eq_self, hcases.isLower, hupper, Bool.not_true, Bool.and_false]

theorem isUpper_of_mem_map_toLower {cs : List Char} (h : ∀ c ∈ cs, c.isAlphanum = true) :
    ∀ c ∈ cs.map Char.toLower, c.isUpper = false :=
  List.forall_mem_map.mpr fun c hc => (hasCases_of_isAlphanum (h c hc)).lower.2.1

/-- The class name of a text of letters and digits. -/
theorem classChars_cons_of_ascii {c : Char} {cs : List Char}
    (h : ∀ d ∈ c :: cs, d.isAlphanum = true) :
    classChars (c :: cs) = c.toUpper :: recased c cs := by
  rw [classChars, words_of_isAlphanumeric fun d hd => isAlphanumeric_of_isAlphanum (h d hd),
    flatMap_capitalize_splitCase, toUpper_of_isAlphanum (h c List.mem_cons_self)]
  rfl

/-- Every capital behind the first character, `c`, starts a word. -/
def CapitalsStart (c : Char) : List Char → Prop
  | [] => True
  | d :: rest => (d.isUpper = true → startsWord c d rest.head? = true) ∧ CapitalsStart d rest

theorem recased_eq_self_iff {cs : List Char} (h : ∀ d ∈ cs, d.isAlphanum = true) :
    ∀ c, recased c cs = cs ↔ CapitalsStart c cs := by
  induction cs with
  | nil => exact fun _ => iff_of_true rfl trivial
  | cons d rest ih =>
    intro c
    obtain ⟨hd, hrest⟩ := List.forall_mem_cons.mp h
    rw [recased, CapitalsStart, ← ih hrest d]
    cases hstarts : startsWord c d rest.head? with
    | true =>
      have hupper : d.isUpper = true := by
        rw [startsWord, Bool.and_eq_true, isUppercase_of_isAlphanum hd] at hstarts
        exact hstarts.1
      rw [if_pos rfl, toUpper_of_isAlphanum hd, toUpper_of_isUpper hd hupper]
      simp
    | false =>
      rw [if_neg Bool.false_ne_true, toLower_of_isAlphanum hd, List.singleton_append,
        List.cons.injEq, (hasCases_of_isAlphanum hd).toLower_eq_self]
      simp

/-! ## Where words are joined -/

/-- A word of one letter before a letter that no second one follows: the two are one word when they
are joined. -/
def sticks : List Char → List Char → Bool
  | [c], d :: rest => c.isAlpha && d.isAlpha && !rest.head?.any Char.isAlpha
  | _, _ => false

/-- In a text that goes on with small letters and digits, capitals start words if they do behind
it. -/
theorem capitalsStart_append {cs : List Char} (h : ∀ d ∈ cs, d.isUpper = false) (rest : List Char) :
    ∀ c, CapitalsStart c (cs ++ rest) ↔
      CapitalsStart ((c :: cs).getLast (List.cons_ne_nil _ _)) rest := by
  induction cs with
  | nil => exact fun _ => Iff.rfl
  | cons d cs ih =>
    intro c
    obtain ⟨hd, hcs⟩ := List.forall_mem_cons.mp h
    rw [List.cons_append, CapitalsStart, ih hcs d, List.getLast_cons_cons]
    simp [hd]

/-- What a capitalised word ends in: its only character in upper case, or a small one. -/
theorem getLast_capitalized {c : Char} {cs : List Char} (h : ∀ d ∈ c :: cs, d.isAlphanum = true) :
    cs = [] ∧ (c.toUpper :: cs.map Char.toLower).getLast (List.cons_ne_nil _ _) = c.toUpper ∨
      cs ≠ [] ∧ ∃ d : Char, d.isAlphanum = true ∧
        (c.toUpper :: cs.map Char.toLower).getLast (List.cons_ne_nil _ _) = d.toLower := by
  cases cs with
  | nil => exact .inl ⟨rfl, rfl⟩
  | cons d rest =>
    refine .inr ⟨List.cons_ne_nil _ _, (d :: rest).getLast (List.cons_ne_nil _ _), ?_, ?_⟩
    · exact h _ (List.mem_cons_of_mem _ (List.getLast_mem _))
    · rw [List.getLast_cons (by simp), List.getLast_map]

/-- After its first character, a capitalised word goes on with a small letter if it does with a
letter, and what follows it starts with none. -/
theorem any_isLowercase_head {cs rest : List Char} (h : ∀ d ∈ cs, d.isAlphanum = true)
    (hrest : rest.head?.any Unicode.isLowercase = false) :
    (cs.map Char.toLower ++ rest).head?.any Unicode.isLowercase = cs.head?.any Char.isAlpha := by
  cases cs with
  | nil => simpa using hrest
  | cons d cs =>
    have hd := h d List.mem_cons_self
    simp [isLowercase_of_isAlphanum (isAlphanum_toLower hd), (hasCases_of_isAlphanum hd).lower.1]

/-- Where two words are joined, the capital of the second one starts a word unless they stick. -/
theorem startsWord_joined_iff {c d : Char} {cs ds rest : List Char}
    (hcs : ∀ a ∈ c :: cs, a.isAlphanum = true) (hds : ∀ a ∈ d :: ds, a.isAlphanum = true)
    (hrest : rest.head?.any Unicode.isLowercase = false) :
    (d.toUpper.isUpper = true →
        startsWord ((c.toUpper :: cs.map Char.toLower).getLast (List.cons_ne_nil _ _)) d.toUpper
          (ds.map Char.toLower ++ rest).head? = true) ↔
      sticks (c :: cs) (d :: ds) = false := by
  obtain ⟨hd, hds⟩ := List.forall_mem_cons.mp hds
  have hc := hcs c List.mem_cons_self
  have hcapital := (hasCases_of_isAlphanum hd).upper.1
  have hupper : Unicode.isUppercase d.toUpper = d.isAlpha := by
    rw [isUppercase_of_isAlphanum (isAlphanum_toUpper hd), hcapital]
  rw [startsWord, any_isLowercase_head hds hrest, hcapital, hupper]
  rcases getLast_capitalized hcs with ⟨rfl, hlast⟩ | ⟨hne, a, ha, hlast⟩
  · obtain ⟨hfirst, hsmall, hdigit⟩ := (hasCases_of_isAlphanum hc).upper
    rw [hlast, isLowercase_of_isAlphanum (isAlphanum_toUpper hc),
      isUppercase_of_isAlphanum (isAlphanum_toUpper hc), hsmall, hdigit, hfirst, sticks]
    cases c.isAlpha <;> cases d.isAlpha <;> cases ds.head?.any Char.isAlpha <;> decide
  · have hsmall : (Unicode.isLowercase a.toLower || a.toLower.isDigit) = true := by
      obtain ⟨hlower, -, hdigit⟩ := (hasCases_of_isAlphanum ha).lower
      rw [isLowercase_of_isAlphanum (isAlphanum_toLower ha), hlower, hdigit, Bool.or_not_self]
    obtain ⟨b, bs, rfl⟩ := List.exists_cons_of_ne_nil hne
    rw [hlast, hsmall, sticks.eq_2 _ _ (by simp)]
    simp

theorem head_capitalized_not_small {texts : List (List Char)}
    (h : ∀ word ∈ texts, word ≠ [] ∧ ∀ c ∈ word, c.isAlphanum = true) :
    (texts.flatMap capitalize).head?.any Unicode.isLowercase = false := by
  cases texts with
  | nil => rfl
  | cons word texts =>
    obtain ⟨hne, hchars⟩ := h word List.mem_cons_self
    obtain ⟨c, cs, rfl⟩ := List.exists_cons_of_ne_nil hne
    have hc := hchars c List.mem_cons_self
    rw [List.flatMap_cons, capitalize_of_isAlphanum hchars, List.cons_append, List.head?_cons,
      Option.any_some, isLowercase_of_isAlphanum (isAlphanum_toUpper hc)]
    exact (hasCases_of_isAlphanum hc).upper.2.1

/-- Behind a word, all capitals of the words that follow start words exactly if no two words stick
together. -/
theorem capitalsStart_words_iff {texts : List (List Char)}
    (h : ∀ word ∈ texts, word ≠ [] ∧ ∀ c ∈ word, c.isAlphanum = true) :
    ∀ {c : Char} {cs : List Char}, (∀ d ∈ c :: cs, d.isAlphanum = true) →
      (CapitalsStart ((c.toUpper :: cs.map Char.toLower).getLast (List.cons_ne_nil _ _))
          (texts.flatMap capitalize) ↔
        ((c :: cs) :: texts).IsChain fun u v => sticks u v = false) := by
  induction texts with
  | nil => exact fun _ => iff_of_true trivial (.singleton _)
  | cons word texts ih =>
    intro c cs hcs
    obtain ⟨⟨hne, hchars⟩, hothers⟩ := List.forall_mem_cons.mp h
    obtain ⟨d, ds, rfl⟩ := List.exists_cons_of_ne_nil hne
    have hsmall := isUpper_of_mem_map_toLower (List.forall_mem_cons.mp hchars).2
    rw [List.flatMap_cons, capitalize_of_isAlphanum hchars, List.cons_append, CapitalsStart,
      startsWord_joined_iff hcs hchars (head_capitalized_not_small hothers),
      capitalsStart_append hsmall, ih hothers hchars, List.isChain_cons_cons]

/-- The class name of a text of ASCII is its own class name exactly if no two of its words stick
together. -/
theorem classChars_again_iff_of_ascii {cs : List Char} (hascii : AsciiWords cs) :
    classChars (classChars cs) = classChars cs ↔
      (words cs).IsChain fun u v => sticks u v = false := by
  have hchars : ∀ word ∈ words cs, word ≠ [] ∧ ∀ c ∈ word, c.isAlphanum = true := fun word hword =>
    ⟨ne_nil_of_mem_words hword, fun c hc => isAlphanum_of_mem_words_of_ascii hascii hword hc⟩
  have hname : ∀ c ∈ classChars cs, c.isAlphanum = true := by
    intro c hc
    obtain ⟨word, hword, hc⟩ := List.mem_flatMap.mp hc
    exact isAlphanum_of_mem_capitalize (hchars word hword).2 c hc
  unfold classChars at hname
  cases hwords : words cs with
  | nil =>
    have hempty : classChars cs = [] := by simp [classChars, hwords]
    rw [hempty]
    exact iff_of_true rfl .nil
  | cons word texts =>
    rw [hwords] at hchars hname
    obtain ⟨⟨hne, hword⟩, hothers⟩ := List.forall_mem_cons.mp hchars
    obtain ⟨c, rest, rfl⟩ := List.exists_cons_of_ne_nil hne
    have hspelled : classChars cs =
        c.toUpper :: (rest.map Char.toLower ++ texts.flatMap capitalize) := by
      rw [classChars, hwords, List.flatMap_cons, capitalize_of_isAlphanum hword, List.cons_append]
    rw [List.flatMap_cons, capitalize_of_isAlphanum hword, List.cons_append] at hname
    have hc := hword c List.mem_cons_self
    have hcapital : c.toUpper.toUpper = c.toUpper :=
      (hasCases_of_isAlphanum (isAlphanum_toUpper hc)).toUpper_eq_self.mpr
        (hasCases_of_isAlphanum hc).upper.2.1
    have hsmall := isUpper_of_mem_map_toLower (List.forall_mem_cons.mp hword).2
    rw [hspelled, classChars_cons_of_ascii hname, hcapital, List.cons.injEq,
      recased_eq_self_iff (List.forall_mem_cons.mp hname).2, capitalsStart_append hsmall,
      capitalsStart_words_iff hothers hword]
    exact and_iff_right rfl

end ThingTypes.Identifier
