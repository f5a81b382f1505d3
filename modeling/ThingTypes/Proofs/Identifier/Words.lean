import ThingTypes.Proofs.Identifier.Spelling
import ThingTypes.Proofs.Unicode.Letters

/-
  The words of a text. They have its letters and numerals and nothing else, and they are divided
  behind a character unless a run goes on there without a new word: at every separator, and inside
  a run before a capital that follows a small letter or a digit, or that follows a capital and
  stands before a small letter. No other list of words is so (`words_eq_iff`).

  A word does not say where in the text it stands. A place of the text divides the words if the
  first of them have the letters and numerals before it, and the others those behind it
  (`DividesAt`).

  Both the words and what is said of them are taken up from the end of the text: a separator in
  front changes nothing, and a letter in front becomes a word of its own or joins the first one
  (`withLetter`).
-/

namespace ThingTypes.Identifier

open Unicode (isAlphanumeric isUppercase isLowercase)

/-! ## Words and places of a text -/

/-- The first words have the letters and numerals before a place of the text, and the others have
those after it. -/
def DividesAt (texts : List (List Char)) (before after : List Char) : Prop :=
  ∃ front back, texts = front ++ back ∧
    front.flatten = before.filter isAlphanumeric ∧ back.flatten = after.filter isAlphanumeric

/-- In a run, a word starts at `d`, which follows `c` and stands before `after`. -/
def StartsAt (c d : Char) (after : List Char) : Prop :=
  isUppercase d = true ∧
    ((isLowercase c = true ∨ c.isDigit = true) ∨
      isUppercase c = true ∧ ∃ e ∈ after.head?, isLowercase e = true)

/-- Words are divided behind `c`: if a run goes on there, then a word starts. -/
def BreaksAt (c : Char) (after : List Char) : Prop :=
  ∀ d ∈ after.head?, isAlphanumeric c = true → isAlphanumeric d = true → StartsAt c d after.tail

/-- Words that have the letters and numerals of a text, each some of them, and that are divided
behind the characters where they should be and nowhere else. -/
structure IsDivision (cs : List Char) (texts : List (List Char)) : Prop where
  flatten_eq : texts.flatten = cs.filter isAlphanumeric
  ne_nil : ∀ word ∈ texts, word ≠ []
  dividesAt_iff (before : List Char) {c : Char} {after : List Char}
    (h : cs = before ++ c :: after) : DividesAt texts (before ++ [c]) after ↔ BreaksAt c after

/-- Behind the first word. -/
theorem dividesAt_cons_iff {word : List Char} {texts : List (List Char)} {before after : List Char}
    (hbefore : before.filter isAlphanumeric ≠ []) :
    DividesAt (word :: texts) before after ↔
      ∃ front back, texts = front ++ back ∧
        word ++ front.flatten = before.filter isAlphanumeric ∧
        back.flatten = after.filter isAlphanumeric := by
  constructor
  · rintro ⟨front, back, htexts, hfront, hback⟩
    cases front with
    | nil => exact absurd hfront.symm hbefore
    | cons first front =>
      obtain ⟨rfl, rfl⟩ := List.cons.inj htexts
      exact ⟨front, back, rfl, hfront, hback⟩
  · rintro ⟨front, back, rfl, hfront, hback⟩
    exact ⟨word :: front, back, rfl, hfront, hback⟩

theorem not_dividesAt_nil {before after : List Char}
    (hbefore : before.filter isAlphanumeric ≠ []) : ¬DividesAt [] before after := by
  rintro ⟨front, back, hnone, hfront, -⟩
  obtain ⟨rfl, -⟩ := List.append_eq_nil_iff.mp hnone.symm
  exact hbefore hfront.symm

theorem isDivision_nil_iff {texts : List (List Char)} : IsDivision [] texts ↔ texts = [] := by
  constructor
  · intro h
    refine List.eq_nil_iff_forall_not_mem.mpr fun word hword => h.ne_nil word hword ?_
    exact List.flatten_eq_nil_iff.mp h.flatten_eq word hword
  · rintro rfl
    exact ⟨rfl, nofun, fun _ _ _ h => absurd h (by simp)⟩

/-! ## A separator in front -/

section Separator

variable {c : Char} {cs : List Char} (hc : isAlphanumeric c = false)
include hc

theorem words_cons_of_separator : words (c :: cs) = words cs := by
  unfold words
  rw [Text.splitOn, if_pos (by simp [hc]), List.flatMap_cons]
  rfl

theorem isDivision_cons_of_separator_iff {texts : List (List Char)} :
    IsDivision (c :: cs) texts ↔ IsDivision cs texts := by
  have hfilter (before : List Char) :
      (c :: before).filter isAlphanumeric = before.filter isAlphanumeric := by simp [hc]
  have hplace {before after : List Char} :
      DividesAt texts (c :: before) after ↔ DividesAt texts before after := by
    rw [DividesAt, DividesAt, hfilter]
  constructor <;> intro h
  · refine ⟨h.flatten_eq.trans (hfilter cs), h.ne_nil, ?_⟩
    rintro before b after rfl
    rw [← h.dividesAt_iff (c :: before) rfl]
    exact hplace.symm
  · refine ⟨h.flatten_eq.trans (hfilter cs).symm, h.ne_nil, ?_⟩
    rintro (_ | ⟨_, before⟩) b after heq <;> obtain ⟨rfl, rfl⟩ := List.cons.inj heq
    · refine iff_of_true ⟨[], texts, rfl, (hfilter []).symm, h.flatten_eq⟩ fun d _ hletter => ?_
      rw [hc] at hletter
      cases hletter
    · exact hplace.trans (h.dividesAt_iff before rfl)

end Separator

/-! ## A letter in front -/

/-- Whether a letter is the last one of its word. -/
def endsWord (c : Char) : List Char → Bool
  | [] => true
  | d :: rest => !isAlphanumeric d || startsWord c d rest.head?

theorem exists_cons_of_not_endsWord {c : Char} {cs : List Char} (h : ¬endsWord c cs = true) :
    ∃ d rest, cs = d :: rest ∧ isAlphanumeric d = true := by
  cases cs with
  | nil => exact absurd rfl h
  | cons d rest =>
    rw [endsWord, Bool.or_eq_true, not_or, Bool.not_eq_true'] at h
    exact ⟨d, rest, rfl, Bool.not_eq_false _ ▸ h.1⟩

/-- The words of a text with one more letter in front. -/
def withLetter (c : Char) (cs : List Char) (texts : List (List Char)) : List (List Char) :=
  if endsWord c cs then [c] :: texts else texts.modifyHead (c :: ·)

/-- A letter in front of words begins the first one, and is all of it if its word ends with it. -/
theorem exists_cons_eq_withLetter {c : Char} {cs : List Char} {texts : List (List Char)}
    (h : IsDivision cs texts) :
    ∃ word others, withLetter c cs texts = (c :: word) :: others ∧
      word ++ others.flatten = cs.filter isAlphanumeric ∧ (∀ other ∈ others, other ≠ []) ∧
      (word = [] ↔ endsWord c cs = true) := by
  by_cases hends : endsWord c cs = true
  · exact ⟨[], texts, by rw [withLetter, if_pos hends], h.flatten_eq, h.ne_nil, by simp [hends]⟩
  · cases texts with
    | nil =>
      obtain ⟨d, rest, rfl, hd⟩ := exists_cons_of_not_endsWord hends
      simpa [hd] using h.flatten_eq
    | cons word others =>
      obtain ⟨hword, hothers⟩ := List.forall_mem_cons.mp h.ne_nil
      refine ⟨word, others, ?_, h.flatten_eq, hothers, iff_of_false hword hends⟩
      rw [withLetter, if_neg hends, List.modifyHead_cons]

theorem startsWord_iff {c d : Char} {after : List Char} :
    startsWord c d after.head? = true ↔ StartsAt c d after := by
  simp [startsWord, StartsAt, Option.any_eq_true]

/-- The small letter that comes next in a text comes next in its first piece as well. -/
theorem startsWord_piece {c d : Char} {rest piece : List Char} {pieces : List (List Char)}
    (h : Text.splitOn (!isAlphanumeric ·) rest = piece :: pieces) :
    startsWord c d piece.head? = startsWord c d rest.head? := by
  cases rest with
  | nil =>
    obtain ⟨rfl, -⟩ := List.cons.inj h
    rfl
  | cons e rest =>
    rw [Text.splitOn] at h
    cases he : isAlphanumeric e with
    | false =>
      rw [if_pos (by simp [he])] at h
      obtain ⟨rfl, -⟩ := List.cons.inj h
      have hsmall : isLowercase e = false :=
        Bool.eq_false_iff.mpr fun hsmall => by
          simp [Unicode.isAlphanumeric_of_isLowercase hsmall] at he
      simp [startsWord, hsmall]
    | true =>
      rw [if_neg (by simp [he])] at h
      split at h <;>
      · obtain ⟨rfl, -⟩ := List.cons.inj h
        rfl

theorem splitCase_cons_cons (c d : Char) (cs : List Char) :
    splitCase (c :: d :: cs) =
      if startsWord c d cs.head? then [c] :: splitCase (d :: cs)
      else (splitCase (d :: cs)).modifyHead (c :: ·) := by
  obtain ⟨word, others, hsplit⟩ := exists_splitCase_cons d cs
  rw [splitCase, hsplit]
  rfl

section Letter

variable {c : Char} {cs : List Char} (hc : isAlphanumeric c = true)
include hc

theorem words_cons : words (c :: cs) = withLetter c cs (words cs) := by
  unfold words
  rw [Text.splitOn, if_neg (by simp [hc])]
  cases cs with
  | nil => rfl
  | cons d rest =>
    rw [Text.splitOn, withLetter, endsWord]
    cases hd : isAlphanumeric d with
    | false => rfl
    | true =>
      have hne : Text.splitOn (!isAlphanumeric ·) rest ≠ [] := by
        rw [Text.splitOn_eq_splitOnP]
        exact List.splitOnP_ne_nil _ _
      obtain ⟨piece, pieces, hpieces⟩ := List.exists_cons_of_ne_nil hne
      obtain ⟨word, others, hsplit⟩ := exists_splitCase_cons d piece
      rw [← startsWord_piece hpieces, hpieces]
      simp only [Bool.not_true, Bool.false_or, Bool.false_eq_true, if_false, List.flatMap_cons,
        splitCase_cons_cons, hsplit]
      split <;> rfl

theorem breaksAt_iff_endsWord : BreaksAt c cs ↔ endsWord c cs = true := by
  cases cs with
  | nil => exact iff_of_true nofun rfl
  | cons d rest =>
    cases hd : isAlphanumeric d with
    | false => simp [BreaksAt, endsWord, hd]
    | true => simp [BreaksAt, endsWord, hc, hd, startsWord_iff]

/-- The first letter is a word of its own. -/
theorem dividesAt_first_iff {word : List Char} {others : List (List Char)}
    (hflatten : word ++ others.flatten = cs.filter isAlphanumeric) :
    DividesAt ((c :: word) :: others) [c] cs ↔ word = [] := by
  have hletter : [c].filter isAlphanumeric = [c] := by simp [hc]
  rw [dividesAt_cons_iff (by simp [hc]), hletter]
  constructor
  · rintro ⟨front, back, -, hfront, -⟩
    exact (List.append_eq_nil_iff.mp (List.cons.inj hfront).2).1
  · rintro rfl
    exact ⟨[], others, rfl, rfl, hflatten⟩

/-- Behind the first letter, the places between words are as they were. -/
theorem dividesAt_withLetter_iff {texts : List (List Char)} {before after : List Char} {b : Char}
    (hcs : cs = before ++ b :: after) :
    DividesAt (withLetter c cs texts) (c :: (before ++ [b])) after ↔
      DividesAt texts (before ++ [b]) after := by
  have hfilter : (c :: (before ++ [b])).filter isAlphanumeric =
      c :: (before ++ [b]).filter isAlphanumeric := by rw [List.filter_cons, if_pos hc]
  rw [withLetter]
  split
  · rw [dividesAt_cons_iff (by simp [hfilter]), hfilter]
    simp [DividesAt]
  · -- the run goes on, so the place is behind a letter that stands in the first word
    rename_i hends
    obtain ⟨d, rest, hrest, hd⟩ := exists_cons_of_not_endsWord hends
    have hbefore : (before ++ [b]).filter isAlphanumeric ≠ [] := by
      have hmem : d ∈ before ++ [b] := by
        rw [hrest] at hcs
        cases before <;> simp [(List.cons.inj hcs).1]
      exact List.ne_nil_of_mem (List.mem_filter.mpr ⟨hmem, hd⟩)
    cases texts with
    | nil => exact iff_of_false (not_dividesAt_nil (by simp [hfilter])) (not_dividesAt_nil hbefore)
    | cons word others =>
      rw [List.modifyHead_cons, dividesAt_cons_iff (by simp [hfilter]),
        dividesAt_cons_iff hbefore, hfilter]
      simp

/-- Words of a text that starts with a letter are words of the rest with that letter in front. -/
theorem exists_withLetter_eq {texts : List (List Char)} (h : IsDivision (c :: cs) texts) :
    ∃ others, withLetter c cs others = texts ∧ others.flatten = cs.filter isAlphanumeric ∧
      ∀ other ∈ others, other ≠ [] := by
  have hflatten := h.flatten_eq
  rw [List.filter_cons, if_pos hc] at hflatten
  match texts, h, hflatten with
  | [] :: _, h, _ => exact absurd rfl (h.ne_nil [] List.mem_cons_self)
  | (b :: word) :: others, h, hflatten =>
    obtain ⟨hb, hletters⟩ := List.cons.inj hflatten
    subst b
    have hothers := (List.forall_mem_cons.mp h.ne_nil).2
    have hword : word = [] ↔ endsWord c cs = true := by
      rw [← breaksAt_iff_endsWord hc, ← h.dividesAt_iff [] rfl]
      exact (dividesAt_first_iff hc hletters).symm
    by_cases hends : endsWord c cs = true
    · obtain rfl := hword.mpr hends
      exact ⟨others, by rw [withLetter, if_pos hends], hletters, hothers⟩
    · refine ⟨word :: others, ?_, hletters, ?_⟩
      · rw [withLetter, if_neg hends, List.modifyHead_cons]
      · exact List.forall_mem_cons.mpr ⟨mt hword.mp hends, hothers⟩

theorem isDivision_cons_iff {texts : List (List Char)} :
    IsDivision (c :: cs) texts ↔
      ∃ others, withLetter c cs others = texts ∧ IsDivision cs others := by
  constructor
  · intro h
    obtain ⟨others, rfl, hflatten, hne⟩ := exists_withLetter_eq hc h
    refine ⟨others, rfl, hflatten, hne, fun before b after hcs => ?_⟩
    rw [← h.dividesAt_iff (c :: before) (by rw [hcs]; rfl)]
    exact (dividesAt_withLetter_iff hc hcs).symm
  · rintro ⟨texts, rfl, h⟩
    obtain ⟨word, others, heq, hflatten, hothers, hword⟩ := exists_cons_eq_withLetter (c := c) h
    refine ⟨?_, ?_, ?_⟩
    · rw [heq, List.filter_cons, if_pos hc, ← hflatten]
      rfl
    · rw [heq]
      exact List.forall_mem_cons.mpr ⟨List.cons_ne_nil _ _, hothers⟩
    · rintro (_ | ⟨_, before⟩) b after hcs <;> obtain ⟨rfl, rfl⟩ := List.cons.inj hcs
      · rw [heq, List.nil_append, dividesAt_first_iff hc hflatten, hword, breaksAt_iff_endsWord hc]
      · exact (dividesAt_withLetter_iff hc rfl).trans (h.dividesAt_iff before rfl)

end Letter

/-! ## The words of a text -/

/-- The words of a text are the only ones that it is divided into. -/
theorem words_eq_iff {cs : List Char} {texts : List (List Char)} :
    words cs = texts ↔ IsDivision cs texts := by
  induction cs generalizing texts with
  | nil => exact eq_comm.trans isDivision_nil_iff.symm
  | cons c cs ih =>
    cases hc : isAlphanumeric c with
    | false => rw [words_cons_of_separator hc, isDivision_cons_of_separator_iff hc, ih]
    | true => simp [words_cons hc, isDivision_cons_iff hc, ← ih]

namespace IsDivision

variable {cs : List Char} {texts : List (List Char)} (h : IsDivision cs texts)
  {before after : List Char} {c d : Char}
include h

/-- No word goes across a separator. -/
theorem dividesAt_separator (hcs : cs = before ++ c :: after) (hc : isAlphanumeric c = false) :
    DividesAt texts before (c :: after) := by
  rcases List.eq_nil_or_concat before with rfl | ⟨front, b, rfl⟩
  · exact ⟨[], texts, rfl, rfl, by rw [h.flatten_eq, hcs, List.nil_append]⟩
  · rw [List.concat_eq_append] at hcs ⊢
    refine (h.dividesAt_iff front (by simpa using hcs)).mpr fun d hd _ hletter => ?_
    obtain rfl : c = d := by simpa using hd
    rw [hc] at hletter
    cases hletter

theorem dividesAt_run_iff (hcs : cs = before ++ c :: d :: after) (hc : isAlphanumeric c = true)
    (hd : isAlphanumeric d = true) :
    DividesAt texts (before ++ [c]) (d :: after) ↔ StartsAt c d after := by
  rw [h.dividesAt_iff before hcs]
  simp [BreaksAt, hc, hd]

end IsDivision

theorem map_toList_splitWords (s : String) :
    (splitWords s).map String.toList = words s.toList := by
  simp [splitWords, Function.comp_def]

/-- Joined, the words of a text are its letters and numerals, and each word has some. They are
divided at every separator, and inside a run exactly where a word starts. -/
theorem splitWords_divide_text (s : String) :
    String.join (splitWords s) = String.ofList (s.toList.filter isAlphanumeric) ∧
      (∀ word ∈ splitWords s, word ≠ "" ∧ ∀ c ∈ word.toList, isAlphanumeric c = true) ∧
      (∀ before c after, s.toList = before ++ c :: after → isAlphanumeric c = false →
        DividesAt ((splitWords s).map String.toList) before (c :: after)) ∧
      ∀ before c d after, s.toList = before ++ c :: d :: after →
        isAlphanumeric c = true → isAlphanumeric d = true →
        (DividesAt ((splitWords s).map String.toList) (before ++ [c]) (d :: after) ↔
          StartsAt c d after) := by
  have h : IsDivision s.toList (words s.toList) := words_eq_iff.mp rfl
  rw [map_toList_splitWords]
  refine ⟨?_, ?_, fun _ _ _ hcs hc => h.dividesAt_separator hcs hc,
    fun _ _ _ _ hcs hc hd => h.dividesAt_run_iff hcs hc hd⟩
  · rw [← String.toList_inj, String.toList_join, List.flatMap_def, map_toList_splitWords,
      h.flatten_eq, String.toList_ofList]
  · refine List.forall_mem_map.mpr fun word hword => ?_
    rw [String.toList_ofList]
    exact ⟨fun hnone => h.ne_nil word hword (by simpa using hnone),
      isAlphanumeric_of_mem_words hword⟩

/-- A row of capitals before a small letter, and a separator. -/
theorem splitWords_divide_text_of_capitals :
    isAlphanumeric '-' = false ∧ StartsAt 'P' 'S' "erver-on".toList ∧
      ¬StartsAt 'T' 'P' "Server-on".toList ∧
      DividesAt ((splitWords "HTTPServer-on").map String.toList) "HTTPServer".toList "-on".toList ∧
      DividesAt ((splitWords "HTTPServer-on").map String.toList) "HTTP".toList
        "Server-on".toList ∧
      ¬DividesAt ((splitWords "HTTPServer-on").map String.toList) "HTT".toList
        "PServer-on".toList := by
  have hseparator : isAlphanumeric '-' = false := by decide +kernel
  have hstarts : StartsAt 'P' 'S' "erver-on".toList := startsWord_iff.mp (by decide +kernel)
  have hgoesOn : ¬StartsAt 'T' 'P' "Server-on".toList :=
    fun h => absurd (startsWord_iff.mpr h) (by decide +kernel)
  obtain ⟨-, -, hacross, hrun⟩ := splitWords_divide_text "HTTPServer-on"
  refine ⟨hseparator, hstarts, hgoesOn, ?_, ?_, ?_⟩
  · exact hacross "HTTPServer".toList '-' "on".toList rfl hseparator
  · exact (hrun "HTT".toList 'P' 'S' "erver-on".toList rfl (by decide) (by decide)).mpr hstarts
  · exact fun h => hgoesOn
      ((hrun "HT".toList 'T' 'P' "Server-on".toList rfl (by decide) (by decide)).mp h)

end ThingTypes.Identifier
