import Mathlib.Data.List.Chain
import Mathlib.Data.List.TakeWhile
import ThingTypes.Kotlin.Printer
import ThingTypes.Proofs.Text.Split

/-
  Where documentation comments end. Block comments nest: a slash with an asterisk opens one, an
  asterisk with a slash closes the last one opened. A printed comment has one end, its own, because
  every other is written with a character reference. An opening of a comment in a description is
  written as it is, and then the end of the comment closes that one, and the rest of the file is
  comment. So a comment is closed, and by its last two characters, exactly if its description opens
  none (`docComment_closed_iff`).
-/

namespace ThingTypes.Kotlin

/-! ## Nesting -/

/-- What follows the end of the outermost comment, in a text inside `depth` comments. -/
def afterComments? : Nat → List Char → Option (List Char)
  | 0, text => some text
  | _ + 1, [] => none
  | _ + 1, [_] => none
  | depth + 1, c :: d :: text =>
    if c = '*' ∧ d = '/' then afterComments? depth text
    else if c = '/' ∧ d = '*' then afterComments? (depth + 2) text
    else afterComments? (depth + 1) (d :: text)

/-- A text opens a comment with a slash that does not end one. -/
def OpensComment (text : List Char) : Prop :=
  ∃ before after, text = before ++ '/' :: '*' :: after ∧ before.getLast? ≠ some '*'

/-- The comment of a declaration, as it is printed. -/
def commentText (p : RenderProfile) (level : Nat) (description? : Option String) : List Char :=
  (String.join ((docComment level description?).lines.map (Line.render p))).toList

/-- The characters that comments are opened and closed with. -/
def IsMark (c : Char) : Prop := c = '*' ∨ c = '/'

theorem not_mem_blanks {blanks : List Char} (hblanks : ∀ c ∈ blanks, Unicode.isBlank c = true)
    {c : Char} (h : IsMark c) : c ∉ blanks := by
  intro hmem
  have hblank := hblanks c hmem
  obtain rfl | rfl := h <;> exact absurd hblank (by decide +kernel)

/-- Nowhere in a text does `b` follow `a` at once. -/
def Apart (a b : Char) (text : List Char) : Prop :=
  text.IsChain fun c d => ¬(c = a ∧ d = b)

instance (a b : Char) : DecidablePred (Apart a b) := fun text =>
  inferInstanceAs (Decidable (text.IsChain _))

/-- The number of openings in a text. -/
def openings : List Char → Nat
  | [] => 0
  | [_] => 0
  | c :: d :: text => (if c = '/' ∧ d = '*' then 1 else 0) + openings (d :: text)

theorem openings_eq_zero_iff : ∀ text : List Char, openings text = 0 ↔ Apart '/' '*' text
  | [] => by simp [openings, Apart]
  | [c] => by simp [openings, Apart]
  | c :: d :: text => by
    have ih := openings_eq_zero_iff (d :: text)
    simp only [Apart] at ih
    simp only [openings, Apart, List.isChain_cons_cons, Nat.add_eq_zero_iff, ih]
    split <;> simp_all

/-- A text in which nothing is closed is read up to the space that follows it, as deep as it has
openings. -/
theorem afterComments?_append (rest : List Char) : ∀ (depth : Nat) (text : List Char),
    Apart '*' '/' text → afterComments? (depth + 1) (text ++ ' ' :: rest) =
      afterComments? (depth + 1 + openings text) (' ' :: rest)
  | depth, [], _ => rfl
  | depth, [c], _ => by
    rw [List.singleton_append, afterComments?, if_neg (by simp), if_neg (by simp)]
    rfl
  | depth, c :: d :: text, hapart => by
    obtain ⟨hfirst, hrest⟩ := List.isChain_cons_cons.mp hapart
    rw [List.cons_append, List.cons_append, afterComments?, if_neg hfirst]
    split
    · rename_i hopens
      obtain ⟨rfl, rfl⟩ := hopens
      have hnext : openings ('*' :: text) = openings text := by
        cases text <;> simp [openings]
      rw [afterComments?_append rest (depth + 1) text (List.isChain_cons.mp hrest).2, openings,
        if_pos ⟨rfl, rfl⟩, hnext, Nat.add_assoc (depth + 1)]
    · rename_i hopens
      rw [← List.cons_append, afterComments?_append rest depth (d :: text) hrest, openings,
        if_neg hopens, Nat.zero_add]

/-- A comment without ends inside is closed by its own exactly if nothing is opened in it. -/
theorem afterComments?_closing {text : List Char} (hclose : Apart '*' '/' text) :
    (Apart '/' '*' text → afterComments? 1 (text ++ " */\n".toList) = some ['\n']) ∧
      (¬Apart '/' '*' text → afterComments? 1 (text ++ " */\n".toList) = none) := by
  have hend : afterComments? 1 (text ++ " */\n".toList) =
      afterComments? (openings text) ['\n'] := by
    have happend := afterComments?_append ['*', '/', '\n'] 0 text hclose
    rw [Nat.zero_add, Nat.add_comm] at happend
    exact happend
  rw [hend, ← openings_eq_zero_iff]
  cases openings text with
  | zero => exact ⟨fun _ => rfl, fun h => absurd rfl h⟩
  | succ n => exact ⟨nofun, fun _ => rfl⟩

/-! ## Texts in which marks are apart -/

section Apart

variable {a b : Char}

theorem apart_of_not_mem {text : List Char} (h : a ∉ text ∨ b ∉ text) : Apart a b text := by
  refine List.isChain_iff_forall_rel_of_append_cons_cons.mpr ?_
  rintro c d before after rfl ⟨rfl, rfl⟩
  simp at h

theorem apart_append_iff {text rest : List Char}
    (h : (∀ c ∈ text.getLast?, c ≠ a) ∨ ∀ c ∈ rest.head?, c ≠ b) :
    Apart a b (text ++ rest) ↔ Apart a b text ∧ Apart a b rest := by
  unfold Apart
  rw [List.isChain_append]
  grind

theorem apart_flatMap_iff {α : Type} {f : α → List Char} {items : List α}
    (h : ∀ item ∈ items, ∀ c ∈ (f item).getLast?, c ≠ a) :
    Apart a b (items.flatMap f) ↔ ∀ item ∈ items, Apart a b (f item) := by
  induction items with
  | nil => simp [Apart]
  | cons item items ih =>
    obtain ⟨hitem, hitems⟩ := List.forall_mem_cons.mp h
    rw [List.flatMap_cons, apart_append_iff (.inl hitem), ih hitems, List.forall_mem_cons]

/-! ### White space -/

theorem exists_trimEnd_append (cs : List Char) :
    ∃ blanks, Unicode.trimEnd cs ++ blanks = cs ∧ ∀ c ∈ blanks, Unicode.isBlank c = true := by
  refine ⟨(cs.reverse.takeWhile Unicode.isBlank).reverse, ?_, fun c hc => ?_⟩
  · rw [Unicode.trimEnd, ← List.reverse_append, List.takeWhile_append_dropWhile,
      List.reverse_reverse]
  · exact List.mem_takeWhile_imp (List.mem_reverse.mp hc)

theorem apart_trimEnd_iff (ha : IsMark a) (hb : IsMark b) (text : List Char) :
    Apart a b (Unicode.trimEnd text) ↔ Apart a b text := by
  obtain ⟨blanks, htext, hblanks⟩ := exists_trimEnd_append text
  have hnot {c : Char} (hc : IsMark c) : c ∉ blanks := not_mem_blanks hblanks hc
  have hjoined : Apart a b (Unicode.trimEnd text ++ blanks) ↔
      Apart a b (Unicode.trimEnd text) ∧ Apart a b blanks :=
    apart_append_iff (.inr fun c hc => ne_of_mem_of_not_mem (List.mem_of_head? hc) (hnot hb))
  rw [htext] at hjoined
  rw [hjoined]
  exact ⟨fun h => ⟨h, apart_of_not_mem (.inl (hnot ha))⟩, And.left⟩

/-! ### Lines -/

theorem apart_intercalate_iff (ha : IsMark a) (hb : IsMark b) (pieces : List (List Char)) :
    Apart a b (['\n'].intercalate pieces) ↔ ∀ piece ∈ pieces, Apart a b piece := by
  have hbreak {c : Char} (hc : IsMark c) : '\n' ≠ c := by obtain rfl | rfl := hc <;> decide
  induction pieces with
  | nil => simp [Apart]
  | cons piece pieces ih =>
    cases pieces with
    | nil => simp
    | cons next pieces =>
      have hafter : Apart a b (['\n'] ++ ['\n'].intercalate (next :: pieces)) ↔
          Apart a b (['\n'].intercalate (next :: pieces)) := by
        rw [apart_append_iff (.inl (by simpa using hbreak ha))]
        exact and_iff_right (List.isChain_singleton _)
      rw [List.intercalate_cons_cons, List.append_assoc,
        apart_append_iff (.inr (by simpa using hbreak hb)), hafter, List.forall_mem_cons]
      exact and_congr_right fun _ => ih

theorem apart_dropReturn_iff (hb : IsMark b) (line : List Char) :
    Apart a b (Text.lines.dropReturn line) ↔ Apart a b line := by
  have hreturn : '\r' ≠ b := by obtain rfl | rfl := hb <;> decide
  unfold Text.lines.dropReturn
  split
  · rename_i hlast
    conv_rhs => rw [← List.dropLast_append_getLast? _ hlast]
    rw [apart_append_iff (.inr (by simpa using hreturn))]
    exact (and_iff_left (List.isChain_singleton _)).symm
  · rfl

theorem apart_lines_iff (ha : IsMark a) (hb : IsMark b) (text : List Char) :
    (∀ line ∈ Text.lines text, Apart a b line) ↔ Apart a b text := by
  have hpieces : Apart a b text ↔ ∀ piece ∈ text.splitOn '\n', Apart a b piece := by
    rw [← apart_intercalate_iff ha hb, List.intercalate_splitOn]
  obtain ⟨ended, last, hsplit⟩ :=
    (List.eq_nil_or_concat' _).resolve_left (List.splitOn_ne_nil '\n' text)
  rw [hpieces, Text.lines, Text.splitOn_beq, hsplit,
    List.dropLast_concat, List.getLast?_concat, List.forall_mem_append]
  have hended : (∀ line ∈ ended.map Text.lines.dropReturn, Apart a b line) ↔
      ∀ piece ∈ ended, Apart a b piece := by
    simp only [List.forall_mem_map, apart_dropReturn_iff hb]
  cases last with
  | nil => simpa [Apart] using hended
  | cons c cs => rw [List.forall_mem_append, hended]

end Apart

/-! ## Descriptions -/

theorem head?_withoutCommentEnd (text : List Char) :
    (withoutCommentEnd text).head? = text.head? := by
  fun_cases withoutCommentEnd text <;> rfl

/-- Nothing is closed in the text of a comment. -/
theorem apart_withoutCommentEnd (text : List Char) : Apart '*' '/' (withoutCommentEnd text) := by
  fun_induction withoutCommentEnd text with
  | case1 cs ih =>
    refine List.isChain_cons.mpr ⟨by simp [slashReference], ?_⟩
    exact (apart_append_iff (.inl (by simp [slashReference]))).mpr ⟨by decide, ih⟩
  | case2 c cs hpair ih =>
    refine List.isChain_cons.mpr ⟨?_, ih⟩
    rw [head?_withoutCommentEnd]
    rintro d hd ⟨rfl, rfl⟩
    obtain ⟨rest, rfl⟩ := List.head?_eq_some_iff.mp hd
    exact hpair rest rfl rfl
  | case3 => exact List.isChain_nil

/-- Whether a text opens a comment with a slash that does not end one, where `previous` comes before
the text. -/
def opensAfter (previous : Char) : List Char → Prop
  | [] => False
  | c :: text => previous ≠ '*' ∧ c = '/' ∧ text.head? = some '*' ∨ opensAfter c text

theorem opensAfter_iff (previous : Char) (text : List Char) :
    opensAfter previous text ↔ ∃ before after, text = before ++ '/' :: '*' :: after ∧
      (previous :: before).getLast? ≠ some '*' := by
  induction text generalizing previous with
  | nil => simp [opensAfter]
  | cons c text ih =>
    rw [opensAfter, ih]
    constructor
    · rintro (⟨hprevious, rfl, hhead⟩ | ⟨before, after, rfl, hlast⟩)
      · obtain ⟨after, rfl⟩ := List.head?_eq_some_iff.mp hhead
        exact ⟨[], after, rfl, by simpa using hprevious⟩
      · exact ⟨c :: before, after, rfl, by simpa using hlast⟩
    · rintro ⟨before, after, htext, hlast⟩
      cases before with
      | nil =>
        obtain ⟨rfl, rfl⟩ := List.cons.inj htext
        exact .inl ⟨by simpa using hlast, rfl, rfl⟩
      | cons d before =>
        obtain ⟨rfl, rfl⟩ := List.cons.inj htext
        exact .inr ⟨before, after, rfl, by simpa using hlast⟩

theorem opensAfter_space_iff (text : List Char) : opensAfter ' ' text ↔ OpensComment text := by
  rw [opensAfter_iff]
  refine exists₂_congr fun before after => and_congr_right fun _ => ?_
  cases before <;> simp

/-- What is opened in a text is opened in what is printed for it. -/
theorem apart_withoutCommentEnd_iff (previous : Char) {text : List Char}
    (h : ¬(previous = '*' ∧ text.head? = some '/')) :
    Apart '/' '*' (withoutCommentEnd text) ↔ ¬opensAfter previous text := by
  fun_induction withoutCommentEnd text generalizing previous with
  | case1 cs ih =>
    have happend : Apart '/' '*' (('*' :: slashReference) ++ withoutCommentEnd cs) ↔
        Apart '/' '*' (withoutCommentEnd cs) := by
      rw [apart_append_iff (.inl (by simp [slashReference]))]
      exact and_iff_right (by decide)
    rw [← List.cons_append, happend, ih '/' (by simp)]
    simp [opensAfter]
  | case2 c cs hpair ih =>
    have hnext : ¬(c = '*' ∧ cs.head? = some '/') := by
      rintro ⟨rfl, hhead⟩
      obtain ⟨rest, rfl⟩ := List.head?_eq_some_iff.mp hhead
      exact hpair rest rfl rfl
    have hopens : previous ≠ '*' ∧ c = '/' ∧ cs.head? = some '*' ↔ c = '/' ∧ cs.head? = some '*' :=
      and_iff_right_of_imp fun hopens heq => h ⟨heq, congrArg some hopens.1⟩
    rw [Apart, List.isChain_cons, head?_withoutCommentEnd, opensAfter, not_or, hopens]
    refine and_congr ?_ (ih c hnext)
    cases cs <;> simp
  | case3 => simp [Apart, opensAfter]

theorem opensAfter_congr {previous previous' : Char} (h : previous ≠ '*') (h' : previous' ≠ '*')
    (text : List Char) : opensAfter previous text ↔ opensAfter previous' text := by
  cases text <;> simp [opensAfter, h, h']

theorem opensAfter_blanks_append {blanks : List Char}
    (hblanks : ∀ c ∈ blanks, Unicode.isBlank c = true) (text : List Char) :
    opensAfter ' ' (blanks ++ text) ↔ opensAfter ' ' text := by
  induction blanks with
  | nil => rfl
  | cons c blanks ih =>
    have hmark {d : Char} (hd : IsMark d) : c ≠ d :=
      ne_of_mem_of_not_mem List.mem_cons_self (not_mem_blanks hblanks hd)
    rw [List.cons_append, opensAfter,
      opensAfter_congr (hmark (.inl rfl)) (by decide : ' ' ≠ '*'),
      ih (List.forall_mem_cons.mp hblanks).2]
    simp [hmark (.inr rfl)]

theorem opensAfter_append_blanks {blanks : List Char}
    (hblanks : ∀ c ∈ blanks, Unicode.isBlank c = true) (previous : Char) (text : List Char) :
    opensAfter previous (text ++ blanks) ↔ opensAfter previous text := by
  have hstar : '*' ∉ blanks := not_mem_blanks hblanks (.inl rfl)
  induction text generalizing previous with
  | nil =>
    refine ⟨fun h => ?_, False.elim⟩
    obtain ⟨before, after, rfl, -⟩ := (opensAfter_iff _ _).mp h
    simp at hstar
  | cons c text ih =>
    have hhead : (text ++ blanks).head? = some '*' ↔ text.head? = some '*' := by
      cases text with
      | nil => exact ⟨fun h => absurd (List.mem_of_head? h) hstar, nofun⟩
      | cons d text => rfl
    rw [List.cons_append, opensAfter, opensAfter, hhead]
    exact or_congr_right (ih c)

/-- The white space around a description opens no comment. -/
theorem opensAfter_trim_iff (text : List Char) :
    opensAfter ' ' (Unicode.trim text) ↔ opensAfter ' ' text := by
  obtain ⟨blanks, htext, hblanks⟩ := exists_trimEnd_append (text.dropWhile Unicode.isBlank)
  rw [Unicode.trim, ← opensAfter_append_blanks hblanks, htext]
  conv_rhs => rw [← List.takeWhile_append_dropWhile (p := Unicode.isBlank) (l := text)]
  exact (opensAfter_blanks_append (fun c hc => List.mem_takeWhile_imp hc) _).symm

/-! ## Comments -/

variable {p : RenderProfile}

theorem render_line (p : RenderProfile) (level : Nat) {text : String} (h : text ≠ "") :
    (Line.render p ⟨level, text⟩).toList =
      (p.indentation level).toList ++ text.toList ++ ['\n'] := by
  simp [Line.render, h]

theorem not_mem_indentation (hindent : '/' ∉ p.indent.toList) (level : Nat) :
    '/' ∉ (p.indentation level).toList := by
  simp [RenderProfile.indentation, String.toList_join, hindent]

/-- A line of a comment with more lines than one. -/
def innerLine (p : RenderProfile) (level : Nat) (line : List Char) : List Char :=
  (p.indentation level).toList ++ Unicode.trimEnd ([' ', '*', ' '] ++ line) ++ ['\n']

/-- What a comment has between its opening and its end. -/
def commentBody (p : RenderProfile) (level : Nat) : List (List Char) → List Char
  | [line] => ['*', ' '] ++ line
  | lines =>
    ['*', '\n'] ++ lines.flatMap (innerLine p level) ++ (p.indentation level).toList

theorem commentText_eq_flatMap (p : RenderProfile) (level : Nat) (description? : Option String) :
    commentText p level description? =
      (docLines description?).flatMap fun text => (Line.render p ⟨level, text⟩).toList := by
  simp [commentText, docComment, String.toList_join, List.flatMap_map]

/-- A line keeps at least the asterisk in front of it. -/
theorem render_innerLine (p : RenderProfile) (level : Nat) (line : List Char) :
    (Line.render p ⟨level, String.ofList (Unicode.trimEnd ([' ', '*', ' '] ++ line))⟩).toList =
      innerLine p level line := by
  have hne : String.ofList (Unicode.trimEnd ([' ', '*', ' '] ++ line)) ≠ "" := by
    intro hempty
    have hnil : Unicode.trimEnd ([' ', '*', ' '] ++ line) = [] := by simpa using hempty
    obtain ⟨blanks, htext, hblanks⟩ := exists_trimEnd_append ([' ', '*', ' '] ++ line)
    rw [hnil, List.nil_append] at htext
    exact not_mem_blanks hblanks (.inl rfl) (by simp [htext])
  rw [render_line p level hne, String.toList_ofList]
  rfl

theorem commentText_of_blank {description? : Option String}
    (h : Unicode.trim (description?.getD "").toList = []) (p : RenderProfile) (level : Nat) :
    commentText p level description? = [] := by
  simp [commentText_eq_flatMap, docLines, h]

/-- A comment is its body between its opening and its end. -/
theorem commentText_of_not_blank {description? : Option String}
    (h : Unicode.trim (description?.getD "").toList ≠ []) (p : RenderProfile) (level : Nat) :
    commentText p level description? =
      (p.indentation level).toList ++ '/' :: '*' ::
        (commentBody p level
          (Text.lines (withoutCommentEnd (Unicode.trim (description?.getD "").toList)))
          ++ " */\n".toList) := by
  rw [commentText_eq_flatMap, docLines, if_neg (by simpa using h), commentBody.eq_def]
  generalize Text.lines (withoutCommentEnd (Unicode.trim (description?.getD "").toList)) = lines
  split
  · rw [List.flatMap_singleton, render_line p level (by simp)]
    simp
  · have hinner : (lines.map fun line =>
          String.ofList (Unicode.trimEnd ([' ', '*', ' '] ++ line))).flatMap
        (fun text => (Line.render p ⟨level, text⟩).toList) = lines.flatMap (innerLine p level) := by
      rw [List.flatMap_map]
      exact List.flatMap_congr fun line _ => render_innerLine p level line
    rw [List.flatMap_append, List.flatMap_append, hinner, List.flatMap_singleton,
      List.flatMap_singleton, render_line p level (by simp), render_line p level (by simp)]
    simp

theorem ne_of_isMark {c d : Char} (hc : IsMark c) (hd : d = '\n' ∨ d = ' ') : d ≠ c := by
  rintro rfl
  obtain rfl | rfl := hd <;> obtain h | h := hc <;> cases h

section Body

variable {a b : Char}

theorem apart_starts (ha : IsMark a) (hb : IsMark b) :
    Apart a b ['*', '\n'] ∧ Apart a b ['*', ' '] ∧ Apart a b [' ', '*', ' '] := by
  obtain rfl | rfl := ha <;> obtain rfl | rfl := hb <;> decide

theorem apart_indentation (ha : IsMark a) (hb : IsMark b) (hne : a ≠ b)
    (hindent : '/' ∉ p.indent.toList) (level : Nat) : Apart a b (p.indentation level).toList := by
  refine apart_of_not_mem ?_
  obtain rfl | rfl := ha
  · obtain rfl | rfl := hb
    · exact absurd rfl hne
    · exact .inr (not_mem_indentation hindent level)
  · exact .inl (not_mem_indentation hindent level)

theorem apart_innerLine_iff (ha : IsMark a) (hb : IsMark b) (hne : a ≠ b)
    (hindent : '/' ∉ p.indent.toList) (level : Nat) (line : List Char) :
    Apart a b (innerLine p level line) ↔ Apart a b line := by
  have hhead : ∀ c ∈ (Unicode.trimEnd ([' ', '*', ' '] ++ line)).head?, c ≠ b := by
    intro c hc
    obtain ⟨blanks, htext, -⟩ := exists_trimEnd_append ([' ', '*', ' '] ++ line)
    obtain ⟨rest, hrest⟩ := List.head?_eq_some_iff.mp hc
    rw [hrest, List.cons_append] at htext
    rw [(List.cons.inj htext).1]
    exact ne_of_isMark hb (.inr rfl)
  rw [innerLine, apart_append_iff (.inr (by simpa using ne_of_isMark hb (.inl rfl))),
    apart_append_iff (.inr hhead), apart_trimEnd_iff ha hb,
    apart_append_iff (.inl (by simpa using ne_of_isMark ha (.inr rfl)))]
  exact ⟨fun h => h.1.2.2, fun h => ⟨⟨apart_indentation ha hb hne hindent level,
    (apart_starts ha hb).2.2, h⟩, List.isChain_singleton _⟩⟩

/-- Whatever the layout, marks follow each other in a comment where they do so in a line. -/
theorem apart_commentBody_iff (ha : IsMark a) (hb : IsMark b) (hne : a ≠ b)
    (hindent : '/' ∉ p.indent.toList) (level : Nat) (lines : List (List Char)) :
    Apart a b (commentBody p level lines) ↔ ∀ line ∈ lines, Apart a b line := by
  have hbreak : ∀ line : List Char, ∀ c ∈ (innerLine p level line).getLast?, c ≠ a := by
    intro line c hc
    rw [innerLine, List.getLast?_concat, Option.mem_some] at hc
    rw [← hc]
    exact ne_of_isMark ha (.inl rfl)
  have hlines : ∀ c ∈ (['*', '\n'] ++ lines.flatMap (innerLine p level)).getLast?, c ≠ a := by
    intro c hc
    rw [List.getLast?_append, List.getLast?_flatMap, Option.mem_def, Option.or_eq_some_iff] at hc
    rcases hc with hc | ⟨-, hc⟩
    · obtain ⟨line, -, hc⟩ := List.exists_of_findSome?_eq_some hc
      exact hbreak line c hc
    · cases hc
      exact ne_of_isMark ha (.inl rfl)
  obtain ⟨hmany, hone, -⟩ := apart_starts ha hb
  unfold commentBody
  split
  · rename_i line
    rw [apart_append_iff (.inl (by simpa using ne_of_isMark ha (.inr rfl)))]
    simpa using fun _ => hone
  · rw [apart_append_iff (.inl hlines),
      apart_append_iff (.inl (by simpa using ne_of_isMark ha (.inl rfl))),
      apart_flatMap_iff fun line _ => hbreak line]
    simp only [apart_innerLine_iff ha hb hne hindent]
    exact ⟨fun h => h.1.2, fun h => ⟨⟨hmany, h⟩, apart_indentation ha hb hne hindent level⟩⟩

end Body

theorem trim_eq_nil_iff (text : List Char) :
    Unicode.trim text = [] ↔ ∀ c ∈ text, Unicode.isBlank c = true := by
  have htrim : Unicode.trim text = [] ↔
      ∀ c ∈ text.dropWhile Unicode.isBlank, Unicode.isBlank c = true := by
    simp [Unicode.trim, Unicode.trimEnd, List.dropWhile_eq_nil_iff]
  rw [htrim]
  conv_rhs => rw [← List.takeWhile_append_dropWhile (p := Unicode.isBlank) (l := text),
    List.forall_mem_append]
  exact (and_iff_right fun c hc => List.mem_takeWhile_imp hc).symm

/-- The comment of a declaration with a description that is not blank opens behind the indentation.
It ends with its last two characters, and nowhere before, if its description opens no comment.
Otherwise it does not end. -/
theorem docComment_closed_iff {p : RenderProfile} (hindent : '/' ∉ p.indent.toList) (level : Nat)
    (description? : Option String) :
    let description := (description?.getD "").toList
    ((∀ c ∈ description, Unicode.isBlank c = true) → commentText p level description? = []) ∧
      ((∃ c ∈ description, Unicode.isBlank c = false) →
        ∃ body, commentText p level description? =
            (p.indentation level).toList ++ '/' :: '*' :: (body ++ "*/\n".toList) ∧
          (¬OpensComment description → afterComments? 1 (body ++ "*/\n".toList) = some ['\n']) ∧
          (OpensComment description → afterComments? 1 (body ++ "*/\n".toList) = none)) := by
  intro description
  refine ⟨fun hblank => commentText_of_blank ((trim_eq_nil_iff _).mpr hblank) p level, ?_⟩
  rintro ⟨c, hc, hprinted⟩
  have hnonblank : Unicode.trim description ≠ [] := fun hnil =>
    Bool.false_ne_true (hprinted.symm.trans ((trim_eq_nil_iff _).mp hnil c hc))
  let body := commentBody p level (Text.lines (withoutCommentEnd (Unicode.trim description)))
  have hbody : body ++ " */\n".toList = (body ++ [' ']) ++ "*/\n".toList := by
    simp
  have hclose : Apart '*' '/' body := by
    rw [apart_commentBody_iff (.inl rfl) (.inr rfl) (by decide) hindent,
      apart_lines_iff (.inl rfl) (.inr rfl)]
    exact apart_withoutCommentEnd _
  have hopen : Apart '/' '*' body ↔ ¬OpensComment description := by
    rw [apart_commentBody_iff (.inr rfl) (.inl rfl) (by decide) hindent,
      apart_lines_iff (.inr rfl) (.inl rfl),
      apart_withoutCommentEnd_iff ' ' (by simp), opensAfter_trim_iff, opensAfter_space_iff]
  obtain ⟨hclosed, hleft⟩ := afterComments?_closing hclose
  rw [hopen, hbody] at hclosed
  rw [hopen, not_not, hbody] at hleft
  refine ⟨body ++ [' '], ?_, hclosed, hleft⟩
  rw [← hbody]
  exact commentText_of_not_blank hnonblank p level

/-- A description that is the opening of a comment. -/
theorem docComment_of_opening :
    '/' ∉ ({} : RenderProfile).indent.toList ∧
      ∃ body, commentText {} 1 (some "/*") = "    /*".toList ++ (body ++ "*/\n".toList) ∧
        afterComments? 1 (body ++ "*/\n".toList) = none := by
  have hindent : '/' ∉ ({} : RenderProfile).indent.toList := by decide
  obtain ⟨body, htext, -, hleft⟩ := (docComment_closed_iff hindent 1 (some "/*")).2
    ⟨'/', by decide, by decide +kernel⟩
  exact ⟨hindent, body, htext, hleft ⟨[], [], rfl, by decide⟩⟩

end ThingTypes.Kotlin
