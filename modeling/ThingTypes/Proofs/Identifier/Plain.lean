import ThingTypes.Identifier.Candidates
import ThingTypes.Package
import ThingTypes.Proofs.Text.Split
import ThingTypes.Proofs.Unicode.CaseMapping

/-
  What no name contains. Letters, numerals and underscores are all that a generated name is made of,
  so it has neither the dash of the arrow between the types of an action, nor the brace that ends
  the text of a schema, nor the slash of a path. A text without the three is plain. The text of a
  type is plain with its package; what a type is called has no dot and no backslash either.
-/

namespace ThingTypes

/-- Neither a dash nor a closing brace nor a slash. -/
structure IsPlain (c : Char) : Prop where
  ne_dash : c ≠ '-'
  ne_brace : c ≠ '\x7d'
  ne_slash : c ≠ '/'

instance : DecidablePred IsPlain := fun c =>
  decidable_of_iff (c ≠ '-' ∧ c ≠ '\x7d' ∧ c ≠ '/')
    ⟨fun h => ⟨h.1, h.2.1, h.2.2⟩, fun h => ⟨h.ne_dash, h.ne_brace, h.ne_slash⟩⟩

/-- A text without dashes, closing braces and slashes. -/
def Plain (text : String) : Prop := ∀ c ∈ text.toList, IsPlain c

instance : DecidablePred Plain := fun text => List.decidableBAll IsPlain text.toList

theorem plain_append_iff {a b : String} : Plain (a ++ b) ↔ Plain a ∧ Plain b := by
  simp only [Plain, String.toList_append, List.forall_mem_append]

theorem Plain.append {a b : String} (ha : Plain a) (hb : Plain b) : Plain (a ++ b) :=
  plain_append_iff.mpr ⟨ha, hb⟩

/-- Plain, and neither a dot nor a backslash. -/
structure IsNameChar (c : Char) : Prop extends IsPlain c where
  ne_dot : c ≠ '.'
  ne_backslash : c ≠ '\\'

instance : DecidablePred IsNameChar := fun c =>
  decidable_of_iff (IsPlain c ∧ c ≠ '.' ∧ c ≠ '\\')
    ⟨fun h => ⟨h.1, h.2.1, h.2.2⟩, fun h => ⟨h.toIsPlain, h.ne_dot, h.ne_backslash⟩⟩

/-- A text of which names can be made, which may be empty. -/
def NameText (text : String) : Prop := ∀ c ∈ text.toList, IsNameChar c

instance : DecidablePred NameText := fun text => List.decidableBAll IsNameChar text.toList

theorem NameText.plain {text : String} (h : NameText text) : Plain text :=
  fun c hc => (h c hc).toIsPlain

theorem NameText.append {a b : String} (ha : NameText a) (hb : NameText b) : NameText (a ++ b) := by
  simp only [NameText, String.toList_append, List.forall_mem_append]
  exact ⟨ha, hb⟩

/-- The name of a type. -/
structure IsName (text : String) : Prop where
  ne_empty : text ≠ ""
  chars : NameText text

theorem IsName.plain {text : String} (h : IsName text) : Plain text := h.chars.plain

theorem IsName.append {a b : String} (ha : NameText a) (hb : IsName b) : IsName (a ++ b) :=
  ⟨by simp [hb.ne_empty], ha.append hb.chars⟩

theorem IsName.append_text {a b : String} (ha : IsName a) (hb : NameText b) : IsName (a ++ b) :=
  ⟨by simp [ha.ne_empty], ha.chars.append hb⟩

theorem isNameChar_of_isAlphanum {c : Char} (h : c.isAlphanum) : IsNameChar c := by
  refine ⟨⟨?_, ?_, ?_⟩, ?_, ?_⟩ <;>
  · rintro rfl
    simp at h

theorem isPlain_of_isAlphanum {c : Char} (h : c.isAlphanum) : IsPlain c :=
  (isNameChar_of_isAlphanum h).toIsPlain

theorem isPlain_toLower {c : Char} (h : IsPlain c) : IsPlain c.toLower := by
  by_cases hascii : c.toNat < 0x80
  · exact forall_ascii (P := fun c => IsPlain c → IsPlain c.toLower) (by decide +kernel) hascii h
  · have hbeyond : ¬c.val ≤ 'Z'.val := by
      rw [UInt32.le_iff_toNat_le]
      have hcode : c.val.toNat = c.toNat := rfl
      have hZ : 'Z'.val.toNat = 90 := rfl
      omega
    unfold Char.toLower
    rwa [dif_neg fun hrange => hbeyond hrange.2]

/-! ## Case mappings -/

namespace Unicode

/-- The codes of the characters that no name has. -/
def markCodes : List Nat :=
  ['-'.toNat, '\x7d'.toNat, '/'.toNat, '.'.toNat, '\\'.toNat]

theorem isNameChar_ofNat {n : Nat} (h : n ∉ markCodes) : IsNameChar (Char.ofNat n) := by
  have hcode {c : Char} (hc : c.toNat ≠ 0) (h : Char.ofNat n = c) : n = c.toNat := by
    subst h
    exact (toNat_ofNat_of_ne_zero hc).symm
  have hmark {c : Char} (hc : c.toNat ≠ 0) (hmem : c.toNat ∈ markCodes) : Char.ofNat n ≠ c :=
    fun heq => h (hcode hc heq ▸ hmem)
  refine ⟨⟨?_, ?_, ?_⟩, ?_, ?_⟩ <;> exact hmark (by decide) (by decide)

/-- A run maps no character to a mark: it stays behind them, or it is one character that does not go
there. -/
def CaseRun.AvoidsMarks (r : CaseRun) : Prop :=
  '\x7d'.toNat < r.first + r.shift ∨ r.first = r.last ∧ (r.first + r.shift).toNat ∉ markCodes

instance : DecidablePred CaseRun.AvoidsMarks := fun _ => inferInstanceAs (Decidable (_ ∨ _))

theorem isNameChar_of_isAlphanumeric {c : Char} (h : isAlphanumeric c) : IsNameChar c := by
  rw [isAlphanumeric] at h
  split at h
  · exact isNameChar_of_isAlphanum h
  · rename_i hbeyond
    refine Char.ofNat_toNat c ▸ isNameChar_ofNat fun hmark => hbeyond ?_
    exact (by decide : ∀ n ∈ markCodes, n < 0x80) _ hmark

theorem CaseRun.AvoidsMarks.isNameChar {r : CaseRun} (hr : r.AvoidsMarks) {n : Nat}
    (hholds : r.holds n = true) : IsNameChar (Char.ofNat (n + r.shift).toNat) := by
  have hcodes : markCodes = [45, 125, 47, 46, 92] := rfl
  have hbrace : '\x7d'.toNat = 125 := rfl
  refine isNameChar_ofNat ?_
  simp only [CaseRun.holds, Bool.and_eq_true, decide_eq_true_eq] at hholds
  simp only [CaseRun.AvoidsMarks, hcodes, List.mem_cons, List.not_mem_nil, or_false] at hr ⊢
  omega

/-- A table of case mappings sends letters and numerals to characters of names, if it does so in
ASCII, by its sequences and by its runs. -/
theorem IsMapping.isNameChar {ascii : Char → Char} {sequences : List (Nat × List Nat)}
    {runs : List CaseRun}
    (hascii : ∀ n < 0x80, (Char.ofNat n).isAlphanum → IsNameChar (ascii (Char.ofNat n)))
    (hsequences : ∀ e ∈ sequences, ∀ n ∈ e.2, n ∉ markCodes)
    (hruns : ∀ r ∈ runs, r.AvoidsMarks) {c : Char} {mapped : List Char}
    (hmapped : IsMapping ascii sequences runs c mapped) (hc : isAlphanumeric c) :
    ∀ d ∈ mapped, IsNameChar d := by
  cases hmapped with
  | low hlow =>
    rw [isAlphanumeric, if_pos hlow] at hc
    refine List.forall_mem_singleton.mpr ?_
    exact forall_ascii (P := fun c => c.isAlphanum → IsNameChar (ascii c)) hascii hlow hc
  | sequence hmem =>
    exact List.forall_mem_map.mpr fun n hn => isNameChar_ofNat (hsequences _ hmem n hn)
  | run hmem hholds => exact List.forall_mem_singleton.mpr ((hruns _ hmem).isNameChar hholds)
  | same => exact List.forall_mem_singleton.mpr (isNameChar_of_isAlphanumeric hc)

theorem isNameChar_of_mem_toUpper {c d : Char} (hc : isAlphanumeric c) (hd : d ∈ toUpper c) :
    IsNameChar d :=
  (isMapping_toUpper c).isNameChar (by decide +kernel) (by decide +kernel) (by decide +kernel) hc
    d hd

theorem isNameChar_of_mem_toLower {c d : Char} (hc : isAlphanumeric c) (hd : d ∈ toLower c) :
    IsNameChar d :=
  (isMapping_toLower c).isNameChar (by decide +kernel) (by decide +kernel) (by decide +kernel) hc
    d hd

end Unicode

/-! ## Names -/

namespace Identifier

theorem flatten_splitCase : ∀ cs : List Char, (splitCase cs).flatten = cs
  | [] => rfl
  | [_] => rfl
  | c :: d :: rest => by
    have ih := flatten_splitCase (d :: rest)
    unfold splitCase
    dsimp only
    split
    · simp [ih]
    · cases h : splitCase (d :: rest) with
      | nil => simp [h] at ih
      | cons word words =>
        rw [h] at ih
        simpa using ih

theorem isAlphanumeric_of_mem_words {cs word : List Char} (hword : word ∈ words cs) :
    ∀ c ∈ word, Unicode.isAlphanumeric c := by
  intro c hc
  obtain ⟨piece, hpiece, hword⟩ := List.mem_flatMap.mp hword
  have hmem : c ∈ piece := by
    rw [← flatten_splitCase piece]
    exact List.mem_flatten_of_mem hword hc
  simpa using (Text.exists_piece_iff.mp ⟨piece, hpiece, hmem⟩).2

theorem nameText_className (s : String) : NameText (className s) := by
  intro d hd
  rw [className, String.toList_ofList] at hd
  obtain ⟨word, hword, hd⟩ := List.mem_flatMap.mp hd
  have hchars := isAlphanumeric_of_mem_words hword
  cases word with
  | nil => simp [capitalize] at hd
  | cons c cs =>
    rw [capitalize, List.mem_append] at hd
    rcases hd with hd | hd
    · exact Unicode.isNameChar_of_mem_toUpper (hchars c List.mem_cons_self) hd
    · obtain ⟨c', hc', hd⟩ := List.mem_flatMap.mp hd
      exact Unicode.isNameChar_of_mem_toLower (hchars c' (List.mem_cons_of_mem _ hc')) hd

theorem plain_packageSegment (s : String) : Plain (packageSegment s) := by
  have hfilter : ∀ c ∈ (s.toList.filter isSegmentChar).map Char.toLower, IsPlain c := by
    intro c hc
    obtain ⟨c', hc', rfl⟩ := List.mem_map.mp hc
    have hsegment := (List.mem_filter.mp hc').2
    simp only [isSegmentChar, Bool.or_eq_true, decide_eq_true_eq] at hsegment
    rcases hsegment with halphanum | rfl
    · exact isPlain_toLower (isPlain_of_isAlphanum halphanum)
    · decide
  unfold packageSegment
  dsimp only
  split
  · decide
  · unfold Plain
    rw [String.toList_ofList]
    unfold guarded
    split
    · intro c hc
      rcases List.mem_cons.mp hc with rfl | hc
      · decide
      · exact hfilter c hc
    · exact hfilter

theorem nameText_toString (n : Nat) : NameText (toString n) := by
  intro c hc
  have hmem : c ∈ Nat.toDigits 10 n := by simpa [Nat.repr] using hc
  have hdigit : c.isDigit := Nat.isDigit_of_mem_toDigits (by decide) (by decide) hmem
  exact isNameChar_of_isAlphanum (by simp [Char.isAlphanum, hdigit])

/-! ### Candidates -/

/-- Names that are kept by everything that the candidates of a search are made with: a front before
the name, which is a parent, a feature or the shared name, and a number behind it. -/
structure NameRule (Front Name : String → Prop) : Prop where
  append : ∀ {front name}, front ≠ "" → Front front → Name name → Name (front ++ name)
  number : ∀ {name} (n : Nat), Name name → Name (name ++ toString n)
  shared : Front sharedName

namespace NameRule

variable {Front Name : String → Prop} {name : String} {parent? feature? : Option String}
  (rule : NameRule Front Name)
include rule

theorem compoundName (hname : Name name) (hparent : ∀ parent ∈ parent?, Front parent) :
    Name (compoundName parent? name) := by
  unfold Identifier.compoundName
  split
  · rename_i parent
    split
    · exact hname
    · rename_i hguard
      have hne : parent ≠ "" := by
        rintro rfl
        exact hguard (by simp)
      exact rule.append hne (hparent _ rfl) hname
  · exact hname

theorem of_mem_numbered (hname : Name name) {count : Nat} {candidate : String}
    (hmem : candidate ∈ numbered name count) : Name candidate := by
  obtain ⟨i, _, rfl⟩ := List.mem_map.mp hmem
  exact rule.number _ hname

theorem deriveName (hname : Name name) (hparent : ∀ parent ∈ parent?, Front parent)
    (policy : ClassNaming) (taken : List String) : Name (deriveName policy name parent? taken) := by
  have hcompound := rule.compoundName hname hparent
  unfold Identifier.deriveName
  cases policy with
  | alwaysCompound => exact hcompound
  | compoundWhenTaken =>
    dsimp only
    split
    · exact hname
    · split
      · exact hcompound
      · cases hfree : (numbered name (taken.length + 1)).find? (!taken.contains ·) with
        | none => exact hname
        | some free => exact rule.of_mem_numbered hname (List.mem_of_find?_eq_some hfree)

theorem of_mem_searchCandidates (hname : Name name) (hparent : ∀ parent ∈ parent?, Front parent)
    (hfeature : ∀ feature ∈ feature?, Front feature) {taken : List String} {candidate : String}
    (hmem : candidate ∈ searchCandidates name parent? feature? taken) : Name candidate := by
  have hshared : Name (Identifier.compoundName (some sharedName) name) :=
    rule.compoundName hname (by rintro _ ⟨⟩; exact rule.shared)
  rcases List.mem_append.mp (List.mem_of_mem_take hmem) with hmem | hmem
  · simp only [namedCandidates, List.mem_eraseDups, List.mem_cons, List.not_mem_nil,
      or_false] at hmem
    rcases hmem with rfl | rfl | rfl | rfl
    · exact hname
    · exact rule.compoundName hname hparent
    · exact rule.compoundName hname hfeature
    · exact hshared
  · exact rule.of_mem_numbered hshared hmem

end NameRule

theorem isName_rule : NameRule NameText IsName where
  append _ := .append
  number n hname := hname.append_text (nameText_toString n)
  shared := by decide

end Identifier

namespace Package

theorem isPlain_of_isSegment {segment : List Char} (h : isSegment segment) {c : Char}
    (hc : c ∈ segment) : IsPlain c := by
  have hstart {c : Char} (h : isSegmentStart c) : IsPlain c := by
    simp only [isSegmentStart, Bool.or_eq_true, decide_eq_true_eq] at h
    rcases h with hlower | rfl
    · have halphanum : ((c.isUpper || c.isLower) || c.isDigit) = true := by simp [hlower]
      exact isPlain_of_isAlphanum halphanum
    · decide
  cases segment with
  | nil => cases hc
  | cons first rest =>
    simp only [isSegment, Bool.and_eq_true, List.all_eq_true, Bool.or_eq_true] at h
    rcases List.mem_cons.mp hc with rfl | hc
    · exact hstart h.1
    · rcases h.2 c hc with h | hdigit
      · exact hstart h
      · exact isPlain_of_isAlphanum (by simp [Char.isAlphanum, hdigit])

theorem plain_of_isValid {package : String} (h : isValid package) : Plain package := by
  intro c hc
  by_cases hdot : c = '.'
  · rw [hdot]
    decide
  · obtain ⟨piece, hpiece, hin⟩ : ∃ piece ∈ Text.splitOn (· == '.') package.toList, c ∈ piece :=
      Text.exists_piece_iff.mpr ⟨hc, by simpa using hdot⟩
    exact isPlain_of_isSegment (List.all_eq_true.mp h piece hpiece) hin

theorem plain_child {package segment : String} (hpackage : Plain package)
    (hsegment : Plain segment) : Plain (child package segment) :=
  (hpackage.append (by decide)).append hsegment

end Package

end ThingTypes
