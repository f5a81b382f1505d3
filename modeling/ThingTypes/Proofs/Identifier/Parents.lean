import ThingTypes.Proofs.Identifier.Search
import ThingTypes.Proofs.Identifier.Spelling
import ThingTypes.Proofs.Unicode.FinalSigma

/-
  Parents in front of names. A parent is put before a name that does not mention it, so that no name
  has one parent twice. The name with the parent then starts with the parent; it mentions it as
  well, as long as the lower case of the parent is what the lower case of the name starts with. That
  fails for a parent that ends in a capital sigma, if the name goes on with a letter: its sigma is
  final alone and is not within the name. Such a parent is put in front again
  (`compoundName_again_iff`).
-/

namespace ThingTypes.Identifier

open Unicode (lowercase lowercaseAfter endsInSigma casedAhead)

variable {parent name : String} {feature? : Option String}

theorem append_eq_self_iff : parent ++ name = name ↔ parent = "" := by
  rw [← String.toList_inj, String.toList_append, List.append_left_eq_self, String.toList_eq_nil_iff]

theorem compoundName_some (parent name : String) :
    compoundName (some parent) name =
      if parent = "" ∨ mentions name parent = true then name else parent ++ name := by
  simp [compoundName]

/-- A parent stays away exactly from the names that mention it. -/
theorem compoundName_eq_self_iff :
    compoundName (some parent) name = name ↔ parent = "" ∨ mentions name parent = true := by
  rw [compoundName_some]
  split_ifs with h
  · exact iff_of_true rfl h
  · rw [append_eq_self_iff]
    exact iff_of_false (fun hempty => h (.inl hempty)) h

theorem compoundName_of_not_mentions (h : mentions name parent = false) :
    compoundName (some parent) name = parent ++ name := by
  rw [compoundName_some, h]
  by_cases hempty : parent = ""
  · simp [hempty]
  · simp [hempty]

/-- Only the parent itself puts itself in front. -/
theorem eq_some_of_compoundName_eq {front? : Option String} (hparent : parent ≠ "")
    (h : compoundName front? name = parent ++ name) : front? = some parent := by
  have hother : parent ++ name ≠ name := fun hself => hparent (append_eq_self_iff.mp hself)
  cases front? with
  | none => exact absurd h.symm hother
  | some front =>
    rw [compoundName_some] at h
    split_ifs at h
    · exact absurd h.symm hother
    · rw [String.append_left_inj] at h
      rw [h]

/-! ## The parent within the name -/

theorem infix_iff_prefix_or_tail {l m : List Char} : l <:+: m ↔ l <+: m ∨ l <:+: m.tail := by
  cases m with
  | nil => simp
  | cons c m => exact List.infix_cons_iff

/-- A name with its parent in front mentions the parent, unless the parent ends in a capital sigma
that is not final there, and is not found further back either. -/
theorem mentions_append_iff :
    mentions (parent ++ name) parent = true ↔
      ((endsInSigma parent.toList && casedAhead name.toList) = true →
        lowercase parent.toList <:+: (lowercase (parent ++ name).toList).tail) := by
  rw [mentions, Text.occursIn_iff, infix_iff_prefix_or_tail, String.toList_append,
    Unicode.lowercase_prefix_append_iff, ← Bool.not_eq_true]
  tauto

/-- When a second time changes nothing. -/
theorem compoundName_again_eq_iff :
    compoundName (some parent) (compoundName (some parent) name) = compoundName (some parent) name ↔
      (mentions name parent = false →
        (endsInSigma parent.toList && casedAhead name.toList) = true →
        lowercase parent.toList <:+: (lowercase (parent ++ name).toList).tail) := by
  cases hmentions : mentions name parent with
  | true =>
    have hself : compoundName (some parent) name = name :=
      compoundName_eq_self_iff.mpr (.inr hmentions)
    rw [hself]
    exact iff_of_true hself nofun
  | false =>
    rw [compoundName_of_not_mentions hmentions, compoundName_eq_self_iff, ← mentions_append_iff]
    constructor
    · rintro (rfl | h)
      · exact fun _ => mentions_append_iff.mpr nofun
      · exact fun _ => h
    · exact fun h => .inr (h rfl)

/-! ## Numbers behind the name -/

/-- What a text of digits can be appended to and still end in what it was: digits. -/
theorem subset_of_suffix_append {cs digits : List Char} (hdigits : digits ≠ [])
    (h : cs <:+ cs ++ digits) : cs ⊆ digits := by
  induction hn : cs.length using Nat.strong_induction_on generalizing cs with
  | _ n ih =>
    subst hn
    rcases Nat.le_total cs.length digits.length with hshort | hlong
    · exact (List.suffix_of_suffix_length_le h (List.suffix_append _ _) hshort).subset
    · obtain ⟨front, rfl⟩ := List.suffix_of_suffix_length_le (List.suffix_append _ _) h hlong
      have hlength : front.length < (front ++ digits).length := by
        rw [List.length_append]
        have hpos := List.length_pos_of_ne_nil hdigits
        omega
      have hfront : front <:+ front ++ digits := by
        obtain ⟨before, hbefore⟩ := h
        rw [← List.append_assoc] at hbefore
        exact ⟨before, List.append_cancel_right hbefore⟩
      exact List.append_subset.mpr ⟨ih _ hlength hfront rfl, List.Subset.refl _⟩

theorem lowercase_of_digits {cs : List Char} (h : ∀ c ∈ cs, c.isDigit = true) :
    lowercase cs = cs := by
  suffices ∀ before, lowercaseAfter before cs = cs from this []
  induction cs with
  | nil => exact fun _ => rfl
  | cons c cs ih =>
    intro before
    obtain ⟨hc, hcs⟩ := List.forall_mem_cons.mp h
    have halphanum : c.isAlphanum = true := by simp [Char.isAlphanum, hc]
    have hsigma : c ≠ 'Σ' := by
      rintro rfl
      exact absurd hc (by decide)
    have hsame : c.toLower = c := by
      have hcases := hasCases_of_isAlphanum halphanum
      have hletter : c.isAlpha = false := by simpa [hc] using hcases.isDigit
      exact hcases.toLower_eq_self.mpr (Bool.or_eq_false_iff.mp hletter).1
    rw [lowercaseAfter, if_neg hsigma, toLower_of_isAlphanum halphanum, hsame, ih hcs,
      List.singleton_append]

/-- Digits do not mention what starts with the letter of the shared name. -/
theorem not_mentions_of_digits {rest : List Char} (hname : ∀ c ∈ name.toList, c.isDigit = true)
    (hparent : parent.toList = 'S' :: rest) : mentions name parent = false := by
  rw [Bool.eq_false_iff, mentions, ne_eq, Text.occursIn_iff, lowercase_of_digits hname, hparent]
  intro h
  have hsmall : 's' ∈ lowercase ('S' :: rest) := List.mem_append_left _ List.mem_cons_self
  exact absurd (hname _ (h.subset hsmall)) (by decide)

/-- With a number behind it, a name that mentions a parent is not the name with the parent in front
of it: it would have to be made of digits, and they mention no such parent. -/
theorem numbered_ne_append (hparent : parent ≠ "") (hmentions : mentions name parent = true)
    (n : Nat) : compoundName (some sharedName) name ++ toString n ≠ parent ++ name := by
  intro h
  have hdigits : ∀ c ∈ (toString n).toList, c.isDigit = true := by
    intro c hc
    have hmem : c ∈ Nat.toDigits 10 n := by simpa [Nat.repr] using hc
    exact Nat.isDigit_of_mem_toDigits (by decide) (by decide) hmem
  have hnumber : (toString n).toList ≠ [] := by simp [Nat.repr, Nat.toDigits_ne_nil]
  obtain ⟨front, hfront⟩ : ∃ front, compoundName (some sharedName) name = front ++ name := by
    rw [compoundName_some]
    split_ifs
    · exact ⟨"", by simp⟩
    · exact ⟨sharedName, rfl⟩
  have htexts : front.toList ++ (name.toList ++ (toString n).toList) =
      parent.toList ++ name.toList := by
    rw [hfront] at h
    simpa using congrArg String.toList h
  have hsuffix : name.toList <:+ name.toList ++ (toString n).toList :=
    List.suffix_of_suffix_length_le ⟨parent.toList, rfl⟩ ⟨front.toList, htexts⟩ (by simp)
  have hname : ∀ c ∈ name.toList, c.isDigit = true := fun c hc =>
    hdigits c (subset_of_suffix_append hnumber hsuffix hc)
  have hshared : compoundName (some sharedName) name = sharedName ++ name :=
    compoundName_of_not_mentions (not_mentions_of_digits hname rfl)
  obtain ⟨first, rest, hrest⟩ :=
    List.exists_cons_of_ne_nil (String.toList_eq_nil_iff.not.mpr hparent)
  have hfirst : first = 'S' := by
    rw [hshared] at h
    have hhead := congrArg (fun text : String => text.toList.head?) h
    simpa [hrest, sharedName] using hhead.symm
  rw [hfirst] at hrest
  rw [not_mentions_of_digits hname hrest] at hmentions
  cases hmentions

/-! ## Candidates -/

theorem mem_namedCandidates {candidate : String} :
    candidate ∈ namedCandidates name (some parent) feature? ↔
      candidate = name ∨ candidate = compoundName (some parent) name ∨
        candidate = compoundName feature? name ∨
          candidate = compoundName (some sharedName) name := by
  simp [namedCandidates, List.mem_eraseDups]

theorem mem_conflictCandidates_of_named {parent? : Option String} {candidate : String}
    (h : candidate ∈ namedCandidates name parent? feature?) :
    ∃ count, candidate ∈ conflictCandidates name parent? feature? count := by
  refine ⟨(namedCandidates name parent? feature?).length, ?_⟩
  rw [conflictCandidates, List.take_left]
  exact h

/-- The parent that a name mentions already is not put in front of it by any candidate. -/
theorem append_not_mem_conflictCandidates (hparent : parent ≠ "")
    (hmentions : mentions name parent = true) (count : Nat) :
    parent ++ name ∉ conflictCandidates name (some parent) feature? count := by
  have hself : compoundName (some parent) name = name :=
    compoundName_eq_self_iff.mpr (.inr hmentions)
  have hother : parent ++ name ≠ name := fun h => hparent (append_eq_self_iff.mp h)
  have hfront : ∀ front?, parent ++ name ≠ compoundName front? name := by
    intro front? h
    obtain rfl := eq_some_of_compoundName_eq hparent h.symm
    exact hother (h.trans hself)
  intro hmem
  rcases List.mem_append.mp (List.mem_of_mem_take hmem) with hnamed | hnumber
  · rcases mem_namedCandidates.mp hnamed with h | h | h | h
    · exact hother h
    · exact hfront _ h
    · exact hfront _ h
    · exact hfront _ h
  · obtain ⟨n, -, hn⟩ := List.mem_map.mp hnumber
    exact numbered_ne_append hparent hmentions _ hn

/-- A second time, the parent is put in front of a name that it was put in front of exactly if it
ends in a capital sigma that is not final there, and is not found further back. And only then, if at
all, the candidates have the name with the parent in front of it once more. -/
theorem compoundName_again_iff (parent name : String) (feature? : Option String) :
    (compoundName (some parent) (compoundName (some parent) name) =
        compoundName (some parent) name ↔
      (mentions name parent = false →
        (endsInSigma parent.toList && casedAhead name.toList) = true →
        lowercase parent.toList <:+: (lowercase (parent ++ name).toList).tail)) ∧
    ((∃ count, parent ++ compoundName (some parent) name ∈
        conflictCandidates (compoundName (some parent) name) (some parent) feature? count) ↔
      parent = "" ∨ compoundName (some parent) (compoundName (some parent) name) ≠
        compoundName (some parent) name) := by
  refine ⟨compoundName_again_eq_iff, ?_⟩
  constructor
  · rintro ⟨count, hmem⟩
    by_contra hnone
    obtain ⟨hparent, hagain⟩ := not_or.mp hnone
    rcases compoundName_eq_self_iff.mp (not_not.mp hagain) with hempty | hmentions
    · exact hparent hempty
    · exact append_not_mem_conflictCandidates hparent hmentions count hmem
  · intro h
    refine mem_conflictCandidates_of_named (mem_namedCandidates.mpr ?_)
    rcases h with rfl | hagain
    · exact .inl (append_eq_self_iff.mpr rfl)
    · have hmentions : mentions (compoundName (some parent) name) parent = false := by
        rw [ne_eq, compoundName_eq_self_iff, not_or] at hagain
        exact Bool.eq_false_iff.mpr hagain.2
      exact .inr (.inl (compoundName_of_not_mentions hmentions).symm)

/-- A parent that ends in a sigma is put in front twice; without the sigma, or before a digit, it is
not. -/
theorem compoundName_again_sigma :
    compoundName (some "AbcΣ") "Type" = "AbcΣType" ∧
      compoundName (some "AbcΣ") "AbcΣType" = "AbcΣAbcΣType" ∧
      (∃ count, "AbcΣAbcΣType" ∈ conflictCandidates "AbcΣType" (some "AbcΣ") none count) ∧
      compoundName (some "Abc") (compoundName (some "Abc") "Type") = "AbcType" ∧
      compoundName (some "AbcΣ") (compoundName (some "AbcΣ") "2") = "AbcΣ2" := by
  obtain ⟨honce, htwice, hplain, hdigit⟩ : compoundName (some "AbcΣ") "Type" = "AbcΣType" ∧
      compoundName (some "AbcΣ") "AbcΣType" = "AbcΣAbcΣType" ∧
      compoundName (some "Abc") "Type" = "AbcType" ∧
      compoundName (some "AbcΣ") "2" = "AbcΣ2" := by decide +kernel
  have hdoubled := (compoundName_again_iff "AbcΣ" "Type" none).2
  rw [honce, htwice] at hdoubled
  refine ⟨honce, htwice, hdoubled.mpr (.inr (by decide)), ?_, ?_⟩
  · exact ((compoundName_again_iff "Abc" "Type" none).1.mpr fun _ h => absurd h (by decide)).trans
      hplain
  · exact ((compoundName_again_iff "AbcΣ" "2" none).1.mpr fun _ h => absurd h (by decide)).trans
      hdigit

end ThingTypes.Identifier
