import Mathlib.Data.List.Nodup
import Mathlib.Data.List.Perm.Subperm
import ThingTypes.Identifier.Candidates

/-
  Searches among candidates. A search tries more numbers than there are names taken, so it ends at a
  free name; and the names behind that one do not matter. So what is taken later does not divert a
  search, unless it takes the very name that the search found (`firstFree?_derived_stable`).
-/

namespace ThingTypes.Identifier

/-! ## Numbers -/

theorem numberedName_injective (name : String) :
    Function.Injective fun i : Nat => name ++ toString (i + 2) := fun i j h => by
  have hdigits : (toString (i + 2)).toList = (toString (j + 2)).toList := by
    have hlist := congrArg String.toList h
    simp only [String.toList_append] at hlist
    exact List.append_cancel_left hlist
  have hvalue := congrArg (Nat.ofDigitChars 10 · 0) hdigits
  simpa [Nat.toString_eq_ofList_toDigits] using hvalue

theorem numbered_begins (name : String) {m n : Nat} (h : m ≤ n) :
    numbered name m <+: numbered name n := by
  obtain ⟨k, rfl⟩ := Nat.exists_eq_add_of_le h
  rw [numbered, numbered, List.range_add, List.map_append]
  exact List.prefix_append _ _

/-- There are no more numbered names among those taken than names taken. -/
theorem le_length_of_numbered_subset {name : String} {n : Nat} {taken : List String}
    (h : numbered name n ⊆ taken) : n ≤ taken.length := by
  have hnodup : (numbered name n).Nodup := List.nodup_range.map (numberedName_injective name)
  simpa [numbered] using (List.subperm_of_subset hnodup h).length_le

/-! ## Searches -/

variable {name found : String} {parent? feature? : Option String} {taken taken' : List String}

/-- A search past some names and then through the numbers finds what it found before, if more is
taken but not that. -/
theorem find?_numbered_stable (named : List String) (hsub : taken ⊆ taken')
    (hfound : (named ++ numbered name (taken.length + 1)).find? (!taken.contains ·) = some found)
    (hfree : found ∉ taken') :
    (named ++ numbered name (taken'.length + 1)).find? (!taken'.contains ·) = some found := by
  obtain ⟨-, before, after, hsplit, hbefore⟩ := List.find?_eq_some_iff_append.mp hfound
  have htaken : before ⊆ taken' := fun a ha => hsub (by simpa using hbefore a ha)
  -- both lists of candidates begin a longer one, so one of them begins the other
  let longer := named ++ numbered name (max (taken.length + 1) (taken'.length + 1))
  have hsearched : before ++ [found] <+: longer := by
    have hold : before ++ [found] <+: named ++ numbered name (taken.length + 1) :=
      ⟨after, by simp [hsplit]⟩
    exact hold.trans ((List.prefix_append_right_inj _).mpr (numbered_begins name (by omega)))
  have hnew : named ++ numbered name (taken'.length + 1) <+: longer :=
    (List.prefix_append_right_inj _).mpr (numbered_begins name (by omega))
  have hreached : before ++ [found] <+: named ++ numbered name (taken'.length + 1) := by
    rcases List.prefix_or_prefix_of_prefix hsearched hnew with h | h
    · exact h
    · rcases List.prefix_concat_iff.mp h with h | h
      · exact h ▸ List.prefix_rfl
      · have hall : numbered name (taken'.length + 1) ⊆ taken' := fun a ha =>
          htaken (h.subset (List.mem_append_right _ ha))
        have hle := le_length_of_numbered_subset hall
        omega
  obtain ⟨rest, hrest⟩ := hreached
  refine List.find?_eq_some_iff_append.mpr ⟨by simpa using hfree, before, rest, ?_, ?_⟩
  · rw [← hrest, List.append_assoc, List.singleton_append]
  · exact fun a ha => by simpa using htaken ha

theorem searchCandidates_eq (name : String) (parent? feature? : Option String)
    (taken : List String) :
    searchCandidates name parent? feature? taken =
      namedCandidates name parent? feature? ++
        numbered (compoundName (some sharedName) name) (taken.length + 1) := by
  unfold searchCandidates conflictCandidates
  rw [List.take_of_length_le]
  · congr 2
    omega
  · simp [numbered]
    omega

theorem firstFree?_stable (hsub : taken ⊆ taken')
    (hfound : firstFree? name parent? feature? taken = some found) (hfree : found ∉ taken') :
    firstFree? name parent? feature? taken' = some found := by
  rw [firstFree?, searchCandidates_eq] at hfound ⊢
  exact find?_numbered_stable _ hsub hfound hfree

/-- A name that is free is the first one tried. -/
theorem firstFree?_self (h : name ∉ taken) :
    firstFree? name parent? feature? taken = some name := by
  rw [firstFree?, searchCandidates_eq, namedCandidates, List.eraseDups_cons, List.cons_append,
    List.find?_cons_of_pos]
  simpa using h

/-! ## Derived names -/

/-- Every name that is numbered in vain is taken. -/
theorem exists_find?_numbered (name : String) (taken : List String) :
    ∃ found, (numbered name (taken.length + 1)).find? (!taken.contains ·) = some found := by
  cases h : (numbered name (taken.length + 1)).find? (!taken.contains ·) with
  | some found => exact ⟨found, rfl⟩
  | none =>
    have hall : numbered name (taken.length + 1) ⊆ taken := fun a ha => by
      simpa using List.find?_eq_none.mp h a ha
    have hle := le_length_of_numbered_subset hall
    omega

/-- A naming policy derives the same name when more is taken, but not a name that was free when it
was derived. -/
theorem deriveName_stable {policy : ClassNaming} (hsub : taken ⊆ taken')
    (hfree : deriveName policy name parent? taken ∉ taken →
      deriveName policy name parent? taken ∉ taken') :
    deriveName policy name parent? taken' = deriveName policy name parent? taken := by
  cases policy with
  | alwaysCompound => rfl
  | compoundWhenTaken =>
    by_cases hname : name ∈ taken
    · have hname' := hsub hname
      by_cases hcompound : compoundName parent? name = name
      · have hnumbered {l : List String} (hmem : name ∈ l) :
            deriveName .compoundWhenTaken name parent? l =
              ((numbered name (l.length + 1)).find? (!l.contains ·)).getD name := by
          simp [deriveName, hmem, hcompound]
        obtain ⟨found, hfound⟩ := exists_find?_numbered name taken
        rw [hnumbered hname, hfound, Option.getD_some] at hfree ⊢
        have hfree' := hfree (by simpa using List.find?_some hfound)
        have hstable := find?_numbered_stable [] hsub hfound hfree'
        rw [List.nil_append] at hstable
        rw [hnumbered hname', hstable, Option.getD_some]
      · simp [deriveName, hname, hname', hcompound]
    · have hderived : deriveName .compoundWhenTaken name parent? taken = name := by
        simp [deriveName, hname]
      rw [hderived] at hfree ⊢
      simp [deriveName, hfree hname]

/-- The search from a derived name finds what it found before, if more is taken but not that. -/
theorem firstFree?_derived_stable {policy : ClassNaming} (hsub : taken ⊆ taken')
    (hfound : firstFree? (deriveName policy name parent? taken) parent? feature? taken = some found)
    (hfree : found ∉ taken') :
    firstFree? (deriveName policy name parent? taken') parent? feature? taken' = some found := by
  have hderived : deriveName policy name parent? taken' = deriveName policy name parent? taken := by
    refine deriveName_stable hsub fun h => ?_
    rw [firstFree?_self h] at hfound
    rwa [Option.some.inj hfound]
  rw [hderived]
  exact firstFree?_stable hsub hfound hfree

end ThingTypes.Identifier
