import ThingTypes.Proofs.Identifier.Search
import ThingTypes.Proofs.Resolution.Declaring
import ThingTypes.Proofs.Resolution.Running

/-
  Names are always found. A class gets the first candidate that no top-level enum has and that is
  free or held by its own structure; a top-level enum gets the name that the policy derives, or the
  first candidate after it that no class and no other enum has. The candidates go on for ever and a
  catalog holds finitely many names, so each search ends, and the errors for a name that is not found
  never arise (`name_searches_end`).
-/

namespace ThingTypes

namespace Catalog

variable {c : Catalog} {package name : String} {fingerprint : Fingerprint}

/-- Whether a class of this structure can have the name: no top-level enum has it, and if a structure
holds it, then this one. -/
structure AdmitsClass (c : Catalog) (package : String) (fingerprint : Fingerprint) (name : String) :
    Prop where
  noEnum : c.enums.separate? ⟨package, name⟩ = none
  held : ∀ held, c.classes.table.get? ⟨package, name⟩ = some held → held = fingerprint

/-- Whether a top-level enum of these values can have the name: no class or alias has it, and if an
enum has it, then one of the same values. -/
structure AdmitsEnum (c : Catalog) (package : String) (fingerprint : Fingerprint) (name : String) :
    Prop where
  noClass : c.classes.table.get? ⟨package, name⟩ = none
  held : ∀ e, c.enums.separate? ⟨package, name⟩ = some e → e.fingerprint = fingerprint

theorem admitsClass_iff :
    c.AdmitsClass package fingerprint name ↔ name ∉ c.takenForClass package fingerprint := by
  rw [mem_takenForClass, NameTable.hasConflict, not_or, not_not, Bool.not_eq_true,
    Option.any_eq_false]
  exact ⟨fun h => ⟨by simpa using h.held, h.noEnum⟩, fun h => ⟨h.2, by simpa using h.1⟩⟩

theorem admitsEnum_iff :
    c.AdmitsEnum package fingerprint name ↔ name ∉ c.takenForEnum package fingerprint := by
  rw [mem_takenForEnum, not_or, not_not]
  constructor
  · rintro ⟨hclass, hheld⟩
    exact ⟨hclass, fun ⟨e, he, hne⟩ => hne (hheld e he)⟩
  · rintro ⟨hclass, hheld⟩
    exact ⟨hclass, fun e he => not_not.mp fun hne => hheld ⟨e, he, hne⟩⟩

/-- The claim of a name, and what becomes of the catalog: the structure holds the name, and nothing
else has changed. -/
structure ClaimedAt (c : Catalog) (package : String) (fingerprint : Fingerprint) (found : String)
    (claim : NameClaim) (c' : Catalog) : Prop where
  name : claim.name = found
  existing : claim.existing ↔ c.classes.table.get? ⟨package, found⟩ = some fingerprint
  catalog : c' =
    if claim.existing then c
    else
      { c with
        classes :=
          { c.classes with table := c.classes.table.insert ⟨package, found⟩ fingerprint } }
  table : ∀ key, c'.classes.table.get? key =
    if key = ⟨package, found⟩ then some fingerprint else c.classes.table.get? key

/-- A claim takes the first of the names that the structure can have. -/
theorem exists_claimedAt {names : List String} {found : String}
    (h : names.find? (!(c.takenForClass package fingerprint).contains ·) = some found) :
    ∃ claim c', c.ClaimedAt package fingerprint found claim c' ∧
      c.claimClassName package names fingerprint = some (claim, c') := by
  rcases c.claimClassName_cases package names fingerprint with
    ⟨hnone, -⟩ | ⟨found', renamed, hfound, ⟨hheld, hclaim⟩ | ⟨⟨hfree, -⟩, hclaim⟩⟩
  · rw [h] at hnone
    cases hnone
  · rw [h] at hfound
    cases hfound
    refine ⟨_, _, ⟨rfl, by simp [hheld], rfl, fun key => ?_⟩, hclaim⟩
    by_cases hkey : key = ⟨package, found⟩
    · rw [if_pos hkey, hkey]
      exact hheld
    · rw [if_neg hkey]
      rfl
  · rw [h] at hfound
    cases hfound
    refine ⟨_, _, ⟨rfl, by simp [hfree], rfl, fun key => ?_⟩, hclaim⟩
    exact c.classes.table.get?_insert _ _ _

/-- A claim fails if the structure can have none of the names. -/
theorem claimClassName_eq_none {names : List String}
    (h : names.find? (!(c.takenForClass package fingerprint).contains ·) = none) :
    c.claimClassName package names fingerprint = none := by
  rcases c.claimClassName_cases package names fingerprint with ⟨-, hclaim⟩ | ⟨found, _, hfound, -⟩
  · exact hclaim
  · rw [h] at hfound
    cases hfound

end Catalog

namespace Resolution

open Identifier (candidate compoundName conflictCandidates deriveName numbered)

variable {c : Catalog} {package name : String} {parent? feature? : Option String}
  {fingerprint : Fingerprint} {i : Nat}

/-- A claim through the candidates takes the first one that the structure can have, whatever number
of candidates it goes through, as long as it comes that far. -/
theorem exists_claim
    (h : IsLeast {i | candidate name parent? feature? i ∉ c.takenForClass package fingerprint} i) :
    ∃ claim c', c.ClaimedAt package fingerprint (candidate name parent? feature? i) claim c' ∧
      ∀ count, c.claimClassName package (conflictCandidates name parent? feature? count)
        fingerprint = if i < count then some (claim, c') else none := by
  have hsearch := Identifier.find?_conflictCandidates h
  have hreached := hsearch (i + 1)
  rw [if_pos (Nat.lt_succ_self i)] at hreached
  obtain ⟨claim, c', hclaimed, hclaim⟩ := Catalog.exists_claimedAt hreached
  refine ⟨claim, c', hclaimed, fun count => ?_⟩
  split_ifs with hcount
  · -- more candidates than needed make no difference
    obtain ⟨more, rfl⟩ := Nat.exists_eq_add_of_le (Nat.succ_le_of_lt hcount)
    rw [Identifier.conflictCandidates_eq] at hclaim ⊢
    rw [List.range_add, List.map_append]
    exact Catalog.claimClassName_append c hclaim _
  · exact Catalog.claimClassName_eq_none (by rw [hsearch, if_neg hcount])

theorem claimCandidate_eq_of_claim {st : ResolutionState} {claim : NameClaim} {c' : Catalog}
    (h : IsLeast {i | candidate name parent? feature? i ∉
      st.catalog.takenForClass package fingerprint} i)
    (hclaim : ∀ count, st.catalog.claimClassName package
      (conflictCandidates name parent? feature? count) fingerprint =
        if i < count then some (claim, c') else none) :
    claimCandidate name parent? feature? package fingerprint st =
      .ok (some claim) { st with catalog := c' } := by
  obtain ⟨count, hcount, hsearch⟩ := Identifier.exists_searchCandidates_eq h
  rw [claimCandidate_eq]
  simp only [ofCatalog, claimedCandidate, hsearch, hclaim, if_pos hcount]

/-- A class always gets a name, unless nothing is left of its own as a name of a class. -/
theorem exists_claimClass (s : ResolutionSettings) (st : ResolutionState) (site : Site)
    (name : String) (fingerprint : Fingerprint) :
    ∃ slot st', claimClass s name fingerprint site st =
      if (Identifier.className name).isEmpty then
        .error (.malformedSchema site.path .emptyClassName) st
      else .ok slot st' := by
  obtain ⟨i, hi⟩ := Identifier.exists_isLeast_candidate
    (derivedClassName s name fingerprint site st.catalog) site.context.parentName?
    site.context.feature? (st.catalog.takenForClass site.package fingerprint)
  obtain ⟨claim, c', -, hclaim⟩ := exists_claim hi
  obtain ⟨count, hcount, hsearch⟩ := Identifier.exists_searchCandidates_eq hi
  refine ⟨slotOf site claim, { st with catalog := c' }, ?_⟩
  rw [claimClass_eq]
  simp only [ofCatalog, claimedClass, classClaim?, hsearch, hclaim, if_pos hcount]
  split_ifs <;> rfl

/-- A top-level enum always gets a name: the derived one, or where a class has that, the first
candidate that no class and no enum of other values has. -/
theorem separateEnumName_eq {s : ResolutionSettings} {site : Site}
    (h : IsLeast {i | candidate (derivedEnumName s c name fingerprint site)
      site.context.parentName? site.context.feature? i ∉
        c.takenForEnum site.package fingerprint} i) :
    separateEnumName s c name fingerprint site = .ok
      (if c.classes.isRegistered ⟨site.package, derivedEnumName s c name fingerprint site⟩ then
        candidate (derivedEnumName s c name fingerprint site) site.context.parentName?
          site.context.feature? i
      else derivedEnumName s c name fingerprint site) := by
  rw [separateEnumName_eq_ok_iff, Identifier.firstFree?_eq h, ClassCatalog.isRegistered,
    OrderedMap.contains]
  cases c.classes.table.get? ⟨site.package, derivedEnumName s c name fingerprint site⟩ <;> simp

/-- The searches for names end, whatever has been declared. A claim takes the first candidate that
the structure can have and changes nothing but the entry of that name, and a resolution makes this
claim; a class gets a name unless it is empty, and a top-level enum always gets one; and the numbers
behind a name that the policy tries come to a free one. -/
theorem name_searches_end (s : ResolutionSettings) (st : ResolutionState) (site : Site)
    (name : String) (parent? feature? : Option String) (fingerprint : Fingerprint) :
    (∃ i claim c',
      IsLeast {i | st.catalog.AdmitsClass site.package fingerprint
        (candidate name parent? feature? i)} i ∧
      st.catalog.ClaimedAt site.package fingerprint (candidate name parent? feature? i) claim c' ∧
      (∀ count, st.catalog.claimClassName site.package
        (conflictCandidates name parent? feature? count) fingerprint =
          if i < count then some (claim, c') else none) ∧
      claimCandidate name parent? feature? site.package fingerprint st =
        .ok (some claim) { st with catalog := c' }) ∧
    (∃ slot st', claimClass s name fingerprint site st =
      if (Identifier.className name).isEmpty then
        .error (.malformedSchema site.path .emptyClassName) st
      else .ok slot st') ∧
    (∃ i,
      IsLeast {i | st.catalog.AdmitsEnum site.package fingerprint
        (candidate (derivedEnumName s st.catalog name fingerprint site) site.context.parentName?
          site.context.feature? i)} i ∧
      separateEnumName s st.catalog name fingerprint site = .ok
        (if st.catalog.classes.isRegistered
            ⟨site.package, derivedEnumName s st.catalog name fingerprint site⟩ then
          candidate (derivedEnumName s st.catalog name fingerprint site) site.context.parentName?
            site.context.feature? i
        else derivedEnumName s st.catalog name fingerprint site)) ∧
    ∀ taken, ∃ n,
      IsLeast {n | name ++ toString (n + 2) ∉ taken} n ∧
      (∀ count, (numbered name count).find? (!taken.contains ·) =
        if n < count then some (name ++ toString (n + 2)) else none) ∧
      deriveName .compoundWhenTaken name parent? taken =
        if name ∈ taken then
          if compoundName parent? name = name then name ++ toString (n + 2)
          else compoundName parent? name
        else name := by
  refine ⟨?_, exists_claimClass s st site name fingerprint, ?_, fun taken => ?_⟩
  · obtain ⟨i, hi⟩ := Identifier.exists_isLeast_candidate name parent? feature?
      (st.catalog.takenForClass site.package fingerprint)
    obtain ⟨claim, c', hclaimed, hclaim⟩ := exists_claim hi
    refine ⟨i, claim, c', ?_, hclaimed, hclaim, claimCandidate_eq_of_claim hi hclaim⟩
    simpa only [Catalog.admitsClass_iff] using hi
  · obtain ⟨i, hi⟩ := Identifier.exists_isLeast_candidate
      (derivedEnumName s st.catalog name fingerprint site) site.context.parentName?
      site.context.feature? (st.catalog.takenForEnum site.package fingerprint)
    refine ⟨i, ?_, separateEnumName_eq hi⟩
    simpa only [Catalog.admitsEnum_iff] using hi
  · obtain ⟨n, hn⟩ := Identifier.exists_isLeast_number name taken
    exact ⟨n, hn, Identifier.find?_numbered hn,
      Identifier.deriveName_compoundWhenTaken hn⟩

end Resolution

end ThingTypes
