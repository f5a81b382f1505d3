import Mathlib.Order.Nat
import ThingTypes.Proofs.Identifier.Candidates

/-
  Where searches for names end. The candidates are a sequence without end, in which numbers make all
  names different from some point on. Whatever finite list of names is taken, one of the candidates
  is free, and a search through any long enough beginning of the sequence stops at the first one.

  The policy that prefers the name alone goes through the preferences in order, as far as the one
  with the parent: it answers that one also where it is taken, and does not go on to the numbers
  then (`derived_first_free_iff`).
-/

namespace ThingTypes.Identifier

/-! ## Searches through a sequence -/

/-- A search through the beginning of a sequence ends at the first hit, if it comes that far. -/
theorem find?_map_range {α : Type} {names : Nat → α} {p : α → Bool} {i : Nat}
    (h : IsLeast {i | p (names i)} i) (count : Nat) :
    ((List.range count).map names).find? p = if i < count then some (names i) else none := by
  rw [List.find?_map]
  split_ifs with hi
  · have hfirst : (List.range count).find? (p ∘ names) = some i := by
      refine List.find?_range_eq_some.mpr ⟨h.1, List.mem_range.mpr hi, fun j hj => ?_⟩
      by_contra hhit
      have hle : i ≤ j := h.2 (by simpa using hhit : p (names j))
      omega
    rw [hfirst, Option.map_some]
  · have hnone : (List.range count).find? (p ∘ names) = none := by
      refine List.find?_eq_none.mpr fun j hj hhit => ?_
      have hle : i ≤ j := h.2 hhit
      have hlt := List.mem_range.mp hj
      omega
    rw [hnone, Option.map_none]

/-- A sequence that ends in numbered names has a first one that is free. -/
theorem exists_isLeast_free {names : Nat → String} {base : String} (start : Nat)
    (htail : ∀ n, names (start + n) = base ++ toString (n + 2)) (taken : List String) :
    ∃ i, IsLeast {i | names i ∉ taken} i := by
  obtain ⟨found, hfound⟩ := exists_find?_numbered base taken
  obtain ⟨n, -, rfl⟩ := List.mem_map.mp (List.mem_of_find?_eq_some hfound)
  have hfree : ∃ i, names i ∉ taken :=
    ⟨start + n, by rw [htail]; simpa using List.find?_some hfound⟩
  exact ⟨Nat.find hfree, Nat.isLeast_find hfree⟩

theorem find?_map_range_free {names : Nat → String} {taken : List String} {i : Nat}
    (h : IsLeast {i | names i ∉ taken} i) (count : Nat) :
    ((List.range count).map names).find? (!taken.contains ·) =
      if i < count then some (names i) else none :=
  find?_map_range (by simpa using h) count

/-! ## Candidates -/

variable {name : String} {parent? feature? : Option String} {taken : List String} {i : Nat}

/-- The candidates, one after the other: the named ones and then the numbers, without end. -/
def candidate (name : String) (parent? feature? : Option String) (i : Nat) : String :=
  let named := namedCandidates name parent? feature?
  named[i]?.getD (compoundName (some sharedName) name ++ toString (i - named.length + 2))

theorem candidate_add (name : String) (parent? feature? : Option String) (n : Nat) :
    candidate name parent? feature? ((namedCandidates name parent? feature?).length + n) =
      compoundName (some sharedName) name ++ toString (n + 2) := by
  rw [candidate, List.getElem?_eq_none (by omega), Option.getD_none, Nat.add_sub_cancel_left]

/-- A list of candidates is the beginning of the sequence. -/
theorem conflictCandidates_eq (name : String) (parent? feature? : Option String) (count : Nat) :
    conflictCandidates name parent? feature? count =
      (List.range count).map (candidate name parent? feature?) := by
  refine List.ext_getElem? fun i => ?_
  by_cases hcount : i < count
  · rw [conflictCandidates, List.getElem?_take_of_lt hcount, List.getElem?_map,
      List.getElem?_range hcount, Option.map_some]
    by_cases hnamed : i < (namedCandidates name parent? feature?).length
    · rw [List.getElem?_append_left hnamed, candidate, List.getElem?_eq_getElem hnamed,
        Option.getD_some]
    · obtain ⟨n, rfl⟩ := Nat.exists_eq_add_of_le (Nat.le_of_not_lt hnamed)
      have hn : n < count - (namedCandidates name parent? feature?).length := by omega
      rw [List.getElem?_append_right (by omega), Nat.add_sub_cancel_left, candidate_add, numbered,
        List.getElem?_map, List.getElem?_range hn, Option.map_some]
  · have hlong : (conflictCandidates name parent? feature? count).length ≤ i := by
      rw [conflictCandidates, List.length_take]
      omega
    rw [List.getElem?_eq_none hlong, List.getElem?_eq_none (by simpa using hcount)]

theorem exists_isLeast_candidate (name : String) (parent? feature? : Option String)
    (taken : List String) : ∃ i, IsLeast {i | candidate name parent? feature? i ∉ taken} i :=
  exists_isLeast_free _ (candidate_add name parent? feature?) taken

/-- A search through the candidates ends at the first free one, if it comes that far. -/
theorem find?_conflictCandidates (h : IsLeast {i | candidate name parent? feature? i ∉ taken} i)
    (count : Nat) :
    (conflictCandidates name parent? feature? count).find? (!taken.contains ·) =
      if i < count then some (candidate name parent? feature? i) else none := by
  rw [conflictCandidates_eq, find?_map_range_free h]

theorem exists_firstFree? (name : String) (parent? feature? : Option String)
    (taken : List String) : ∃ found, firstFree? name parent? feature? taken = some found := by
  obtain ⟨found, hfound⟩ := exists_find?_numbered (compoundName (some sharedName) name) taken
  rw [firstFree?, searchCandidates_eq, List.find?_append, hfound]
  cases (namedCandidates name parent? feature?).find? (!taken.contains ·) with
  | some named => exact ⟨named, rfl⟩
  | none => exact ⟨found, rfl⟩

/-- The candidates that a search goes through are a beginning of the sequence, and enough of it. -/
theorem exists_searchCandidates_eq
    (h : IsLeast {i | candidate name parent? feature? i ∉ taken} i) :
    ∃ count, i < count ∧
      searchCandidates name parent? feature? taken =
        conflictCandidates name parent? feature? count := by
  obtain ⟨found, hfound⟩ := exists_firstFree? name parent? feature? taken
  rw [firstFree?, searchCandidates, find?_conflictCandidates h] at hfound
  split_ifs at hfound with hlong
  exact ⟨_, hlong, rfl⟩

theorem firstFree?_eq (h : IsLeast {i | candidate name parent? feature? i ∉ taken} i) :
    firstFree? name parent? feature? taken = some (candidate name parent? feature? i) := by
  obtain ⟨count, hcount, hsearch⟩ := exists_searchCandidates_eq h
  rw [firstFree?, hsearch, find?_conflictCandidates h, if_pos hcount]

/-! ## Preferences -/

/-- The names that a nested class should get, the best first: its own, the one with the parent, and
its own with the numbers from 2 on. -/
def preferredName (name : String) (parent? : Option String) : Nat → String
  | 0 => name
  | 1 => compoundName parent? name
  | n + 2 => name ++ toString (n + 2)

theorem exists_isLeast_preferredName (name : String) (parent? : Option String)
    (taken : List String) : ∃ i, IsLeast {i | preferredName name parent? i ∉ taken} i :=
  exists_isLeast_free 2 (fun n => by rw [Nat.add_comm, preferredName]) taken

theorem exists_isLeast_number (name : String) (taken : List String) :
    ∃ n, IsLeast {n | name ++ toString (n + 2) ∉ taken} n :=
  exists_isLeast_free 0 (fun n => by rw [Nat.zero_add]) taken

/-- A search through the numbers ends at the first free one, if it comes that far. -/
theorem find?_numbered {n : Nat} (h : IsLeast {n | name ++ toString (n + 2) ∉ taken} n)
    (count : Nat) :
    (numbered name count).find? (!taken.contains ·) =
      if n < count then some (name ++ toString (n + 2)) else none :=
  find?_map_range_free h count

/-- What the policy derives that starts with the name alone. -/
theorem deriveName_compoundWhenTaken {n : Nat}
    (h : IsLeast {n | name ++ toString (n + 2) ∉ taken} n) :
    deriveName .compoundWhenTaken name parent? taken =
      if name ∈ taken then
        if compoundName parent? name = name then name ++ toString (n + 2)
        else compoundName parent? name
      else name := by
  have hnumber : (numbered name (taken.length + 1)).find? (!taken.contains ·) =
      some (name ++ toString (n + 2)) := by
    obtain ⟨found, hfound⟩ := exists_find?_numbered name taken
    rw [find?_numbered h] at hfound ⊢
    split_ifs at hfound ⊢
    rfl
  by_cases hname : name ∈ taken
  · by_cases hcompound : compoundName parent? name = name
    · have hderived : deriveName .compoundWhenTaken name parent? taken =
          ((numbered name (taken.length + 1)).find? (!taken.contains ·)).getD name := by
        simp [deriveName, hname, hcompound]
      rw [hderived, hnumber, if_pos hname, if_pos hcompound, Option.getD_some]
    · simp [deriveName, hname, hcompound]
  · simp [deriveName, hname]

/-- The first preference that is free. -/
theorem preferredName_of_isLeast {n : Nat}
    (hi : IsLeast {i | preferredName name parent? i ∉ taken} i)
    (hn : IsLeast {n | name ++ toString (n + 2) ∉ taken} n) :
    preferredName name parent? i =
      if name ∈ taken then
        if compoundName parent? name ∈ taken then name ++ toString (n + 2)
        else compoundName parent? name
      else name := by
  have hfree : preferredName name parent? i ∉ taken := hi.1
  have hleast (j : Nat) (hj : preferredName name parent? j ∉ taken) : i ≤ j := hi.2 hj
  split_ifs with hname hcompound
  · match i, hfree, hleast (n + 2) hn.1 with
    | 0, h, _ => exact absurd hname h
    | 1, h, _ => exact absurd hcompound h
    | m + 2, h, hle =>
      have hge : n ≤ m := hn.2 h
      obtain rfl : m = n := by omega
      rfl
  · match i, hfree, hleast 1 hcompound with
    | 0, h, _ => exact absurd hname h
    | 1, _, _ => rfl
  · match i, hleast 0 hname with
    | 0, _ => rfl

/-- The name that the policy derives is the first preference that is free, unless the name alone and
the different one with the parent are both taken: then it is the latter. -/
theorem derived_first_free_iff (name : String) (parent? : Option String) (taken : List String) :
    ∃ i, IsLeast {i | preferredName name parent? i ∉ taken} i ∧
      deriveName .compoundWhenTaken name parent? taken =
        (if name ∈ taken ∧ compoundName parent? name ∈ taken ∧ compoundName parent? name ≠ name then
          compoundName parent? name
        else preferredName name parent? i) ∧
      (deriveName .compoundWhenTaken name parent? taken ∈ taken ↔
        name ∈ taken ∧ compoundName parent? name ∈ taken ∧ compoundName parent? name ≠ name) := by
  obtain ⟨i, hi⟩ := exists_isLeast_preferredName name parent? taken
  obtain ⟨n, hn⟩ := exists_isLeast_number name taken
  have hderived : deriveName .compoundWhenTaken name parent? taken =
      if name ∈ taken ∧ compoundName parent? name ∈ taken ∧ compoundName parent? name ≠ name then
        compoundName parent? name
      else preferredName name parent? i := by
    rw [deriveName_compoundWhenTaken hn, preferredName_of_isLeast hi hn]
    by_cases hname : name ∈ taken
    · by_cases hsame : compoundName parent? name = name
      · simp [hname, hsame]
      · by_cases hcompound : compoundName parent? name ∈ taken
        · simp [hname, hsame, hcompound]
        · simp [hname, hsame, hcompound]
    · simp [hname]
  refine ⟨i, hi, hderived, ?_⟩
  rw [hderived]
  split_ifs with hblocked
  · exact iff_of_true hblocked.2.1 hblocked
  · exact iff_of_false hi.1 hblocked

end ThingTypes.Identifier
