import ThingTypes.Catalog.Basic
import ThingTypes.Proofs.OrderedMap

/-
  Which names are taken, and what a claim comes to. A claim goes through candidates in order and
  ends at the first that is not taken: another structure does not hold it, and it is no top-level
  enum. There it finds its structure, or takes the free name.
-/

namespace ThingTypes

variable {package name : String} {fingerprint : Fingerprint}

namespace ClassCatalog

variable (c : ClassCatalog)

theorem claim_cons (rest : List String) (renamed : Bool) :
    c.claim package (name :: rest) fingerprint renamed =
      match c.table.get? ⟨package, name⟩ with
      | none =>
        some (⟨name, renamed, false⟩,
          { c with table := c.table.insert ⟨package, name⟩ fingerprint })
      | some held =>
        if held = fingerprint then some (⟨name, renamed, true⟩, c)
        else c.claim package rest fingerprint true := by
  rw [claim, register, NameTable.register]
  cases c.table.get? ⟨package, name⟩ with
  | none => rfl
  | some held =>
    by_cases h : held = fingerprint
    · simp [h]
    · simp [h]

/-- A claim ends at the first name that no other structure holds. -/
theorem claim_cases (names : List String) (renamed : Bool) :
    (names.find? fun name => !c.table.hasConflict ⟨package, name⟩ fingerprint) = none ∧
        c.claim package names fingerprint renamed = none ∨
      ∃ found renamed',
        (names.find? fun name => !c.table.hasConflict ⟨package, name⟩ fingerprint) = some found ∧
          (c.table.get? ⟨package, found⟩ = some fingerprint ∧
              c.claim package names fingerprint renamed = some (⟨found, renamed', true⟩, c) ∨
            c.table.get? ⟨package, found⟩ = none ∧
              c.claim package names fingerprint renamed = some (⟨found, renamed', false⟩,
                { c with table := c.table.insert ⟨package, found⟩ fingerprint })) := by
  induction names generalizing renamed with
  | nil => exact .inl ⟨rfl, rfl⟩
  | cons name rest ih =>
    rw [claim_cons, List.find?_cons, NameTable.hasConflict]
    cases h : c.table.get? ⟨package, name⟩ with
    | none => exact .inr ⟨name, renamed, by simp, .inr ⟨h, rfl⟩⟩
    | some held =>
      by_cases hf : held = fingerprint
      · exact .inr ⟨name, renamed, by simp [hf], .inl ⟨hf ▸ h, by simp [hf]⟩⟩
      · simpa [hf] using ih true

/-- Names behind the one that is claimed make no difference. -/
theorem claim_append {names : List String} {renamed : Bool} {claimed : NameClaim × ClassCatalog}
    (h : c.claim package names fingerprint renamed = some claimed) (rest : List String) :
    c.claim package (names ++ rest) fingerprint renamed = some claimed := by
  induction names generalizing renamed with
  | nil => cases h
  | cons name names ih =>
    rw [List.cons_append, claim_cons]
    rw [claim_cons] at h
    cases hheld : c.table.get? ⟨package, name⟩ with
    | none => rwa [hheld] at h
    | some held =>
      simp only [hheld] at h ⊢
      split_ifs at h ⊢ with hsame
      · exact h
      · exact ih h

end ClassCatalog

namespace Catalog

variable (c : Catalog)

theorem mem_takenForClass :
    name ∈ c.takenForClass package fingerprint ↔
      c.classes.table.hasConflict ⟨package, name⟩ fingerprint ∨
        c.enums.separate? ⟨package, name⟩ ≠ none := by
  have hconflict : name ∈ c.classes.table.conflicting package fingerprint ↔
      c.classes.table.hasConflict ⟨package, name⟩ fingerprint := by
    simp only [NameTable.conflicting, NameTable.hasConflict, List.mem_map, List.mem_filter,
      Prod.exists, OrderedMap.mem_entries_iff, decide_eq_true_eq, Option.any_eq_true]
    constructor
    · rintro ⟨⟨_, _⟩, held, ⟨hheld, rfl, hne⟩, rfl⟩
      exact ⟨held, hheld, hne⟩
    · rintro ⟨held, hheld, hne⟩
      exact ⟨⟨package, name⟩, held, ⟨hheld, rfl, hne⟩, rfl⟩
  have hseparate : name ∈ c.enums.separateNames package ↔
      c.enums.separate? ⟨package, name⟩ ≠ none := by
    simp only [EnumCatalog.separateNames, List.mem_map, List.mem_filter, OrderedMap.mem_keys_iff,
      decide_eq_true_eq]
    constructor
    · rintro ⟨⟨_, _⟩, ⟨hheld, rfl⟩, rfl⟩
      exact hheld
    · exact fun h => ⟨⟨package, name⟩, ⟨h, rfl⟩, rfl⟩
  rw [takenForClass, List.mem_append, hconflict, hseparate]

theorem mem_takenForEnum :
    name ∈ c.takenForEnum package fingerprint ↔
      c.classes.table.get? ⟨package, name⟩ ≠ none ∨
        ∃ e, c.enums.separate? ⟨package, name⟩ = some e ∧ e.fingerprint ≠ fingerprint := by
  simp only [takenForEnum, EnumCatalog.conflicting, List.mem_append, List.mem_map, List.mem_filter,
    OrderedMap.mem_keys_iff, Prod.exists, OrderedMap.mem_entries_iff, decide_eq_true_eq]
  refine or_congr ⟨?_, ?_⟩ ⟨?_, ?_⟩
  · rintro ⟨⟨_, _⟩, ⟨hheld, rfl⟩, rfl⟩
    exact hheld
  · exact fun h => ⟨⟨package, name⟩, ⟨h, rfl⟩, rfl⟩
  · rintro ⟨⟨_, _⟩, e, ⟨he, rfl, hne⟩, rfl⟩
    exact ⟨e, he, hne⟩
  · rintro ⟨e, he, hne⟩
    exact ⟨⟨package, name⟩, e, ⟨he, rfl, hne⟩, rfl⟩

/-- A class gets the first name that is not taken. -/
theorem claimClassName_cases (package : String) (names : List String) (fingerprint : Fingerprint) :
    names.find? (!(c.takenForClass package fingerprint).contains ·) = none ∧
        c.claimClassName package names fingerprint = none ∨
      ∃ found renamed,
        names.find? (!(c.takenForClass package fingerprint).contains ·) = some found ∧
          (c.classes.table.get? ⟨package, found⟩ = some fingerprint ∧
              c.claimClassName package names fingerprint = some (⟨found, renamed, true⟩, c) ∨
            (c.classes.table.get? ⟨package, found⟩ = none ∧
                c.enums.separate? ⟨package, found⟩ = none) ∧
              c.claimClassName package names fingerprint = some (⟨found, renamed, false⟩,
                { c with
                  classes :=
                    { c.classes with
                      table := c.classes.table.insert ⟨package, found⟩ fingerprint } })) := by
  have hsearch : names.find? (!(c.takenForClass package fingerprint).contains ·) =
      (names.filter fun name => (c.enums.separate? ⟨package, name⟩).isNone).find?
        fun name => !c.classes.table.hasConflict ⟨package, name⟩ fingerprint := by
    rw [List.find?_filter]
    congr 1
    funext name
    rw [Bool.eq_iff_iff]
    simp [mem_takenForClass, and_comm]
  rw [hsearch]
  unfold claimClassName
  rcases c.classes.claim_cases (names.filter fun name =>
      (c.enums.separate? ⟨package, name⟩).isNone) false with
    ⟨hnone, hclaim⟩ | ⟨found, renamed, hfound, ⟨hheld, hclaim⟩ | ⟨hheld, hclaim⟩⟩
  · exact .inl ⟨hnone, by simp only [hclaim, Option.map_none]⟩
  · exact .inr ⟨found, renamed, hfound, .inl ⟨hheld, by simp only [hclaim, Option.map_some]⟩⟩
  · have hseparate := (List.mem_filter.mp (List.mem_of_find?_eq_some hfound)).2
    exact .inr ⟨found, renamed, hfound, .inr ⟨⟨hheld, Option.isNone_iff_eq_none.mp hseparate⟩,
      by simp only [hclaim, Option.map_some]⟩⟩

theorem claimClassName_append {names : List String} {claimed : NameClaim × Catalog}
    (h : c.claimClassName package names fingerprint = some claimed) (rest : List String) :
    c.claimClassName package (names ++ rest) fingerprint = some claimed := by
  obtain ⟨inner, hinner, rfl⟩ := Option.map_eq_some_iff.mp h
  unfold claimClassName
  dsimp only
  rw [List.filter_append, c.classes.claim_append hinner, Option.map_some]

end Catalog

end ThingTypes
