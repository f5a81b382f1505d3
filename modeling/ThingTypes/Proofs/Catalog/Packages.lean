import ThingTypes.Proofs.Catalog.Claims

/-
  The part of a catalog that belongs to some packages. Names are looked for and declarations are
  made in one package at a time, so what happens in a package depends on the part of the catalog
  that belongs to it, and leaves the rest as it is. Nested enums are kept under their bare names
  besides; no step looks there, and no package has a part of it.
-/

namespace ThingTypes

universe u v

/-- What is picked out by a stronger condition is picked out after a weaker one too. -/
theorem filter_filter_of_imp {α : Type u} {p q : α → Bool} (h : ∀ a, q a → p a) (l : List α) :
    (l.filter p).filter q = l.filter q := by
  rw [List.filter_filter]
  refine List.filter_congr fun a _ => ?_
  cases hq : q a with
  | false => rfl
  | true => rw [h a hq, Bool.and_true]

namespace OrderedMap

theorem ext_entries {κ : Type u} {α : Type v} {m n : OrderedMap κ α} (h : m.entries = n.entries) :
    m = n := by
  obtain ⟨entries, nodup⟩ := m
  obtain ⟨entries', nodup'⟩ := n
  cases h
  rfl

variable {κ : Type u} {α : Type v}

/-- The entries whose keys are wanted. -/
def filter (p : κ → Bool) (m : OrderedMap κ α) : OrderedMap κ α where
  entries := m.entries.filter fun e => p e.1
  nodup := (List.filter_sublist.map Prod.fst).nodup m.nodup

theorem filter_filter (p : κ → Bool) (m : OrderedMap κ α) : (m.filter p).filter p = m.filter p :=
  ext_entries (filter_filter_of_imp (fun _ => id) m.entries)

variable [DecidableEq κ] {p : κ → Bool} {m : OrderedMap κ α} {k : κ} {a : α} {f : α → α}

theorem get?_filter (hk : p k) : (m.filter p).get? k = m.get? k := by
  refine Option.ext fun a => ?_
  rw [← mem_entries_iff, ← mem_entries_iff]
  simp [filter, hk]

theorem filter_insert :
    (m.insert k a).filter p = if p k then (m.filter p).insert k a else m.filter p := by
  obtain ⟨entries, nodup⟩ := m
  have h : (Entries.insert k a entries).filter (fun e => p e.1) =
      if p k then Entries.insert k a (entries.filter fun e => p e.1)
      else entries.filter fun e => p e.1 := by
    clear nodup
    induction entries with
    | nil => cases hk : p k <;> simp [Entries.insert, hk]
    | cons e entries ih =>
      obtain ⟨k', b⟩ := e
      by_cases hk' : k' = k
      · subst hk'
        cases hk : p k' <;> simp [Entries.insert, hk]
      · cases hp : p k' <;> cases hk : p k <;> simp [Entries.insert, hk', hp, hk, ih]
  refine ext_entries (h.trans ?_)
  split <;> rfl

theorem filter_modify : (m.modify k f).filter p = (m.filter p).modify k f :=
  ext_entries (by simp [filter, modify, List.filter_map, Function.comp_def])

theorem filter_modify_of_neg (hk : ¬p k) : (m.modify k f).filter p = m.filter p := by
  rw [filter_modify]
  refine ext_entries ?_
  calc (m.filter p).entries.map (fun e => (e.1, if e.1 = k then f e.2 else e.2))
      = (m.filter p).entries.map id := List.map_congr_left fun e he => by
        have hne : e.1 ≠ k := fun h => hk (h ▸ (List.mem_filter.mp he).2)
        simp [hne]
    _ = (m.filter p).entries := List.map_id _

end OrderedMap

variable {mine : String → Bool} {package name : String} {fingerprint : Fingerprint} {key : TypeKey}

/-! ## Classes and aliases -/

namespace ClassCatalog

/-- The classes and aliases of some packages. -/
def within (mine : String → Bool) (c : ClassCatalog) : ClassCatalog where
  table := c.table.filter fun k => mine k.package
  classes := c.classes.filter fun k => mine k.package
  aliases := c.aliases.filter fun k => mine k.package

variable (c : ClassCatalog)

theorem table_get?_within (h : mine key.package) :
    (c.within mine).table.get? key = c.table.get? key :=
  OrderedMap.get?_filter h

theorem isRegistered_within (h : mine key.package) :
    (c.within mine).isRegistered key = c.isRegistered key := by
  unfold isRegistered OrderedMap.contains
  rw [c.table_get?_within h]

theorem conflicting_within (h : mine package) :
    (c.within mine).table.conflicting package fingerprint =
      c.table.conflicting package fingerprint := by
  unfold NameTable.conflicting
  refine congrArg _ (filter_filter_of_imp (fun e he => ?_) _)
  rw [decide_eq_true_eq] at he
  change mine e.1.package
  rwa [he.1]

theorem names_within (h : mine package) :
    (c.within mine).table.keys.filter (fun k => k.package = package) =
      c.table.keys.filter fun k => k.package = package := by
  unfold OrderedMap.keys
  rw [List.filter_map, List.filter_map]
  refine congrArg _ (filter_filter_of_imp (fun e he => ?_) _)
  rw [Function.comp_apply, decide_eq_true_eq] at he
  change mine e.1.package
  rwa [he]

/-- A claim depends on the names of its package alone. -/
theorem claim_within (h : mine package) (names : List String) (renamed : Bool) :
    (c.within mine).claim package names fingerprint renamed =
      (c.claim package names fingerprint renamed).map fun r => (r.1, r.2.within mine) := by
  induction names generalizing renamed with
  | nil => rfl
  | cons name rest ih =>
    have hkey : mine (TypeKey.mk package name).package := h
    rw [claim_cons, claim_cons, c.table_get?_within hkey]
    cases c.table.get? ⟨package, name⟩ with
    | none => simp [within, OrderedMap.filter_insert, h]
    | some held =>
      dsimp only
      split_ifs
      · rfl
      · exact ih true

/-- A claim changes no names of other packages. -/
theorem within_claim (h : ¬mine package) {names : List String} {renamed : Bool} {claim : NameClaim}
    {c' : ClassCatalog} (hclaim : c.claim package names fingerprint renamed = some (claim, c')) :
    c'.within mine = c.within mine := by
  induction names generalizing renamed with
  | nil => cases hclaim
  | cons name rest ih =>
    rw [claim_cons] at hclaim
    cases hheld : c.table.get? ⟨package, name⟩ with
    | none =>
      rw [hheld] at hclaim
      cases hclaim
      simp [within, OrderedMap.filter_insert, h]
    | some held =>
      rw [hheld] at hclaim
      dsimp only at hclaim
      split_ifs at hclaim
      · cases hclaim
        rfl
      · exact ih hclaim

theorem within_insertClass (d : ClassDecl) :
    (c.insertClass d).within mine =
      if mine d.package then (c.within mine).insertClass d else c.within mine := by
  unfold insertClass within
  rw [OrderedMap.filter_insert, show d.key.package = d.package from rfl]
  split <;> rfl

theorem within_insertAlias (a : AliasDecl) :
    (c.insertAlias a).within mine =
      if mine a.package then (c.within mine).insertAlias a else c.within mine := by
  unfold insertAlias within
  rw [OrderedMap.filter_insert, show a.key.package = a.package from rfl]
  split <;> rfl

theorem within_modifyClass (f : ClassDecl → ClassDecl) :
    (c.modifyClass key f).within mine = (c.within mine).modifyClass key f := by
  simp [modifyClass, within, OrderedMap.filter_modify]

theorem within_modifyClass_of_neg (h : ¬mine key.package) (f : ClassDecl → ClassDecl) :
    (c.modifyClass key f).within mine = c.within mine := by
  have hclasses : (c.classes.modify key f).filter (fun k => mine k.package) =
      c.classes.filter fun k => mine k.package := OrderedMap.filter_modify_of_neg h
  simp only [modifyClass, within, hclasses]

end ClassCatalog

/-! ## Enums -/

namespace EnumCatalog

/-- The enums of some packages, without the nested ones under their bare names. -/
def within (mine : String → Bool) (c : EnumCatalog) : EnumCatalog where
  table := c.table.filter fun k => mine k.package
  constants := c.constants.filter fun k => mine k.package
  separate := c.separate.filter fun k => mine k.package

variable (c : EnumCatalog)

theorem separate?_within (h : mine key.package) :
    (c.within mine).separate? key = c.separate? key :=
  OrderedMap.get?_filter h

theorem separateNames_within (h : mine package) :
    (c.within mine).separateNames package = c.separateNames package := by
  unfold separateNames OrderedMap.keys
  rw [List.filter_map, List.filter_map]
  refine congrArg _ (congrArg _ (filter_filter_of_imp (fun e he => ?_) _))
  rw [Function.comp_apply, decide_eq_true_eq] at he
  change mine e.1.package
  rwa [he]

theorem conflicting_within (h : mine package) :
    (c.within mine).conflicting package fingerprint = c.conflicting package fingerprint := by
  unfold conflicting
  refine congrArg _ (filter_filter_of_imp (fun e he => ?_) _)
  rw [decide_eq_true_eq] at he
  change mine e.1.package
  rwa [he.1]

/-- What comes of a top-level enum depends on the names of its package alone. -/
theorem insertSeparate_within {e : EnumDecl} (h : mine e.package) :
    (c.within mine).insertSeparate e =
      (c.insertSeparate e).map fun r => (r.1, r.2.within mine) := by
  have hkey : mine e.key.package := h
  have htable : (c.within mine).table.get? e.key = c.table.get? e.key := OrderedMap.get?_filter hkey
  have hconstants : (c.within mine).constants.get? e.key = c.constants.get? e.key :=
    OrderedMap.get?_filter hkey
  unfold insertSeparate NameTable.register
  rw [htable, hconstants]
  cases c.table.get? e.key with
  | none => simp [within, OrderedMap.filter_insert, hkey, Except.map]
  | some held =>
    by_cases hheld : held = e.fingerprint
    · simp [hheld, Except.map]
    · simp [hheld, Except.map]

/-- A top-level enum changes no names of other packages. -/
theorem within_insertSeparate {e : EnumDecl} (h : ¬mine e.package)
    {outcome : EnumRegistration × EnumCatalog} (hinsert : c.insertSeparate e = .ok outcome) :
    outcome.2.within mine = c.within mine := by
  have hkey : ¬mine e.key.package := h
  unfold insertSeparate NameTable.register at hinsert
  cases hheld : c.table.get? e.key with
  | none =>
    rw [hheld] at hinsert
    cases hinsert
    simp [within, OrderedMap.filter_insert, hkey]
  | some held =>
    by_cases hsame : held = e.fingerprint
    · simp only [hheld, hsame, if_true] at hinsert
      cases hinsert
      rfl
    · simp only [hheld, hsame, if_false] at hinsert
      cases hinsert

theorem within_insertInline (e : EnumDecl) :
    (c.insertInline e).within mine =
      if mine e.package then ((c.within mine).insertInline e).within mine else c.within mine := by
  unfold insertInline within
  simp only [OrderedMap.filter_insert, OrderedMap.filter_filter,
    show e.key.package = e.package from rfl]
  split <;> simp_all

end EnumCatalog

/-! ## Catalogs -/

namespace Catalog

/-- The part of a catalog that belongs to some packages. -/
def within (mine : String → Bool) (c : Catalog) : Catalog where
  classes := c.classes.within mine
  enums := c.enums.within mine

theorem within_eq_iff {c c' : Catalog} :
    c.within mine = c'.within mine ↔
      c.classes.within mine = c'.classes.within mine ∧
        c.enums.within mine = c'.enums.within mine := by
  rw [within, within, mk.injEq]

variable (c : Catalog)

theorem takenForClass_within (h : mine package) :
    (c.within mine).takenForClass package fingerprint = c.takenForClass package fingerprint := by
  unfold takenForClass
  rw [within, c.classes.conflicting_within h, c.enums.separateNames_within h]

theorem takenForEnum_within (h : mine package) :
    (c.within mine).takenForEnum package fingerprint = c.takenForEnum package fingerprint := by
  unfold takenForEnum
  rw [within, c.classes.names_within h, c.enums.conflicting_within h]

theorem claimClassName_within (h : mine package) (names : List String) :
    (c.within mine).claimClassName package names fingerprint =
      (c.claimClassName package names fingerprint).map fun r => (r.1, r.2.within mine) := by
  have hseparate (name : String) : ((c.within mine).enums.separate? ⟨package, name⟩) =
      c.enums.separate? ⟨package, name⟩ := c.enums.separate?_within h
  unfold claimClassName
  simp only [hseparate]
  rw [within, c.classes.claim_within h, Option.map_map, Option.map_map]
  rfl

theorem within_claimClassName (h : ¬mine package) {names : List String} {claim : NameClaim}
    {c' : Catalog} (hclaim : c.claimClassName package names fingerprint = some (claim, c')) :
    c'.within mine = c.within mine := by
  obtain ⟨⟨claim', classes⟩, hclasses, hresult⟩ := Option.map_eq_some_iff.mp hclaim
  cases hresult
  rw [within, within, c.classes.within_claim h hclasses]

end Catalog

end ThingTypes
