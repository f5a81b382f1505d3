import ThingTypes.Proofs.Resolution.Calls

/-
  One namespace for each package. Classes, aliases and top-level enums look for their names in
  different ways, and a call that fails leaves behind what it has declared so far; still no two of
  them ever have one name, and a name never comes to stand for another structure.
-/

namespace ThingTypes

namespace Catalog

/-- The names of a package are shared out: no two of its classes, aliases and top-level enums have
one name, and the table holds each class and each alias with its fingerprint. -/
structure OneNamespace (c : Catalog) : Prop where
  class_not_alias : ∀ {k d}, c.classes.class? k = some d → c.classes.alias? k = none
  class_not_enum : ∀ {k d}, c.classes.class? k = some d → c.enums.separate? k = none
  alias_not_enum : ∀ {k a}, c.classes.alias? k = some a → c.enums.separate? k = none
  table_not_enum : ∀ {k f}, c.classes.table.get? k = some f → c.enums.separate? k = none
  class_held : ∀ {k d}, c.classes.class? k = some d →
    d.key = k ∧ c.classes.table.get? k = some d.fingerprint
  alias_held : ∀ {k a}, c.classes.alias? k = some a →
    a.key = k ∧ c.classes.table.get? k = some a.fingerprint

variable {c c' : Catalog}

/-- A name in the table is never that of a top-level enum. -/
theorem Consistent.not_enum_of_table (hc : c.Consistent) {k : TypeKey} {f : Fingerprint}
    (h : c.classes.table.get? k = some f) : c.enums.separate? k = none := by
  by_contra henum
  rw [hc.enum_apart henum] at h
  cases h

theorem Consistent.oneNamespace (hc : c.Consistent) : c.OneNamespace where
  class_not_alias h := hc.apart (by rw [h]; simp)
  class_not_enum h := hc.not_enum_of_table (hc.class_held h).2
  alias_not_enum h := hc.not_enum_of_table (hc.alias_held h).2
  table_not_enum h := hc.not_enum_of_table h
  class_held := hc.class_held
  alias_held := hc.alias_held

/-- A name keeps its fingerprint. It is the name of a class or an alias, and that stays. -/
theorem Keeps.table_get? (h : c.Keeps c') (hc : c.Consistent) (hc' : c'.Consistent) {k : TypeKey}
    {f : Fingerprint} (hf : c.classes.table.get? k = some f) :
    c'.classes.table.get? k = some f := by
  rcases hc.declared hf with hclass | halias
  · obtain ⟨d, hd⟩ := Option.ne_none_iff_exists'.mp hclass
    obtain ⟨d', hd', hgrows⟩ := h.classes hd
    have hfingerprint : d'.fingerprint = d.fingerprint := hgrows.fingerprint_eq
    rw [(hc'.class_held hd').2, hfingerprint, ← (hc.class_held hd).2, hf]
  · obtain ⟨a, ha⟩ := Option.ne_none_iff_exists'.mp halias
    rw [(hc'.alias_held (h.aliases ha)).2, ← (hc.alias_held ha).2, hf]

end Catalog

namespace Resolution

theorem consistent_foldl_after (calls : List Call) {st : ResolutionState}
    (hst : st.catalog.Consistent) : (calls.foldl Call.after st).catalog.Consistent := by
  induction calls generalizing st with
  | nil => exact hst
  | cons call calls ih => exact ih (call.after_keeps hst).2

/-- After any calls, each with its own settings and context and whether it succeeds or not, the
names of each package are one namespace, and no later call changes what a name stands for. -/
theorem one_namespace (calls later : List Call) :
    let st : ResolutionState := calls.foldl Call.after {}
    st.catalog.OneNamespace ∧
      ∀ k f, st.catalog.classes.table.get? k = some f →
        (later.foldl Call.after st).catalog.classes.table.get? k = some f := by
  intro st
  have hst : st.catalog.Consistent := consistent_foldl_after calls Catalog.consistent_empty
  have hlater := consistent_foldl_after later hst
  exact ⟨hst.oneNamespace, fun k f h => (keeps_foldl_after later hst).table_get? hst hlater h⟩

end Resolution

end ThingTypes
