import ThingTypes.Proofs.Resolution.Labels

/-
  Calls of the resolver from outside, and runs of them. Each call has settings and a naming context
  of its own, and all calls of a run work on one catalog.
-/

namespace ThingTypes

namespace Resolution

/-- What a call asks for. -/
inductive Request where
  /-- The type of a schema that names itself. -/
  | type
  | field (name : String)
  | classNamed (name : String)
  | enumNamed (name : String)

structure Call where
  settings : ResolutionSettings
  request : Request
  node : SchemaNode
  package : String
  context : NamingContext

namespace Call

def act (call : Call) : ResolveM TypeRef :=
  match call.request with
  | .type => resolve call.settings call.node call.package call.context
  | .field name => resolveField call.settings name call.node call.package call.context
  | .classNamed name =>
    TypeRef.classType <$> resolveClass call.settings name call.node call.package call.context
  | .enumNamed name =>
    TypeRef.enumType <$> resolveSeparateEnum call.settings name call.node call.package call.context

/-- The state after a call, whether it succeeds or not. -/
def after (st : ResolutionState) (call : Call) : ResolutionState :=
  match call.act st with
  | .ok _ st' => st'
  | .error _ st' => st'

end Call

/-- Calls one after the other, up to the first that fails. -/
def resolveAll : List Call → ResolveM (List TypeRef)
  | [] => return []
  | call :: calls => do
    let type ← call.act
    let types ← resolveAll calls
    return type :: types

/-! ## Growth -/

theorem resolveSeparateEnum_outcome {s : ResolutionSettings} {name package : String}
    {node : SchemaNode} {context : NamingContext} {c : Catalog} {Q : TypeName → Catalog → Prop}
    {E : Catalog → Prop} (herror : E c)
    (h : ∀ values content, node.enumValues? = some values →
      (∃ kind, node.kind = .scalar kind ∧
        EnumContent.ofScalars s.digest kind values name = .ok content) ∨
      (∃ shape, node.kind = .object shape ∧
        EnumContent.ofRecords s.digest shape.properties values name = .ok content) →
      Outcome (declareEnum s (some name) node.info content { package, context, path := name }
        .separate) c Q E) :
    Outcome (resolveSeparateEnum s name node package context) c Q E := by
  unfold resolveSeparateEnum
  dsimp only
  cases hvalues : node.enumValues? with
  | none => exact .malformed herror
  | some values =>
    cases hkind : node.kind with
    | object shape =>
      exact .bind (.liftExcept (fun content hcontent =>
        h values content hvalues (.inr ⟨shape, hkind, hcontent⟩)) herror) fun _ _ h => h
    | scalar kind =>
      exact .bind (.liftExcept (fun content hcontent =>
        h values content hvalues (.inl ⟨kind, hkind, hcontent⟩)) herror) fun _ _ h => h
    | null => exact .bind (.unsupported (Q := fun _ _ => False) herror) fun _ _ h => h.elim
    | array items => exact .bind (.unsupported (Q := fun _ _ => False) herror) fun _ _ h => h.elim

theorem resolveSeparateEnum_growing {s : ResolutionSettings} (name : String) (node : SchemaNode)
    (package : String) (context : NamingContext) :
    Growing s.digest context.parent? none (resolveSeparateEnum s name node package context) :=
  fun c => resolveSeparateEnum_outcome (.refl c) fun _ content _ _ =>
    declareEnum_growing (some name) node.info content .separate c

theorem Call.act_growing (call : Call) :
    Growing call.settings.digest call.context.parent? none call.act := by
  unfold act
  split
  · exact typeAt_growing _ call.node { package := _, context := call.context, path := _ }
  · exact typeAt_growing _ call.node { package := _, context := call.context, path := _ }
  · exact (Growing.map (classAt_growing _ call.node _)).of_unowned
  · exact .map (resolveSeparateEnum_growing _ call.node _ _)

/-! ## Runs -/

/-- What each call preserves, a run of calls preserves. What a call says of its type goes on to
hold when it is about declarations that are kept. -/
theorem resolveAll_outcome {digest : Digest} {I : Catalog → Prop}
    {R : Call → TypeRef → Catalog → Prop} {calls : List Call}
    (hcalls : ∀ call ∈ calls, call.settings.digest = digest)
    (hstep : ∀ call ∈ calls, ∀ c, c.WellFormed digest → I c →
      Outcome call.act c (fun type c' => I c' ∧ R call type c') fun _ => True)
    (hkept : ∀ {call type c c'}, Catalog.Keeps c c' → R call type c → R call type c') :
    ∀ {c : Catalog}, c.WellFormed digest → I c →
      Outcome (resolveAll calls) c
        (fun types c' => c'.WellFormed digest ∧ c.Keeps c' ∧ I c' ∧
          List.Forall₂ (fun call type => R call type c') calls types) fun _ => True := by
  induction calls with
  | nil => exact fun hc hI => .pure ⟨hc, .refl _, hI, .nil⟩
  | cons call calls ih =>
    intro c hc hI
    have hgrowing := call.act_growing
    rw [hcalls call List.mem_cons_self] at hgrowing
    refine .bind (hgrowing.outcome (hstep call List.mem_cons_self c hc hI)) ?_
    rintro type c' ⟨hgrows, hI', hR⟩
    have hc' := hgrows.wellFormed hc
    refine .bind (ih (fun call hmem => hcalls call (List.mem_cons_of_mem _ hmem))
      (fun call hmem => hstep call (List.mem_cons_of_mem _ hmem)) hc' hI') ?_
    rintro types c'' ⟨hc'', hkeeps, hI'', hRs⟩
    exact .pure ⟨hc'', (hgrows.keeps hc.toConsistent).trans hkeeps, hI'',
      .cons (hkept hkeeps hR) hRs⟩

/-- A call keeps all declarations, even if it fails. -/
theorem Call.after_keeps (call : Call) {st : ResolutionState} (hst : st.catalog.Consistent) :
    st.catalog.Keeps (call.after st).catalog ∧ (call.after st).catalog.Consistent := by
  have hkeeps (c' : Catalog)
      (h : Catalog.Grows call.settings.digest call.context.parent? none st.catalog c') :
      st.catalog.Keeps c' ∧ c'.Consistent := ⟨h.keeps hst, h.consistent hst⟩
  unfold after
  cases hact : call.act st with
  | ok type st' => exact hkeeps _ ((call.act_growing st.catalog).of_ok hact)
  | error e st' => exact hkeeps _ ((call.act_growing st.catalog).of_error hact)

/-- So do any calls. -/
theorem keeps_foldl_after (calls : List Call) {st : ResolutionState}
    (hst : st.catalog.Consistent) :
    st.catalog.Keeps (calls.foldl Call.after st).catalog := by
  induction calls generalizing st with
  | nil => exact .refl _
  | cons call calls ih =>
    obtain ⟨hkeeps, hst'⟩ := call.after_keeps hst
    exact hkeeps.trans (ih hst')

end Resolution

end ThingTypes
