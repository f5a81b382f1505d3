import Mathlib.Tactic.SplitIfs
import ThingTypes.Resolution.Basic

/-
  Runs of a resolution from a state, depth included: what it answers and what it leaves behind. The
  steps that choose a name are functions of the catalog, and the equations of this file say
  which.
-/

namespace ThingTypes.Resolution

variable {α β : Type} {s : ResolutionSettings} {site : Site}

/-- The result of a run, or its failure. -/
def answer (x : ResolveM α) (st : ResolutionState) : Except GenerationError α :=
  match x st with
  | .ok a _ => .ok a
  | .error e _ => .error e

/-- The state after a run, whether it succeeds or not. -/
def leaves (x : ResolveM α) (st : ResolutionState) : ResolutionState :=
  match x st with
  | .ok _ st' => st'
  | .error _ st' => st'

theorem bind_eq_ok_iff {x : ResolveM α} {f : α → ResolveM β} {st st' : ResolutionState} {b : β} :
    (x >>= f) st = .ok b st' ↔ ∃ a st₁, x st = .ok a st₁ ∧ f a st₁ = .ok b st' := by
  change EStateM.bind x f st = .ok b st' ↔ _
  unfold EStateM.bind
  cases x st with
  | ok a st₁ =>
    refine ⟨fun h => ⟨a, st₁, rfl, h⟩, ?_⟩
    rintro ⟨_, _, ⟨⟩, h⟩
    exact h
  | error e st₁ => simp

theorem bind_eq_error_iff {x : ResolveM α} {f : α → ResolveM β} {st st' : ResolutionState}
    {e : GenerationError} :
    (x >>= f) st = .error e st' ↔
      x st = .error e st' ∨ ∃ a st₁, x st = .ok a st₁ ∧ f a st₁ = .error e st' := by
  change EStateM.bind x f st = .error e st' ↔ _
  unfold EStateM.bind
  cases x st with
  | ok a st₁ =>
    refine ⟨fun h => .inr ⟨a, st₁, rfl, h⟩, ?_⟩
    rintro (⟨⟨⟩⟩ | ⟨_, _, ⟨⟩, h⟩)
    exact h
  | error e st₁ => simp

theorem get_bind (f : ResolutionState → ResolveM α) (st : ResolutionState) :
    (get >>= f : ResolveM α) st = f st st := rfl

theorem answer_bind (x : ResolveM α) (f : α → ResolveM β) (st : ResolutionState) :
    answer (x >>= f) st = (answer x st).bind fun a => answer (f a) (leaves x st) := by
  unfold answer leaves
  change (match EStateM.bind x f st with | .ok b _ => _ | .error e _ => _) = _
  unfold EStateM.bind
  cases x st <;> rfl

theorem leaves_bind (x : ResolveM α) (f : α → ResolveM β) (st : ResolutionState) :
    leaves (x >>= f) st =
      match answer x st with
      | .ok a => leaves (f a) (leaves x st)
      | .error _ => leaves x st := by
  unfold answer leaves
  change (match EStateM.bind x f st with | .ok _ st' => st' | .error _ st' => st') = _
  unfold EStateM.bind
  cases x st <;> rfl

theorem answer_nested (x : ResolveM α) (st : ResolutionState) :
    answer (nested s site x) st =
      if s.maxDepth ≤ st.depth then .error (.schemaTooDeep site.path s.maxDepth)
      else answer x { st with depth := st.depth + 1 } := by
  unfold answer nested
  split_ifs
  · rfl
  · cases x { st with depth := st.depth + 1 } <;> rfl

theorem leaves_nested (x : ResolveM α) (st : ResolutionState) :
    leaves (nested s site x) st =
      if s.maxDepth ≤ st.depth then st
      else
        let st' := leaves x { st with depth := st.depth + 1 }
        { st' with depth := st'.depth - 1 } := by
  unfold leaves nested
  split_ifs
  · rfl
  · cases x { st with depth := st.depth + 1 } <;> rfl

theorem nested_eq_ok_iff {x : ResolveM α} {st st' : ResolutionState} {a : α} :
    nested s site x st = .ok a st' ↔
      st.depth < s.maxDepth ∧ ∃ st₁, x { st with depth := st.depth + 1 } = .ok a st₁ ∧
        { st₁ with depth := st₁.depth - 1 } = st' := by
  unfold nested
  split_ifs with hlimit
  · simp [Nat.not_lt_of_le hlimit]
  · cases x { st with depth := st.depth + 1 } with
    | ok b st₁ =>
      constructor
      · rintro ⟨⟩
        exact ⟨Nat.lt_of_not_le hlimit, st₁, rfl, rfl⟩
      · rintro ⟨-, _, ⟨⟩, rfl⟩
        rfl
    | error e st₁ => simp

theorem nested_eq_error_iff {x : ResolveM α} {st st' : ResolutionState} {e : GenerationError} :
    nested s site x st = .error e st' ↔
      s.maxDepth ≤ st.depth ∧ .schemaTooDeep site.path s.maxDepth = e ∧ st = st' ∨
      st.depth < s.maxDepth ∧ ∃ st₁, x { st with depth := st.depth + 1 } = .error e st₁ ∧
        { st₁ with depth := st₁.depth - 1 } = st' := by
  unfold nested
  split_ifs with hlimit
  · simp [hlimit, Nat.not_lt_of_le hlimit]
  · cases x { st with depth := st.depth + 1 } with
    | ok a st₁ => simp [hlimit]
    | error e' st₁ =>
      constructor
      · rintro ⟨⟩
        exact .inr ⟨Nat.lt_of_not_le hlimit, st₁, rfl, rfl⟩
      · rintro (⟨h, -⟩ | ⟨-, _, ⟨⟩, rfl⟩)
        · exact absurd h hlimit
        · rfl

/-- A step that looks at the catalog and may change it. Where it fails, it changes nothing. -/
def ofCatalog (f : Catalog → Except GenerationError (α × Catalog)) : ResolveM α := fun st =>
  match f st.catalog with
  | .ok (a, catalog) => .ok a { st with catalog }
  | .error e => .error e st

theorem ofCatalog_eq_ok_iff {f : Catalog → Except GenerationError (α × Catalog)}
    {st st' : ResolutionState} {a : α} :
    ofCatalog f st = .ok a st' ↔
      ∃ c, f st.catalog = .ok (a, c) ∧ { st with catalog := c } = st' := by
  unfold ofCatalog
  rcases f st.catalog with e | ⟨b, c⟩
  · simp
  · constructor
    · rintro ⟨⟩
      exact ⟨c, rfl, rfl⟩
    · rintro ⟨_, ⟨⟩, rfl⟩
      rfl

theorem eq_of_ofCatalog_eq_error {f : Catalog → Except GenerationError (α × Catalog)}
    {st st' : ResolutionState} {e : GenerationError} (h : ofCatalog f st = .error e st') :
    st' = st := by
  unfold ofCatalog at h
  cases hf : f st.catalog with
  | ok r =>
    rw [hf] at h
    cases h
  | error e =>
    rw [hf] at h
    cases h
    rfl

/-! ## Names of classes -/

/-- The claim of a candidate, as a function of the catalog. -/
def claimedCandidate (name : String) (parent? feature? : Option String) (package : String)
    (fingerprint : Fingerprint) (c : Catalog) : Option NameClaim × Catalog :=
  match c.claimClassName package (Identifier.searchCandidates name parent? feature?
      (c.takenForClass package fingerprint)) fingerprint with
  | none => (none, c)
  | some (claim, c) => (some claim, c)

theorem claimCandidate_eq (name : String) (parent? feature? : Option String) (package : String)
    (fingerprint : Fingerprint) :
    claimCandidate name parent? feature? package fingerprint =
      ofCatalog fun c => .ok (claimedCandidate name parent? feature? package fingerprint c) := by
  funext st
  unfold claimCandidate ofCatalog claimedCandidate
  rw [get_bind]
  dsimp only
  generalize st.catalog.claimClassName _ _ _ = claimed
  rcases claimed with _ | ⟨claim, catalog⟩ <;> rfl

/-- The name of a class that the naming policy derives. -/
def derivedClassName (s : ResolutionSettings) (name : String) (fingerprint : Fingerprint)
    (site : Site) (c : Catalog) : String :=
  Identifier.deriveName s.naming (Identifier.className name) site.context.parentName?
    (c.takenForClass site.package fingerprint)

/-- What comes of the search for a class name. -/
def classClaim? (s : ResolutionSettings) (name : String) (fingerprint : Fingerprint) (site : Site)
    (c : Catalog) : Option (NameClaim × Catalog) :=
  c.claimClassName site.package
    (Identifier.searchCandidates (derivedClassName s name fingerprint site c)
      site.context.parentName? site.context.feature? (c.takenForClass site.package fingerprint))
    fingerprint

/-- The name that has been claimed. -/
def ClassSlot.type : ClassSlot → TypeName
  | fresh type => type
  | existing type => type

/-- The slot that a claim gives. -/
def slotOf (site : Site) (claim : NameClaim) : ClassSlot :=
  let type : TypeName := { package := site.package, name := claim.name }
  if claim.existing then .existing type else .fresh type

/-- The claim of a class name, as a function of the catalog. -/
def claimedClass (s : ResolutionSettings) (name : String) (fingerprint : Fingerprint) (site : Site)
    (c : Catalog) : Except GenerationError (ClassSlot × Catalog) :=
  if (Identifier.className name).isEmpty then .error (.malformedSchema site.path .emptyClassName)
  else
    match classClaim? s name fingerprint site c with
    | none =>
      .error (.malformedSchema site.path
        (.noFreeClassName (derivedClassName s name fingerprint site c)))
    | some (claim, c) => .ok (slotOf site claim, c)

theorem claimClass_eq (name : String) (fingerprint : Fingerprint) :
    claimClass s name fingerprint site = ofCatalog (claimedClass s name fingerprint site) := by
  funext st
  unfold claimClass ofCatalog claimedClass
  dsimp only
  split_ifs
  · rfl
  · rw [get_bind]
    change EStateM.bind (claimCandidate _ _ _ _ _) _ st = _
    unfold EStateM.bind
    rw [claimCandidate_eq, ofCatalog, claimedCandidate, classClaim?, derivedClassName]
    generalize st.catalog.claimClassName _ _ _ = claimed
    rcases claimed with _ | ⟨claim, catalog⟩ <;> rfl

theorem type_slotOf (site : Site) (claim : NameClaim) :
    (slotOf site claim).type = { package := site.package, name := claim.name } := by
  unfold slotOf
  dsimp only
  split <;> rfl

/-! ## Names of enums -/

/-- The declaration of a top-level enum, as a function of the catalog. -/
def withSeparateEnum (s : ResolutionSettings) (name : String) (info : SchemaInfo)
    (content : EnumContent) (site : Site) (c : Catalog) :
    Except GenerationError (TypeName × Catalog) :=
  match separateEnumName s c name content.fingerprint site with
  | .error e => .error e
  | .ok found =>
    match c.enums.insertSeparate (enumDecl found info content site.package none) with
    | .error e => .error e
    | .ok (_, enums) => .ok ({ package := site.package, name := found }, { c with enums })

theorem declareSeparateEnum_eq (name : String) (info : SchemaInfo) (content : EnumContent) :
    declareSeparateEnum s name info content site =
      ofCatalog (withSeparateEnum s name info content site) := by
  funext st
  unfold declareSeparateEnum ofCatalog withSeparateEnum
  rw [get_bind]
  dsimp only
  cases separateEnumName s st.catalog name content.fingerprint site with
  | error e => rfl
  | ok found =>
    change EStateM.bind (liftExcept (st.catalog.enums.insertSeparate
      (enumDecl found info content site.package none))) _ st = _
    unfold EStateM.bind
    dsimp only
    rcases st.catalog.enums.insertSeparate (enumDecl found info content site.package none) with
      e | ⟨outcome, enums⟩ <;> rfl

end ThingTypes.Resolution
