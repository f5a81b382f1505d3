import ThingTypes.Proofs.EnumRegistration
import ThingTypes.Resolution.Schema

/-
  How a resolution ends, as a pair of postconditions on the catalog: one for its result and one for
  its failure. `Outcome act c Q E` says of a resolution that starts from the catalog `c` that it
  ends in `Q`, or fails in `E`. There is one rule for each way of putting resolutions together, and
  below one for each step that declares something. Everything later goes through these rules and
  leaves the steps closed.
-/

namespace ThingTypes.Resolution

variable {α β : Type} {c : Catalog} {s : ResolutionSettings} {site : Site}

/-- From the catalog `c`, at any depth, `act` ends with `Q` of its result and the catalog, or fails
with `E` of the catalog that it leaves behind. -/
structure Outcome (act : ResolveM α) (c : Catalog) (Q : α → Catalog → Prop) (E : Catalog → Prop) :
    Prop where
  of_run : ∀ depth, match act ⟨c, depth⟩ with
    | .ok a st => Q a st.catalog
    | .error _ st => E st.catalog

namespace Outcome

variable {x : ResolveM α} {f : α → ResolveM β} {Q : α → Catalog → Prop} {R : β → Catalog → Prop}
  {E : Catalog → Prop}

theorem trivially (x : ResolveM α) : Outcome x c (fun _ _ => True) fun _ => True where
  of_run depth := by cases x ⟨c, depth⟩ <;> trivial

theorem mono {Q' : α → Catalog → Prop} {E' : Catalog → Prop} (h : Outcome x c Q E)
    (hQ : ∀ a c', Q a c' → Q' a c') (hE : ∀ c', E c' → E' c') : Outcome x c Q' E' where
  of_run depth := by
    have h := h.of_run depth
    cases hx : x ⟨c, depth⟩ with
    | ok a st => rw [hx] at h; exact hQ _ _ h
    | error e st => rw [hx] at h; exact hE _ h

theorem imp {Q' : α → Catalog → Prop} (h : Outcome x c Q E) (hQ : ∀ a c', Q a c' → Q' a c') :
    Outcome x c Q' E :=
  h.mono hQ fun _ h => h

theorem and {Q' : α → Catalog → Prop} {E' : Catalog → Prop} (h : Outcome x c Q E)
    (h' : Outcome x c Q' E') :
    Outcome x c (fun a c' => Q a c' ∧ Q' a c') (fun c' => E c' ∧ E' c') where
  of_run depth := by
    have h := h.of_run depth
    have h' := h'.of_run depth
    cases hx : x ⟨c, depth⟩ with
    | ok a st => rw [hx] at h h'; exact ⟨h, h'⟩
    | error e st => rw [hx] at h h'; exact ⟨h, h'⟩

theorem pure {a : α} (h : Q a c) : Outcome (Pure.pure a) c Q E := ⟨fun _ => h⟩

theorem throw {e : GenerationError} (h : E c) :
    Outcome (MonadExcept.throw e : ResolveM α) c Q E := ⟨fun _ => h⟩

theorem bind (hx : Outcome x c Q E) (hf : ∀ a c', Q a c' → Outcome (f a) c' R E) :
    Outcome (x >>= f) c R E where
  of_run depth := by
    have hx := hx.of_run depth
    change match EStateM.bind x f ⟨c, depth⟩ with
      | .ok b st => R b st.catalog
      | .error _ st => E st.catalog
    unfold EStateM.bind
    cases h : x ⟨c, depth⟩ with
    | ok a st => rw [h] at hx; exact (hf a st.catalog hx).of_run st.depth
    | error e st => rw [h] at hx; exact hx

theorem map {g : α → β} (hx : Outcome x c (fun a c' => R (g a) c') E) :
    Outcome (g <$> x) c R E where
  of_run depth := by
    have hx := hx.of_run depth
    change match EStateM.map g x ⟨c, depth⟩ with
      | .ok b st => R b st.catalog
      | .error _ st => E st.catalog
    unfold EStateM.map
    cases h : x ⟨c, depth⟩ with
    | ok a st => rw [h] at hx; exact hx
    | error e st => rw [h] at hx; exact hx

theorem liftExcept {r : Except GenerationError α} (hok : ∀ a, r = .ok a → Q a c)
    (herror : E c) : Outcome (liftExcept r : ResolveM α) c Q E := by
  cases r with
  | ok a => exact pure (hok a rfl)
  | error e => exact throw herror

theorem malformed {fault : SchemaFault} (h : E c) :
    Outcome (malformed site fault : ResolveM α) c Q E := throw h

theorem unsupported {fault : ShapeFault} (h : E c) :
    Outcome (unsupported site fault : ResolveM α) c Q E := throw h

theorem modifyCatalog {g : Catalog → Catalog} {Q : Unit → Catalog → Prop} (h : Q () (g c)) :
    Outcome (modifyCatalog g) c Q E := ⟨fun _ => h⟩

theorem get {f : ResolutionState → ResolveM β} (h : ∀ st, st.catalog = c → Outcome (f st) c R E) :
    Outcome (MonadState.get >>= f) c R E :=
  bind (Q := fun st c' => st.catalog = c ∧ c' = c) ⟨fun _ => ⟨rfl, rfl⟩⟩ fun st _ ⟨hst, hc⟩ =>
    hc ▸ h st hst

theorem set {st : ResolutionState} {Q : PUnit → Catalog → Prop} (h : Q ⟨⟩ st.catalog) :
    Outcome (MonadStateOf.set st : ResolveM PUnit) c Q E := ⟨fun _ => h⟩

/-- The level is entered and left again without touching the catalog. -/
theorem nested (h : Outcome x c Q E) (herror : E c) : Outcome (nested s site x) c Q E where
  of_run depth := by
    unfold Resolution.nested
    by_cases hd : s.maxDepth ≤ depth
    · simp only [hd, if_true]
      exact herror
    · simp only [hd, if_false]
      have h := h.of_run (depth + 1)
      cases hx : x ⟨c, depth + 1⟩ with
      | ok a st => rw [hx] at h; exact h
      | error e st => rw [hx] at h; exact h

/-- What an outcome says of one run that succeeds. -/
theorem of_ok {st st' : ResolutionState} {a : α} (h : Outcome x st.catalog Q E)
    (hrun : x st = .ok a st') : Q a st'.catalog := by
  have h := h.of_run st.depth
  rw [hrun] at h
  exact h

theorem of_error {st st' : ResolutionState} {e : GenerationError} (h : Outcome x st.catalog Q E)
    (hrun : x st = .error e st') : E st'.catalog := by
  have h := h.of_run st.depth
  rw [hrun] at h
  exact h

end Outcome

end ThingTypes.Resolution
