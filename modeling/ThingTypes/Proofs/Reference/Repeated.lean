import ThingTypes.Proofs.Reference.Passes

/-
  One run may inline many documents, and keeps what it has loaded from one to the next. With
  documents that are given up front nobody can tell: each answer is the one that a run of its own
  gives, failures included, and no document is loaded twice.

  A run that has loaded some documents and notes what it asks for is compared, step by step, with
  one that has loaded others and notes nothing.
-/

namespace ThingTypes

variable {α β : Type} {m : Type → Type} {documents : List (String × Json)}

/-- Inlines documents one after the other, each with what has been loaded before. A failure does
not end the run. -/
def inlineInTurn [Monad m] (load : Loader m) (settings : InliningSettings)
    (targets : List (String × Json)) : StateT DocumentCache m (List (Except GenerationError Json)) :=
  targets.mapM fun target => (inlineReferences load settings target.1 target.2).run

/-- Serves documents that are given up front, and notes the locations that are asked for. -/
abbrev Loader.noted (documents : List (String × Json)) : Loader (StateM (List String)) :=
  (Loader.ofDocuments (m := Id) documents).logged

/-- Inlining with such a note. -/
abbrev NotedM := InlineM (StateM (List String))

/-- The answer of a noted action, what it keeps, and what it has asked for so far. -/
def NotedM.outcome (act : NotedM α) (cache : DocumentCache) (log : List String) :
    (Except GenerationError α × DocumentCache) × List String :=
  (act.run.run cache).run log

theorem NotedM.outcome_bind (act : NotedM α) (f : α → NotedM β) (cache : DocumentCache)
    (log : List String) :
    NotedM.outcome (act >>= f) cache log =
      match act.outcome cache log with
      | ((.ok a, cache'), log') => (f a).outcome cache' log'
      | ((.error e, cache'), log') => ((.error e, cache'), log') := by
  unfold NotedM.outcome
  rw [ExceptT.run_bind, StateT.run_bind, StateT.run_bind]
  rcases StateT.run (StateT.run act.run cache) log with ⟨⟨e | a, cache'⟩, log'⟩ <;> rfl

/-- Whether there is a document to load. -/
def IsLoaded (documents : List (String × Json)) (location : String) : Prop :=
  (Loader.ofDocuments (m := Id) documents location).isOk

instance (documents : List (String × Json)) : DecidablePred (IsLoaded documents) :=
  fun _ => inferInstanceAs (Decidable (_ = true))

theorem isLoaded_iff {location : String} :
    IsLoaded documents location ↔ (Entries.get? location documents).isSome := by
  unfold IsLoaded Loader.ofDocuments
  cases Entries.get? location documents <;> simp [pure, Except.isOk, Except.toBool]

/-- What a run has kept and asked for so far: each document that has been loaded is kept, and has
been loaded once. -/
structure LoadedOnce (documents : List (String × Json)) (cache : DocumentCache)
    (log : List String) : Prop where
  isCacheOf : IsCacheOf documents cache
  kept : ∀ location ∈ log, IsLoaded documents location → (cache.get? location).isSome
  nodup : (log.filter (IsLoaded documents)).Nodup

theorem LoadedOnce.empty (documents : List (String × Json)) : LoadedOnce documents ∅ [] where
  isCacheOf := isCacheOf_empty documents
  kept := nofun
  nodup := .nil

/-- A location that has no document may be asked for again and again. -/
theorem LoadedOnce.missing {cache : DocumentCache} {log : List String} {location : String}
    (h : LoadedOnce documents cache log) (hnone : Entries.get? location documents = none) :
    LoadedOnce documents cache (log ++ [location]) := by
  have hlocation : ¬ IsLoaded documents location := by simp [isLoaded_iff, hnone]
  refine ⟨h.isCacheOf, fun other hother hloaded => ?_, ?_⟩
  · rcases List.mem_append.mp hother with hother | hother
    · exact h.kept other hother hloaded
    · rw [List.mem_singleton.mp hother] at hloaded
      exact absurd hloaded hlocation
  · simpa [List.filter_append, hlocation] using h.nodup

/-- A document that is not kept has not been loaded before. -/
theorem LoadedOnce.found {cache : DocumentCache} {log : List String} {location : String}
    {document : Json} (h : LoadedOnce documents cache log)
    (hnew : cache.get? location = none) (hsome : Entries.get? location documents = some document) :
    LoadedOnce documents (cache.insert location document) (log ++ [location]) := by
  have hlocation : IsLoaded documents location := by simp [isLoaded_iff, hsome]
  have hget (other : String) : (cache.insert location document).get? other =
      if other = location then some document else cache.get? other :=
    OrderedMap.get?_insert ..
  refine ⟨fun other found hother => ?_, fun other hother hloaded => ?_, ?_⟩
  · rw [hget] at hother
    split_ifs at hother with hsame
    · rw [hsame, hsome, ← hother]
    · exact h.isCacheOf other found hother
  · rw [hget]
    split_ifs with hsame
    · rfl
    · have hbefore : other ∈ log := by simpa [hsame] using hother
      exact h.kept other hbefore hloaded
  · have hfresh : location ∉ log := by
      intro hmem
      have hkept := h.kept location hmem hlocation
      rw [hnew] at hkept
      cases hkept
    rw [List.filter_append, List.filter_cons_of_pos (by simpa using hlocation), List.filter_nil]
    refine List.nodup_append.mpr ⟨h.nodup, List.nodup_singleton location, ?_⟩
    rintro other hother _ hself rfl
    rw [List.mem_singleton.mp hself] at hother
    exact hfresh (List.mem_of_mem_filter hother)

/-- Whatever each of them has loaded before, both actions give the same answer. -/
def SameAnswer (documents : List (String × Json)) (act : NotedM α) (act' : InlineM Id α) : Prop :=
  ∀ cache log cache', LoadedOnce documents cache log → IsCacheOf documents cache' →
    (act.outcome cache log).1.1 = (act'.run.run cache').1 ∧
    LoadedOnce documents (act.outcome cache log).1.2 (act.outcome cache log).2 ∧
    IsCacheOf documents (act'.run.run cache').2

namespace SameAnswer

theorem pure (a : α) : SameAnswer documents (Pure.pure a) (Pure.pure a) :=
  fun _ _ _ h h' => ⟨rfl, h, h'⟩

theorem throw (e : GenerationError) :
    SameAnswer documents (throw e : NotedM α) (throw e : InlineM Id α) :=
  fun _ _ _ h h' => ⟨rfl, h, h'⟩

theorem liftExcept (r : Except GenerationError α) :
    SameAnswer documents (liftExcept r) (liftExcept r) := by
  cases r with
  | ok a => exact pure a
  | error e => exact throw e

theorem bind {act : NotedM α} {act' : InlineM Id α} {f : α → NotedM β} {f' : α → InlineM Id β}
    (h : SameAnswer documents act act') (hf : ∀ a, SameAnswer documents (f a) (f' a)) :
    SameAnswer documents (act >>= f) (act' >>= f') := by
  intro cache log cache' hloaded hcache'
  obtain ⟨hsame, hloaded, hcache'⟩ := h cache log cache' hloaded hcache'
  rw [NotedM.outcome_bind, InlineM.run_bind]
  generalize act.outcome cache log = left at hsame hloaded
  generalize act'.run.run cache' = right at hsame hcache'
  obtain ⟨⟨r, cache⟩, log⟩ := left
  obtain ⟨r', cache'⟩ := right
  obtain rfl : r = r' := hsame
  cases r with
  | error e => exact ⟨rfl, hloaded, hcache'⟩
  | ok a => exact hf a cache log cache' hloaded hcache'

end SameAnswer

namespace Reference

theorem outcome_cachedDocument (documents : List (String × Json)) (location : String)
    (cache : DocumentCache) (log : List String) :
    NotedM.outcome (cachedDocument (Loader.noted documents) location)
        cache log =
      match cache.get? location, Entries.get? location documents with
      | some document, _ => ((.ok document, cache), log)
      | none, some document => ((.ok document, cache.insert location document), log ++ [location])
      | none, none => ((.error (.load location .unknownDocument), cache), log ++ [location]) := by
  have hget : NotedM.outcome (get : NotedM DocumentCache) cache log = ((.ok cache, cache), log) :=
    rfl
  unfold cachedDocument
  rw [NotedM.outcome_bind, hget]
  dsimp only
  cases cache.get? location with
  | some document => rfl
  | none =>
    cases hdocument : Entries.get? location documents <;>
      simp only [loadDocument, Loader.logged, Loader.ofDocuments, hdocument] <;> rfl

/-- What a document is, wherever it comes from. -/
def documentAt (documents : List (String × Json)) (location : String) :
    Except GenerationError Json :=
  match Entries.get? location documents with
  | some document => .ok document
  | none => .error (.load location .unknownDocument)

theorem run_cachedDocument_fst {cache : DocumentCache} (hcache : IsCacheOf documents cache)
    (location : String) :
    ((cachedDocument (m := Id) (Loader.ofDocuments documents) location).run.run cache).1 =
      documentAt documents location := by
  rw [run_cachedDocument, documentAt]
  cases hkept : cache.get? location with
  | some document => rw [hcache location document hkept]
  | none => cases Entries.get? location documents <;> rfl

theorem sameAnswer_cachedDocument (documents : List (String × Json)) (location : String) :
    SameAnswer documents (cachedDocument (Loader.noted documents) location)
      (cachedDocument (Loader.ofDocuments documents) location) := by
  intro cache log cache' h h'
  have hcache' := (answers_cachedDocument documents location cache' h').2
  rw [outcome_cachedDocument, run_cachedDocument_fst h']
  unfold documentAt
  cases hkept : cache.get? location with
  | some document => simp [h.isCacheOf location document hkept, h, hcache']
  | none =>
    cases hdocument : Entries.get? location documents with
    | none => exact ⟨rfl, h.missing hdocument, hcache'⟩
    | some document => exact ⟨rfl, h.found hkept hdocument, hcache'⟩

theorem sameAnswer_fetch (documents : List (String × Json)) (base : String) (current : Json)
    (r : ModelReference) :
    SameAnswer documents (fetch (Loader.noted documents) base current r)
      (fetch (Loader.ofDocuments documents) base current r) := by
  unfold fetch
  cases r.document? with
  | none => exact .pure _
  | some document => exact (sameAnswer_cachedDocument documents _).bind fun _ => .pure _

theorem sameAnswer_fetchAll (documents : List (String × Json)) (location : String)
    (document : Json) (sites : List ReferenceSite) :
    SameAnswer documents
      (fetchAll (Loader.noted documents) location document sites)
      (fetchAll (Loader.ofDocuments documents) location document sites) := by
  induction sites with
  | nil => exact .pure []
  | cons site sites ih =>
    exact (SameAnswer.liftExcept _).bind fun r =>
      (sameAnswer_fetch documents location document r).bind fun _ => ih.bind fun _ => .pure _

theorem sameAnswer_inlinePasses (documents : List (String × Json)) (settings : InliningSettings)
    (location : String) (remaining : Nat) (document : Json) :
    SameAnswer documents
      (inlinePasses (Loader.noted documents) settings location remaining
        document)
      (inlinePasses (Loader.ofDocuments documents) settings location remaining document) := by
  induction remaining generalizing document with
  | zero =>
    unfold inlinePasses
    cases document.referenceSites with
    | nil => exact .pure document
    | cons first rest => exact .throw _
  | succ remaining ih =>
    unfold inlinePasses
    cases document.referenceSites with
    | nil => exact .pure document
    | cons first rest =>
      exact (sameAnswer_fetchAll documents location document _).bind fun _ =>
        (SameAnswer.liftExcept _).bind ih

end Reference

/-- What a run that inlines documents in turn answers, and the locations that it asks for. -/
def inlinedInTurn (documents : List (String × Json)) (settings : InliningSettings)
    (targets : List (String × Json)) : List (Except GenerationError Json) × List String :=
  let ((answers, _), log) := ((inlineInTurn (Loader.noted documents) settings targets).run ∅).run []
  (answers, log)

/-- From any state of a run, what follows is answered as if it came first. -/
theorem run_inlineInTurn (settings : InliningSettings) (targets : List (String × Json))
    {cache : DocumentCache} {log : List String} (h : LoadedOnce documents cache log) :
    ∃ cache' log', LoadedOnce documents cache' log' ∧
      ((inlineInTurn (Loader.noted documents) settings targets).run cache).run log =
        ((targets.map fun target => inlined documents ∅ settings target.1 target.2, cache'),
          log') := by
  induction targets generalizing cache log with
  | nil => exact ⟨cache, log, h, rfl⟩
  | cons target targets ih =>
    have hstep := Reference.sameAnswer_inlinePasses documents settings target.1 settings.maxPasses
      target.2 cache log ∅ h (isCacheOf_empty documents)
    rw [NotedM.outcome, ← inlineReferences] at hstep
    generalize hfirst : ((inlineReferences (Loader.noted documents) settings target.1
      target.2).run.run cache).run log = first at hstep
    obtain ⟨⟨answer, cache⟩, log⟩ := first
    obtain ⟨hanswer, hloaded, -⟩ := hstep
    replace hanswer : answer = inlined documents ∅ settings target.1 target.2 := hanswer
    obtain ⟨cache', log', hloaded', hrest⟩ := ih hloaded
    refine ⟨cache', log', hloaded', ?_⟩
    rw [inlineInTurn, List.mapM_cons, ← inlineInTurn, StateT.run_bind, StateT.run_bind, hfirst,
      List.map_cons, ← hanswer]
    change ((inlineInTurn (Loader.noted documents) settings targets >>= fun answers =>
      pure (answer :: answers)).run cache).run log = _
    rw [StateT.run_bind, StateT.run_bind, hrest]
    rfl

/-- Keeping documents for the whole run is not seen in the answers: each is the one of a run of its
own. No document is loaded twice. -/
theorem inlinedInTurn_transparent (documents : List (String × Json)) (settings : InliningSettings)
    (targets : List (String × Json)) :
    (inlinedInTurn documents settings targets).1 =
        targets.map (fun target => inlined documents ∅ settings target.1 target.2) ∧
      ((inlinedInTurn documents settings targets).2.filter (IsLoaded documents)).Nodup := by
  obtain ⟨cache, log, hloaded, hrun⟩ := run_inlineInTurn settings targets (.empty documents)
  unfold inlinedInTurn
  rw [hrun]
  exact ⟨rfl, hloaded.nodup⟩

example :
    let document := Json.object [("p", .object [(modelRefKey, .string "base.json#/q")])]
    (inlinedInTurn [("base.json", .object [("q", .bool true)])] {}
      [("a.json", document), ("b.json", document)]).2 = ["base.json"] := by
  decide +kernel

end ThingTypes
