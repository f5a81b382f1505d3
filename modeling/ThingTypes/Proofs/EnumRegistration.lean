import ThingTypes.Catalog.Enums
import ThingTypes.Proofs.OrderedMap
import Mathlib.Data.List.Induction

/-
  Runs of registrations of enums, nested and at the top level, in any order.

  Both kinds write the one table of names, and only the top-level ones fill the map of top-level
  enums. `table_afterAll` and `separate_afterAll` say what either holds in terms of the calls
  alone: the table has the last nested enum of a name, or else the first top-level one; the map has
  the first call of a name, if that one was top-level.

  So nested enums are not without influence on top-level ones. `drop_nested_iff` says exactly when
  a run would have gone the same way without its nested enums, and `accepted_present_iff` when an
  accepted top-level enum is there with its own values.
-/

namespace ThingTypes.EnumCatalog

/-- A registration of either kind. -/
inductive Call where
  | nested (e : EnumDecl)
  | topLevel (e : EnumDecl)

namespace Call

def decl : Call → EnumDecl
  | nested e | topLevel e => e

def key (call : Call) : TypeKey := call.decl.key

def isTopLevel : Call → Bool
  | nested _ => false
  | topLevel _ => true

/-- The enum that a call nests under a name. -/
def nestedAt? (key : TypeKey) : Call → Option EnumDecl
  | nested e => if e.key = key then some e else none
  | topLevel _ => none

/-- The enum that a call wants at the top level under a name. -/
def topLevelAt? (key : TypeKey) : Call → Option EnumDecl
  | nested _ => none
  | topLevel e => if e.key = key then some e else none

end Call

/-! ## Runs -/

/-- How a top-level enum is accepted, or `none` when the name has other values. -/
def registration? (c : EnumCatalog) (e : EnumDecl) : Option EnumRegistration :=
  match c.insertSeparate e with
  | .ok (registration, _) => some registration
  | .error _ => none

/-- The catalog after a call. A refused enum leaves it as it was. -/
def after (c : EnumCatalog) : Call → EnumCatalog
  | .nested e => c.insertInline e
  | .topLevel e =>
    match c.insertSeparate e with
    | .ok (_, c) => c
    | .error _ => c

/-- The catalog after calls from the empty one. -/
def afterAll (calls : List Call) : EnumCatalog :=
  calls.foldl after {}

/-- The answers to the top-level enums among the calls, in order. -/
def answers (c : EnumCatalog) : List Call → List (Option EnumRegistration)
  | [] => []
  | .nested e :: calls => answers (c.after (.nested e)) calls
  | .topLevel e :: calls => c.registration? e :: answers (c.after (.topLevel e)) calls

theorem afterAll_concat (calls : List Call) (call : Call) :
    afterAll (calls ++ [call]) = (afterAll calls).after call := by
  simp [afterAll]

theorem insertSeparate_of_free {c : EnumCatalog} {e : EnumDecl}
    (h : c.table.get? e.key = none) :
    c.insertSeparate e = .ok (.inserted,
      { c with
        table := c.table.insert e.key e.fingerprint
        constants := c.constants.insert e.key e.constantNames
        separate := c.separate.insert e.key e }) := by
  simp [insertSeparate, NameTable.register, h]

theorem insertSeparate_of_same {c : EnumCatalog} {e : EnumDecl}
    (h : c.table.get? e.key = some e.fingerprint) :
    c.insertSeparate e = .ok (.reused, c) := by
  simp [insertSeparate, NameTable.register, h]

theorem insertSeparate_of_other {c : EnumCatalog} {e : EnumDecl} {f : Fingerprint}
    (h : c.table.get? e.key = some f) (hf : f ≠ e.fingerprint) :
    c.insertSeparate e = .error (.enumConflict e.package e.name
      ((c.constants.get? e.key).getD []) e.constantNames) := by
  simp [insertSeparate, NameTable.register, h, hf]

theorem registration?_eq (c : EnumCatalog) (e : EnumDecl) :
    c.registration? e = match c.table.get? e.key with
      | none => some .inserted
      | some f => if f = e.fingerprint then some .reused else none := by
  unfold registration?
  cases h : c.table.get? e.key with
  | none => rw [insertSeparate_of_free h]
  | some f =>
    by_cases hf : f = e.fingerprint
    · rw [insertSeparate_of_same (hf ▸ h)]
      simp [hf]
    · rw [insertSeparate_of_other h hf]
      simp [hf]

theorem after_topLevel_of_free {c : EnumCatalog} {e : EnumDecl}
    (h : c.table.get? e.key = none) :
    (c.after (.topLevel e)).table = c.table.insert e.key e.fingerprint ∧
      (c.after (.topLevel e)).separate = c.separate.insert e.key e := by
  simp [after, insertSeparate_of_free h]

theorem after_topLevel_of_held {c : EnumCatalog} {e : EnumDecl} {f : Fingerprint}
    (h : c.table.get? e.key = some f) : c.after (.topLevel e) = c := by
  by_cases hf : f = e.fingerprint
  · simp [after, insertSeparate_of_same (hf ▸ h)]
  · simp [after, insertSeparate_of_other h hf]

theorem separate_after_topLevel (c : EnumCatalog) (e : EnumDecl) :
    (c.after (.topLevel e)).separate =
      if c.registration? e = some .inserted then c.separate.insert e.key e else c.separate := by
  rw [registration?_eq]
  cases h : c.table.get? e.key with
  | none => rw [(after_topLevel_of_free h).2, if_pos rfl]
  | some f =>
    rw [after_topLevel_of_held h]
    by_cases hf : f = e.fingerprint <;> simp [hf]

theorem separate_after_topLevel_of_ne (c : EnumCatalog) {key : TypeKey} {e : EnumDecl}
    (h : key ≠ e.key) :
    (c.after (.topLevel e)).separate.get? key = c.separate.get? key := by
  cases hf : c.table.get? e.key with
  | none => rw [(after_topLevel_of_free hf).2, OrderedMap.get?_insert_of_ne _ _ h]
  | some f => rw [after_topLevel_of_held hf]

/-! ## What a run has registered under a name -/

/-- The last nested enum of a name. -/
def lastNested? (key : TypeKey) (calls : List Call) : Option EnumDecl :=
  (calls.filterMap (Call.nestedAt? key)).getLast?

/-- The first top-level enum of a name. -/
def firstTopLevel? (key : TypeKey) (calls : List Call) : Option EnumDecl :=
  calls.findSome? (Call.topLevelAt? key)

/-- The first enum of a name, if it was a top-level one. -/
def founder? (key : TypeKey) (calls : List Call) : Option EnumDecl :=
  (calls.find? fun call => decide (call.key = key)).bind (Call.topLevelAt? key)

theorem lastNested?_concat (key : TypeKey) (calls : List Call) (call : Call) :
    lastNested? key (calls ++ [call]) = (call.nestedAt? key).or (lastNested? key calls) := by
  cases h : call.nestedAt? key <;> simp [lastNested?, h]

theorem firstTopLevel?_concat (key : TypeKey) (calls : List Call) (call : Call) :
    firstTopLevel? key (calls ++ [call]) =
      (firstTopLevel? key calls).or (call.topLevelAt? key) := by
  cases h : call.topLevelAt? key <;> simp [firstTopLevel?, List.findSome?_append, h]

/-- No call of the run is about the name. -/
def Unused (key : TypeKey) (calls : List Call) : Prop := ∀ call ∈ calls, call.key ≠ key

theorem unused_iff (key : TypeKey) (calls : List Call) :
    Unused key calls ↔ lastNested? key calls = none ∧ firstTopLevel? key calls = none := by
  simp only [Unused, lastNested?, List.getLast?_eq_none_iff, List.filterMap_eq_nil_iff,
    firstTopLevel?, List.findSome?_eq_none_iff, ← forall_and]
  refine forall_congr' fun call => forall_congr' fun _ => ?_
  cases call <;> simp [Call.key, Call.decl, Call.nestedAt?, Call.topLevelAt?]

theorem find?_key_eq_none_iff (key : TypeKey) (calls : List Call) :
    calls.find? (fun call => decide (call.key = key)) = none ↔ Unused key calls := by
  simp [Unused]

theorem founder?_eq_none_of_unused {key : TypeKey} {calls : List Call} (h : Unused key calls) :
    founder? key calls = none := by
  rw [founder?, (find?_key_eq_none_iff key calls).mpr h, Option.bind_none]

theorem founder?_concat_of_unused {key : TypeKey} {calls : List Call} (h : Unused key calls)
    (call : Call) : founder? key (calls ++ [call]) = call.topLevelAt? key := by
  rw [founder?, List.find?_append, (find?_key_eq_none_iff key calls).mpr h, Option.none_or]
  by_cases hk : call.key = key
  · simp [hk]
  · cases call <;> simp_all [Call.key, Call.decl, Call.topLevelAt?]

theorem founder?_concat_of_used {key : TypeKey} {calls : List Call} (h : ¬ Unused key calls)
    (call : Call) : founder? key (calls ++ [call]) = founder? key calls := by
  obtain ⟨first, hfirst⟩ :=
    Option.ne_none_iff_exists'.mp (mt (find?_key_eq_none_iff key calls).mp h)
  rw [founder?, founder?, List.find?_append, hfirst, Option.some_or]

/-- Where nothing of a name is nested, its first top-level enum is its first enum. -/
theorem founder?_of_not_nested {key : TypeKey} {calls : List Call}
    (h : lastNested? key calls = none) : founder? key calls = firstTopLevel? key calls := by
  induction calls using List.reverseRecOn with
  | nil => rfl
  | append_singleton calls call ih =>
    rw [lastNested?_concat, Option.or_eq_none_iff] at h
    rw [firstTopLevel?_concat]
    by_cases hu : Unused key calls
    · rw [founder?_concat_of_unused hu, ((unused_iff key calls).mp hu).2, Option.none_or]
    · rw [founder?_concat_of_used hu, ih h.2]
      cases ht : firstTopLevel? key calls with
      | none => exact absurd ((unused_iff key calls).mpr ⟨h.2, ht⟩) hu
      | some e => rfl

/-- The table holds the last nested enum of a name, or else the first top-level one. -/
theorem table_afterAll (key : TypeKey) (calls : List Call) :
    (afterAll calls).table.get? key =
      ((lastNested? key calls).or (firstTopLevel? key calls)).map EnumDecl.fingerprint := by
  induction calls using List.reverseRecOn with
  | nil => rfl
  | append_singleton calls call ih =>
    rw [afterAll_concat, lastNested?_concat, firstTopLevel?_concat]
    cases call with
    | nested e =>
      simp only [after, insertInline, OrderedMap.get?_insert, Call.nestedAt?, Call.topLevelAt?,
        Option.or_none]
      by_cases h : key = e.key
      · simp [h]
      · simp [h, Ne.symm h, ih]
    | topLevel e =>
      simp only [Call.nestedAt?, Call.topLevelAt?, Option.none_or]
      cases hfree : (afterAll calls).table.get? e.key with
      | none =>
        rw [(after_topLevel_of_free hfree).1, OrderedMap.get?_insert]
        by_cases h : key = e.key
        · subst h
          rw [hfree, eq_comm, Option.map_eq_none_iff, Option.or_eq_none_iff] at ih
          simp [ih]
        · simp [h, Ne.symm h, ih]
      | some f =>
        rw [after_topLevel_of_held hfree, ih]
        by_cases h : e.key = key
        · subst h
          rw [hfree] at ih
          cases hn : lastNested? e.key calls <;> cases ht : firstTopLevel? e.key calls <;>
            simp_all
        · simp [h]

theorem table_afterAll_eq_none_iff (key : TypeKey) (calls : List Call) :
    (afterAll calls).table.get? key = none ↔ Unused key calls := by
  rw [table_afterAll, Option.map_eq_none_iff, Option.or_eq_none_iff, unused_iff]

/-- The map of top-level enums holds the first enum of a name, if that one was top-level. -/
theorem separate_afterAll (key : TypeKey) (calls : List Call) :
    (afterAll calls).separate.get? key = founder? key calls := by
  induction calls using List.reverseRecOn with
  | nil => rfl
  | append_singleton calls call ih =>
    rw [afterAll_concat]
    by_cases hu : Unused key calls
    · rw [founder?_eq_none_of_unused hu] at ih
      rw [founder?_concat_of_unused hu]
      cases call with
      | nested e => exact ih
      | topLevel e =>
        rw [Call.topLevelAt?]
        by_cases hk : e.key = key
        · subst hk
          rw [(after_topLevel_of_free ((table_afterAll_eq_none_iff _ _).mpr hu)).2]
          simp
        · rw [if_neg hk, separate_after_topLevel_of_ne _ (Ne.symm hk), ih]
    · rw [founder?_concat_of_used hu, ← ih]
      cases call with
      | nested e => rfl
      | topLevel e =>
        by_cases hk : key = e.key
        · subst hk
          obtain ⟨f, hf⟩ := Option.ne_none_iff_exists'.mp
            (mt (table_afterAll_eq_none_iff _ _).mp hu)
          rw [after_topLevel_of_held hf]
        · rw [separate_after_topLevel_of_ne _ hk]

/-! ## Runs without their nested enums -/

def topLevelOnly (calls : List Call) : List Call :=
  calls.filter Call.isTopLevel

@[simp]
theorem topLevelOnly_nil : topLevelOnly [] = [] := rfl

@[simp]
theorem topLevelOnly_nested (e : EnumDecl) (calls : List Call) :
    topLevelOnly (.nested e :: calls) = topLevelOnly calls := rfl

@[simp]
theorem topLevelOnly_topLevel (e : EnumDecl) (calls : List Call) :
    topLevelOnly (.topLevel e :: calls) = .topLevel e :: topLevelOnly calls := rfl

/-- What makes a top-level enum after a run fare as if the run had nested nothing: where its name
has been nested, it was wanted at the top level before, and the last nested enum has the values of
the new one exactly when the first top-level one has them. -/
def Undisturbed (before : List Call) (e : EnumDecl) : Prop :=
  ∀ n, lastNested? e.key before = some n →
    ∃ d, firstTopLevel? e.key before = some d ∧
      (n.fingerprint = e.fingerprint ↔ d.fingerprint = e.fingerprint)

/-- What makes an accepted top-level enum after a run be there: where its name was last nested with
the same values, the name was founded by a top-level enum with these values. -/
def Backed (before : List Call) (e : EnumDecl) : Prop :=
  ∀ n, lastNested? e.key before = some n → n.fingerprint = e.fingerprint →
    ∃ d, founder? e.key before = some d ∧ d.fingerprint = e.fingerprint

theorem lastNested?_topLevelOnly (key : TypeKey) (calls : List Call) :
    lastNested? key (topLevelOnly calls) = none := by
  rw [lastNested?, List.getLast?_eq_none_iff, List.filterMap_eq_nil_iff]
  intro call hcall
  rw [topLevelOnly, List.mem_filter] at hcall
  cases call with
  | nested e => simp [Call.isTopLevel] at hcall
  | topLevel e => rfl

theorem firstTopLevel?_topLevelOnly (key : TypeKey) (calls : List Call) :
    firstTopLevel? key (topLevelOnly calls) = firstTopLevel? key calls := by
  induction calls with
  | nil => rfl
  | cons call calls ih =>
    unfold firstTopLevel? at *
    cases call with
    | nested e => rw [topLevelOnly_nested, ih, List.findSome?_cons, Call.topLevelAt?]
    | topLevel e => rw [topLevelOnly_topLevel, List.findSome?_cons, List.findSome?_cons, ih]

theorem registration?_topLevelOnly_iff (before : List Call) (e : EnumDecl) :
    (afterAll (topLevelOnly before)).registration? e = (afterAll before).registration? e ↔
      Undisturbed before e := by
  rw [registration?_eq, registration?_eq, table_afterAll, table_afterAll,
    lastNested?_topLevelOnly, firstTopLevel?_topLevelOnly, Option.none_or, Undisturbed]
  cases hn : lastNested? e.key before with
  | none => simp
  | some n =>
    cases hd : firstTopLevel? e.key before with
    | none =>
      by_cases h : n.fingerprint = e.fingerprint <;> simp [h]
    | some d =>
      by_cases h : n.fingerprint = e.fingerprint <;>
        by_cases h' : d.fingerprint = e.fingerprint <;> simp [h, h']

/-- A statement about every top-level call of a run, the first call set apart. -/
theorem forall_split_cons {P : List Call → EnumDecl → Prop} (call : Call) (calls : List Call) :
    (∀ before e rest, call :: calls = before ++ .topLevel e :: rest → P before e) ↔
      (∀ e, call = .topLevel e → P [] e) ∧
        ∀ before e rest, calls = before ++ .topLevel e :: rest → P (call :: before) e := by
  constructor
  · intro h
    exact ⟨fun e he => h [] e calls (by rw [he, List.nil_append]),
      fun before e rest hs => h (call :: before) e rest (by rw [hs, List.cons_append])⟩
  · rintro ⟨hfirst, hrest⟩ before e rest hs
    cases before with
    | nil => exact hfirst e (List.cons.inj hs).1
    | cons b before =>
      obtain ⟨rfl, hs'⟩ := List.cons.inj hs
      exact hrest before e rest hs'

/-- Two runs give the same answers when each top-level call finds the same answer. -/
theorem answers_topLevelOnly_iff (c c' : EnumCatalog) (calls : List Call) :
    answers c' (topLevelOnly calls) = answers c calls ↔
      ∀ before e rest, calls = before ++ .topLevel e :: rest →
        ((topLevelOnly before).foldl after c').registration? e =
          (before.foldl after c).registration? e := by
  induction calls generalizing c c' with
  | nil => simp [topLevelOnly, answers]
  | cons call calls ih =>
    rw [forall_split_cons]
    cases call with
    | nested e =>
      rw [topLevelOnly_nested, answers, ih]
      simp
    | topLevel e =>
      rw [topLevelOnly_topLevel, answers, answers, List.cons.injEq, ih]
      simp

theorem separate_topLevelOnly {calls : List Call}
    (h : ∀ before e rest, calls = before ++ .topLevel e :: rest → Undisturbed before e) :
    (afterAll (topLevelOnly calls)).separate = (afterAll calls).separate := by
  induction calls using List.reverseRecOn with
  | nil => rfl
  | append_singleton calls call ih =>
    have ih := ih fun before e rest hs => h before e (rest ++ [call]) (by simp [hs])
    cases call with
    | nested e =>
      have hdrop : topLevelOnly (calls ++ [.nested e]) = topLevelOnly calls := by
        simp [topLevelOnly, Call.isTopLevel]
      rw [hdrop, afterAll_concat, ih]
      rfl
    | topLevel e =>
      have hkeep : topLevelOnly (calls ++ [.topLevel e]) = topLevelOnly calls ++ [.topLevel e] := by
        simp [topLevelOnly, Call.isTopLevel]
      have hanswer := (registration?_topLevelOnly_iff calls e).mpr (h calls e [] rfl)
      rw [hkeep, afterAll_concat, afterAll_concat, separate_after_topLevel,
        separate_after_topLevel, hanswer, ih]

theorem accepted_present_iff (before : List Call) (e : EnumDecl) :
    ((afterAll before).registration? e ≠ none →
      ∃ d, (afterAll (before ++ [.topLevel e])).separate? e.key = some d ∧
        d.fingerprint = e.fingerprint) ↔ Backed before e := by
  rw [registration?_eq, table_afterAll, separate?, separate_afterAll, Backed]
  by_cases hu : Unused e.key before
  · rw [founder?_concat_of_unused hu]
    have := (unused_iff e.key before).mp hu
    simp [this, Call.topLevelAt?]
  · rw [founder?_concat_of_used hu]
    cases hn : lastNested? e.key before with
    | some n => by_cases h : n.fingerprint = e.fingerprint <;> simp [h]
    | none =>
      have hd : firstTopLevel? e.key before ≠ none := fun hd => hu ((unused_iff _ _).mpr ⟨hn, hd⟩)
      obtain ⟨d, hd⟩ := Option.ne_none_iff_exists'.mp hd
      rw [founder?_of_not_nested hn, hd]
      by_cases h : d.fingerprint = e.fingerprint <;> simp [h]

/-- When nested enums do not influence top-level ones. Dropping them from a run changes no answer
and no top-level enum exactly if each top-level enum of the run is `Undisturbed`, and an accepted
one is there with its values exactly if it is `Backed`. -/
theorem drop_nested_iff (calls : List Call) :
    ((answers {} (topLevelOnly calls) = answers {} calls ∧
        (afterAll (topLevelOnly calls)).separate = (afterAll calls).separate) ↔
      ∀ before e rest, calls = before ++ .topLevel e :: rest → Undisturbed before e) ∧
    ∀ e, ((afterAll calls).registration? e ≠ none →
        ∃ d, (afterAll (calls ++ [.topLevel e])).separate? e.key = some d ∧
          d.fingerprint = e.fingerprint) ↔ Backed calls e := by
  have hanswers : answers {} (topLevelOnly calls) = answers {} calls ↔
      ∀ before e rest, calls = before ++ .topLevel e :: rest → Undisturbed before e := by
    rw [answers_topLevelOnly_iff]
    exact forall₃_congr fun before e rest =>
      imp_congr_right fun _ => registration?_topLevelOnly_iff before e
  refine ⟨⟨fun h => hanswers.mp h.1, fun h => ⟨hanswers.mpr h, separate_topLevelOnly h⟩⟩, ?_⟩
  exact accepted_present_iff calls

end ThingTypes.EnumCatalog
