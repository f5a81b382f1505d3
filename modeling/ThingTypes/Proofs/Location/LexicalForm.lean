import Mathlib.Logic.Relation
import ThingTypes.Proofs.Location

/-
  The lexical form of a path. A path is shortened in single steps: an empty segment or a dot is left
  out, a name goes together with the `..` behind it, and a `..` at the root of an absolute path goes
  alone. Whatever the order of the steps, what is left when none is possible is the same, and it is
  what `normalSegments` finds.

  With it the location of an href is given for a base whose path starts at a root: it is absolute
  as well, and its segments are the lexical form of the directory of the base with the href. The
  one exception is a base directly below the root, whose directory is an empty text: there the
  href is taken as it stands, and the root is lost.
-/

namespace ThingTypes.Location

open Relation (ReflTransGen)

variable {absolute : Bool} {l m taken : List Segment} {s : Segment}

/-- One step in which a path gets shorter without leading elsewhere. -/
inductive Shortens (absolute : Bool) : List Segment → List Segment → Prop
  /-- An empty segment or a dot is left out. -/
  | skip (front back : List Segment) {s : Segment} (hs : s = [] ∨ s = here) :
    Shortens absolute (front ++ s :: back) (front ++ back)
  /-- Going up takes back the name before it. -/
  | cancel (front back : List Segment) {s : Segment} (hs : IsName s) :
    Shortens absolute (front ++ s :: up :: back) (front ++ back)
  /-- At the root there is no way up. -/
  | root (back : List Segment) (habsolute : absolute = true) : Shortens absolute (up :: back) back

/-- The path `m` is what `l` comes to when nothing is left to be shortened. -/
def IsLexicalForm (absolute : Bool) (l m : List Segment) : Prop :=
  ReflTransGen (Shortens absolute) l m ∧ ∀ n, ¬Shortens absolute m n

theorem Shortens.length_lt (h : Shortens absolute l m) : m.length < l.length := by
  cases h with
  | skip front back _ =>
    rw [List.length_append, List.length_append, List.length_cons]
    omega
  | cancel front back _ =>
    rw [List.length_append, List.length_append, List.length_cons, List.length_cons]
    omega
  | root back _ => exact Nat.lt_succ_self _

theorem length_le_of_shortened (h : ReflTransGen (Shortens absolute) l m) :
    m.length ≤ l.length := by
  induction h with
  | refl => exact le_refl _
  | tail _ hstep ih => exact (le_of_lt hstep.length_lt).trans ih

/-! ## One segment more -/

theorem pushSegment_of_skip (hs : s = [] ∨ s = here) : pushSegment absolute taken s = taken :=
  if_pos hs

theorem pushSegment_of_isName (hs : IsName s) : pushSegment absolute taken s = s :: taken := by
  unfold pushSegment
  rw [if_neg (not_or.mpr ⟨hs.1, hs.2.1⟩), if_neg hs.2.2]

theorem pushSegment_up_of_isName (hs : IsName s) :
    pushSegment absolute (s :: taken) up = taken := by
  unfold pushSegment
  rw [if_neg (by decide), if_pos rfl]
  exact if_pos hs.2.2

/-- No step changes what is found in the end. -/
theorem Shortens.normalSegments_eq (h : Shortens absolute l m) :
    normalSegments absolute l = normalSegments absolute m := by
  unfold normalSegments
  cases h with
  | skip front back hs =>
    rw [List.foldl_append, List.foldl_append, List.foldl_cons, pushSegment_of_skip hs]
  | cancel front back hs =>
    rw [List.foldl_append, List.foldl_append, List.foldl_cons, List.foldl_cons,
      pushSegment_of_isName hs, pushSegment_up_of_isName hs]
  | root back habsolute =>
    rw [habsolute, List.foldl_cons]
    rfl

theorem normalSegments_eq_of_shortened (h : ReflTransGen (Shortens absolute) l m) :
    normalSegments absolute l = normalSegments absolute m := by
  induction h with
  | refl => rfl
  | tail _ hstep ih => rw [ih, hstep.normalSegments_eq]

/-- The segments that have been taken are names, and `..` only where there is no root. -/
def IsTaken (absolute : Bool) (taken : List Segment) : Prop :=
  ∀ s ∈ taken, s = up ∧ absolute = false ∨ IsName s

/-- What taking one more segment can do. -/
inductive Pushed (absolute : Bool) : List Segment → Segment → List Segment → Prop
  | skip (taken : List Segment) {s : Segment} (hs : s = [] ∨ s = here) :
    Pushed absolute taken s taken
  | name (taken : List Segment) {s : Segment} (hs : IsName s) :
    Pushed absolute taken s (s :: taken)
  | cancel (taken : List Segment) {s : Segment} (hs : IsName s) :
    Pushed absolute (s :: taken) up taken
  | root (habsolute : absolute = true) : Pushed absolute [] up []
  | climb (taken : List Segment) (habsolute : absolute = false) :
    Pushed absolute taken up (up :: taken)

theorem IsTaken.pushed (h : IsTaken absolute taken) (s : Segment) :
    Pushed absolute taken s (pushSegment absolute taken s) := by
  by_cases hskip : s = [] ∨ s = here
  · rw [pushSegment_of_skip hskip]
    exact .skip taken hskip
  by_cases hup : s = up
  · subst hup
    cases taken with
    | nil =>
      cases absolute with
      | true => exact .root rfl
      | false => exact .climb [] rfl
    | cons last rest =>
      rcases h last List.mem_cons_self with ⟨rfl, rfl⟩ | hlast
      · exact .climb (up :: rest) rfl
      · rw [pushSegment_up_of_isName hlast]
        exact .cancel rest hlast
  · have hs : IsName s := ⟨fun hnil => hskip (.inl hnil), fun hhere => hskip (.inr hhere), hup⟩
    rw [pushSegment_of_isName hs]
    exact .name taken hs

theorem Pushed.isTaken {next : List Segment} (hpush : Pushed absolute taken s next)
    (h : IsTaken absolute taken) : IsTaken absolute next := by
  cases hpush with
  | skip => exact h
  | name _ hs => exact List.forall_mem_cons.mpr ⟨.inr hs, h⟩
  | cancel => exact (List.forall_mem_cons.mp h).2
  | root => exact h
  | climb _ habsolute => exact List.forall_mem_cons.mpr ⟨.inl ⟨rfl, habsolute⟩, h⟩

/-- Taking one more segment is a step of shortening, or none. -/
theorem Pushed.shortened {next : List Segment} (hpush : Pushed absolute taken s next)
    (rest : List Segment) :
    ReflTransGen (Shortens absolute) (taken.reverse ++ s :: rest) (next.reverse ++ rest) := by
  cases hpush with
  | skip _ hs => exact .single (.skip _ _ hs)
  | name => rw [List.reverse_cons, List.append_assoc, List.singleton_append]
  | cancel _ hs =>
    rw [List.reverse_cons, List.append_assoc, List.singleton_append]
    exact .single (.cancel _ _ hs)
  | root habsolute => exact .single (.root rest habsolute)
  | climb => rw [List.reverse_cons, List.append_assoc, List.singleton_append]

theorem IsTaken.shortened_foldl (h : IsTaken absolute taken) (l : List Segment) :
    ReflTransGen (Shortens absolute) (taken.reverse ++ l)
      (l.foldl (pushSegment absolute) taken).reverse := by
  induction l generalizing taken with
  | nil => rw [List.append_nil, List.foldl_nil]
  | cons s l ih => exact ((h.pushed s).shortened l).trans (ih ((h.pushed s).isTaken h))

theorem shortened_normalSegments (absolute : Bool) (l : List Segment) :
    ReflTransGen (Shortens absolute) l (normalSegments absolute l) := by
  have hnil : IsTaken absolute [] := by simp [IsTaken]
  exact hnil.shortened_foldl l

/-- Each path has one lexical form, and it is found segment by segment. -/
theorem isLexicalForm_iff : IsLexicalForm absolute l m ↔ m = normalSegments absolute l := by
  constructor
  · intro h
    rw [normalSegments_eq_of_shortened h.1]
    rcases (shortened_normalSegments absolute m).cases_head with heq | ⟨n, hstep, -⟩
    · exact heq
    · exact absurd hstep (h.2 n)
  · intro h
    subst h
    refine ⟨shortened_normalSegments absolute l, fun n hstep => ?_⟩
    -- a further step would lead back to the same form, which is longer than what it leads to
    have hback : normalSegments absolute n = normalSegments absolute l := by
      rw [← hstep.normalSegments_eq,
        ← normalSegments_eq_of_shortened (shortened_normalSegments absolute l)]
    have hle := length_le_of_shortened (shortened_normalSegments absolute n)
    have hlt := hstep.length_lt
    rw [hback] at hle
    omega

theorem isLexicalForm_normalSegments (absolute : Bool) (l : List Segment) :
    IsLexicalForm absolute l (normalSegments absolute l) :=
  isLexicalForm_iff.mpr rfl

/-! ## Bases at a root -/

variable {scheme path : List Char}

theorem isAbsolute_directory_append (hpath : isAbsolute path) (hne : directory path ≠ [])
    (rest : List Char) : isAbsolute (directory path ++ rest) := by
  unfold directory at hne ⊢
  cases hslash : Text.splitAtLast? '/' path with
  | none => simp [hslash] at hne
  | some sides =>
    obtain ⟨before, after⟩ := sides
    rw [hslash] at hne
    rw [(Text.splitAtLast?_eq_some hslash).1] at hpath
    cases before with
    | nil => exact absurd rfl hne
    | cons c before => simpa [isAbsolute] using hpath

/-- The text of a relative path in normal form does not start at a root. -/
theorem joinSegments_normalSegments_ne {l : List Segment} (hslash : ∀ s ∈ l, '/' ∉ s)
    (cs : List Char) : joinSegments (normalSegments false l) ≠ '/' :: cs := by
  intro h
  have hne : normalSegments false l ≠ [] := by
    intro hnil
    rw [hnil] at h
    cases h
  have hsegments : normalSegments false l = [] :: segments cs := by
    rw [← segments_joinSegments (fun s hs => hslash s (mem_of_mem_normalSegments hs)) hne, h,
      ← List.nil_append ('/' :: cs), segments_append_slash]
    rfl
  have hmem : [] ∈ normalSegments false l := by
    rw [hsegments]
    exact List.mem_cons_self
  exact ne_nil_of_mem_normalSegments hmem rfl

/-- An href that is read from a base whose path starts at a root: unless the directory of the base
is an empty text, the location is absolute under the same scheme, and its segments are the lexical
form of that directory with the href. In the other case the base is directly below the root, and
the location is the lexical form of the href alone, without a root. -/
theorem resolve_keeps_root_iff (base href : String)
    (hsplit : splitScheme base.toList = (scheme, path)) (hpath : isAbsolute path)
    (hhref : IsRelative href.toList) :
    ∃ l, IsLexicalForm true (segments (directory path ++ '/' :: href.toList)) l ∧
      ((resolve base href).toList = scheme ++ '/' :: joinSegments l ↔ directory path ≠ []) ∧
      (directory path = [] → ∃ m, IsLexicalForm false (segments href.toList) m ∧
        (resolve base href).toList = scheme ++ joinSegments m) := by
  refine ⟨_, isLexicalForm_normalSegments true _, ⟨fun hresolve hdirectory => ?_, fun hne => ?_⟩,
    fun hdirectory => ⟨_, isLexicalForm_normalSegments false _, ?_⟩⟩
  · rw [toList_resolve hsplit hhref, if_pos hdirectory, normalize_of_isRelative hhref] at hresolve
    exact joinSegments_normalSegments_ne (fun s hs => slash_not_mem_of_mem_segments hs) _
      (List.append_cancel_left hresolve)
  · rw [toList_resolve hsplit hhref, if_neg hne, normalize,
      isAbsolute_directory_append hpath hne]
    rfl
  · rw [toList_resolve hsplit hhref, if_pos hdirectory, normalize_of_isRelative hhref]

/-- A base directly below the root, and an href beside it. -/
theorem resolve_keeps_root_iff_lamp :
    splitScheme "file:///lamp.json".toList = ("file://".toList, "/lamp.json".toList) ∧
      isAbsolute "/lamp.json".toList ∧ IsRelative "light.json".toList ∧
      ∃ l, IsLexicalForm true (segments "/light.json".toList) l ∧
        (resolve "file:///lamp.json" "light.json").toList ≠
          "file://".toList ++ '/' :: joinSegments l := by
  have hsplit : splitScheme "file:///lamp.json".toList =
      ("file://".toList, "/lamp.json".toList) := by decide
  have hpath : isAbsolute "/lamp.json".toList := by decide
  have hhref : IsRelative "light.json".toList := by decide
  obtain ⟨l, hl, hiff, -⟩ :=
    resolve_keeps_root_iff "file:///lamp.json" "light.json" hsplit hpath hhref
  exact ⟨hsplit, hpath, hhref, l, hl, fun h => hiff.mp h (by decide)⟩

end ThingTypes.Location
