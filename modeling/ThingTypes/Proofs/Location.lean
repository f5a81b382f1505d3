import Mathlib.Data.List.DropRight
import Mathlib.Data.List.Infix
import Mathlib.Tactic.Common
import ThingTypes.Location
import ThingTypes.Proofs.Text.Split

/-
  Locations as lists of segments. A normal list goes up first and then names directories, and the
  normal form of a path is found segment by segment: going up takes back the name before it. From
  this follows what reading an href does to a location, and that the href of a location is read
  back, unless the location is the directory of the base itself, whose href is empty.
-/

namespace ThingTypes.Location

/-- A segment that names a file or a directory. -/
def IsName (s : Segment) : Prop := s ≠ [] ∧ s ≠ here ∧ s ≠ up

instance : DecidablePred IsName := fun _ => inferInstanceAs (Decidable (_ ∧ _))

/-- A list that goes up first and names directories from there. -/
def IsNormal (l : List Segment) : Prop :=
  ∃ n names, l = List.replicate n up ++ names ∧ ∀ s ∈ names, IsName s

/-- A normal list of segments with one more segment. -/
def appendSegment (l : List Segment) (s : Segment) : List Segment :=
  if s = [] ∨ s = here then l
  else if s = up then if l.getLast?.getD up = up then l ++ [up] else l.dropLast
  else l ++ [s]

@[simp]
theorem normalSegments_nil : normalSegments false [] = [] := rfl

theorem normalSegments_concat (l : List Segment) (s : Segment) :
    normalSegments false (l ++ [s]) = appendSegment (normalSegments false l) s := by
  unfold normalSegments appendSegment
  rw [List.foldl_append, List.foldl_cons, List.foldl_nil, List.getLast?_reverse,
    List.dropLast_reverse]
  generalize l.foldl (pushSegment false) [] = taken
  unfold pushSegment
  by_cases hskip : s = [] ∨ s = here
  · rw [if_pos hskip, if_pos hskip]
  · rw [if_neg hskip, if_neg hskip]
    by_cases hup : s = up
    · rw [if_pos hup, if_pos hup]
      cases taken with
      | nil => rfl
      | cons last rest => by_cases hlast : last = up <;> simp [hlast]
    · rw [if_neg hup, if_neg hup, List.reverse_cons]

theorem appendSegment_of_isName (l : List Segment) {s : Segment} (hs : IsName s) :
    appendSegment l s = l ++ [s] := by
  rw [appendSegment, if_neg (not_or.mpr ⟨hs.1, hs.2.1⟩), if_neg hs.2.2]

theorem isNormal_appendSegment {l : List Segment} (hl : IsNormal l) (s : Segment) :
    IsNormal (appendSegment l s) := by
  obtain ⟨n, names, rfl, hnames⟩ := hl
  unfold appendSegment
  split_ifs with hskip hup hlast
  · exact ⟨n, names, rfl, hnames⟩
  · -- nothing is named yet: a name at the end would be no `up`
    have hnone : names = [] := by
      rcases List.eq_nil_or_concat' names with rfl | ⟨front, last, rfl⟩
      · rfl
      · rw [← List.append_assoc, List.getLast?_concat] at hlast
        exact absurd hlast (hnames last (by simp)).2.2
    subst hnone
    exact ⟨n + 1, [], by simp [List.replicate_succ'], by simp⟩
  · rcases List.eq_nil_or_concat' names with rfl | ⟨front, last, rfl⟩
    · rw [List.append_nil] at hlast
      cases n <;> simp [List.getLast?_replicate] at hlast
    · refine ⟨n, front, by simp [← List.append_assoc], fun s hs => hnames s (by simp [hs])⟩
  · refine ⟨n, names ++ [s], by simp, ?_⟩
    intro t ht
    rcases List.mem_append.mp ht with ht | ht
    · exact hnames t ht
    · rw [List.mem_singleton.mp ht]
      exact ⟨fun h => hskip (.inl h), fun h => hskip (.inr h), hup⟩

theorem IsNormal.isName {l : List Segment} (hl : IsNormal l) {s : Segment} (hs : s ∈ l)
    (hup : s ≠ up) : IsName s := by
  obtain ⟨n, names, rfl, hnames⟩ := hl
  rcases List.mem_append.mp hs with hs | hs
  · exact absurd (List.eq_of_mem_replicate hs) hup
  · exact hnames s hs

theorem isNormal_normalSegments (l : List Segment) : IsNormal (normalSegments false l) := by
  induction l using List.reverseRecOn with
  | nil => exact ⟨0, [], rfl, by simp⟩
  | append_singleton l s ih =>
    rw [normalSegments_concat]
    exact isNormal_appendSegment ih s

theorem normalSegments_of_isNormal {l : List Segment} (h : IsNormal l) :
    normalSegments false l = l := by
  obtain ⟨n, names, rfl, hnames⟩ := h
  induction names using List.reverseRecOn with
  | nil =>
    induction n with
    | zero => rfl
    | succ n ih =>
      rw [List.append_nil] at ih ⊢
      rw [List.replicate_succ', normalSegments_concat, ih]
      cases n <;> simp [appendSegment, up, here, List.getLast?_replicate]
  | append_singleton names s ih =>
    rw [← List.append_assoc, normalSegments_concat,
      ih fun t ht => hnames t (List.mem_append_left _ ht),
      appendSegment_of_isName _ (hnames s (by simp))]

/-- What comes first may be brought to normal form first. -/
theorem normalSegments_append (l m : List Segment) :
    normalSegments false (normalSegments false l ++ m) = normalSegments false (l ++ m) := by
  induction m using List.reverseRecOn with
  | nil =>
    rw [List.append_nil, List.append_nil]
    exact normalSegments_of_isNormal (isNormal_normalSegments l)
  | append_singleton m s ih =>
    rw [← List.append_assoc, ← List.append_assoc, normalSegments_concat, normalSegments_concat, ih]

theorem normalSegments_concat_name (l : List Segment) {s : Segment} (hs : IsName s) :
    normalSegments false (l ++ [s]) = normalSegments false l ++ [s] := by
  rw [normalSegments_concat, appendSegment_of_isName _ hs]

/-- An empty segment changes nothing. -/
theorem normalSegments_concat_nil (l : List Segment) :
    normalSegments false (l ++ [[]]) = normalSegments false l := by
  rw [normalSegments_concat, appendSegment, if_pos (.inl rfl)]

/-- Going into a directory and up again changes nothing. -/
theorem normalSegments_back (l m : List Segment) {s : Segment} (hs : IsName s) :
    normalSegments false (l ++ s :: up :: m) = normalSegments false (l ++ m) := by
  have hback : normalSegments false (l ++ [s, up]) = normalSegments false l := by
    have hsplit : l ++ [s, up] = (l ++ [s]) ++ [up] := by simp
    rw [hsplit, normalSegments_concat, normalSegments_concat_name l hs]
    have hne : s ≠ ['.', '.'] := hs.2.2
    simp [appendSegment, hne, up, here]
  calc normalSegments false (l ++ s :: up :: m)
      = normalSegments false ((l ++ [s, up]) ++ m) := by simp
    _ = normalSegments false (l ++ m) := by
      rw [← normalSegments_append, hback, normalSegments_append]

/-- Going up once for each directory gone into changes nothing. -/
theorem normalSegments_back_all (l m : List Segment) {names : List Segment}
    (hnames : ∀ s ∈ names, IsName s) :
    normalSegments false (l ++ names ++ List.replicate names.length up ++ m) =
      normalSegments false (l ++ m) := by
  induction names using List.reverseRecOn generalizing m with
  | nil => simp
  | append_singleton names s ih =>
    have hs : IsName s := hnames s (by simp)
    have hinner := ih (m := m) fun t ht => hnames t (List.mem_append_left _ ht)
    rw [← hinner]
    calc normalSegments false
          (l ++ (names ++ [s]) ++ List.replicate (names ++ [s]).length up ++ m)
        = normalSegments false
            ((l ++ names) ++ s :: up :: (List.replicate names.length up ++ m)) := by
          simp [List.replicate_succ]
      _ = _ := by rw [normalSegments_back _ _ hs]; simp

theorem mem_of_mem_pushSegment {absolute : Bool} {taken : List Segment} {s t : Segment}
    (ht : t ∈ pushSegment absolute taken s) : t = s ∨ t ∈ taken := by
  unfold pushSegment at ht
  by_cases hskip : s = [] ∨ s = here
  · rw [if_pos hskip] at ht
    exact .inr ht
  rw [if_neg hskip] at ht
  by_cases hup : s = up
  · rw [if_pos hup] at ht
    rw [hup]
    cases taken with
    | nil =>
      split_ifs at ht
      · cases ht
      · exact .inl (List.mem_singleton.mp ht)
    | cons last rest =>
      dsimp only at ht
      split_ifs at ht
      · exact .inr (List.mem_cons_of_mem _ ht)
      · exact .inr ht
      · exact List.mem_cons.mp ht
  · rw [if_neg hup] at ht
    exact List.mem_cons.mp ht

theorem mem_of_mem_normalSegments {absolute : Bool} {l : List Segment} {s : Segment}
    (hs : s ∈ normalSegments absolute l) : s ∈ l := by
  rw [normalSegments, List.mem_reverse] at hs
  induction l using List.reverseRecOn with
  | nil => cases hs
  | append_singleton l t ih =>
    rw [List.foldl_append, List.foldl_cons, List.foldl_nil] at hs
    rw [List.mem_append, List.mem_singleton]
    exact (mem_of_mem_pushSegment hs).elim .inr fun h => .inl (ih h)

theorem ne_nil_of_mem_normalSegments {l : List Segment} {s : Segment}
    (hs : s ∈ normalSegments false l) : s ≠ [] := by
  obtain ⟨n, names, hl, hnames⟩ := isNormal_normalSegments l
  rw [hl] at hs
  rcases List.mem_append.mp hs with hs | hs
  · rw [List.eq_of_mem_replicate hs]
    decide
  · exact (hnames s hs).1

/-- From a directory, segments lead back some way and down from there: what is given up of the
directory are names, and what is gone down are given segments. -/
theorem exists_turn (directory l : List Segment) :
    ∃ kept left down, normalSegments false directory = kept ++ left ∧ (∀ s ∈ left, IsName s) ∧
      normalSegments false (directory ++ l) = kept ++ down ∧ ∀ s ∈ down, s ∈ l := by
  induction l using List.reverseRecOn with
  | nil => exact ⟨normalSegments false directory, [], [], by simp⟩
  | append_singleton l s ih =>
    obtain ⟨kept, left, down, hdirectory, hleft, hreached, hdown⟩ := ih
    have hnormal := isNormal_normalSegments (directory ++ l)
    rw [← List.append_assoc, normalSegments_concat, hreached]
    unfold appendSegment
    split_ifs with hskip hup hlast
    · exact ⟨kept, left, down, hdirectory, hleft, rfl, fun t ht => by simp [hdown t ht]⟩
    · refine ⟨kept, left, down ++ [up], hdirectory, hleft, by simp, fun t ht => ?_⟩
      rcases List.mem_append.mp ht with ht | ht
      · simp [hdown t ht]
      · simp [List.mem_singleton.mp ht, hup]
    · rcases List.eq_nil_or_concat' down with rfl | ⟨front, last, rfl⟩
      · -- the last segment of the directory is given up
        rcases List.eq_nil_or_concat' kept with rfl | ⟨front, last, rfl⟩
        · simp at hlast
        · have hlastName : IsName last := by
            rw [List.append_nil, List.getLast?_concat] at hlast
            exact hnormal.isName (by simp [hreached]) hlast
          refine ⟨front, last :: left, [], by simpa using hdirectory, ?_, by simp, by simp⟩
          intro t ht
          rcases List.mem_cons.mp ht with rfl | ht
          · exact hlastName
          · exact hleft t ht
      · refine ⟨kept, left, front, hdirectory, hleft, ?_, fun t ht => ?_⟩
        · rw [← List.append_assoc, List.dropLast_concat]
        · have := hdown t (by simp [ht])
          simp [this]
    · refine ⟨kept, left, down ++ [s], hdirectory, hleft, by simp, fun t ht => ?_⟩
      rcases List.mem_append.mp ht with ht | ht
      · simp [hdown t ht]
      · simp [List.mem_singleton.mp ht]

/-! ## Texts -/

theorem segments_eq (cs : List Char) : segments cs = cs.splitOn '/' :=
  Text.splitOn_beq '/' cs

theorem segments_ne_nil (cs : List Char) : segments cs ≠ [] := by
  rw [segments_eq]
  exact List.splitOn_ne_nil '/' cs

theorem joinSegments_segments (cs : List Char) : joinSegments (segments cs) = cs := by
  rw [segments_eq, joinSegments, List.intercalate_splitOn]

theorem segments_joinSegments {l : List Segment} (hslash : ∀ s ∈ l, '/' ∉ s) (hl : l ≠ []) :
    segments (joinSegments l) = l := by
  rw [segments_eq, joinSegments, List.splitOn_intercalate '/' hslash hl]

theorem segments_append_slash (cs ds : List Char) :
    segments (cs ++ '/' :: ds) = segments cs ++ segments ds := by
  rw [segments_eq, segments_eq, segments_eq, List.splitOn_append_cons_self]

theorem slash_not_mem_of_mem_segments {cs : List Char} {s : Segment} (hs : s ∈ segments cs) :
    '/' ∉ s := fun hc => by simpa using (Text.exists_piece_iff.mp ⟨s, hs, hc⟩).2

theorem mem_of_mem_segments {cs : List Char} {s : Segment} (hs : s ∈ segments cs) {c : Char}
    (hc : c ∈ s) : c ∈ cs :=
  (Text.exists_piece_iff.mp ⟨s, hs, hc⟩).1

theorem directorySegments_eq (path : List Char) :
    directorySegments path = (segments path).dropLast := by
  unfold directorySegments
  cases h : Text.splitAtLast? '/' path with
  | none =>
    rw [segments_eq, List.splitOn_eq_singleton (Text.splitAtLast?_eq_none_iff.mp h)]
    rfl
  | some sides =>
    obtain ⟨before, after⟩ := sides
    rw [segments_eq, Text.splitOn_of_splitAtLast? h, List.dropLast_concat]
    exact segments_eq before

/-- Neither behind a scheme nor from a root. -/
def IsRelative (cs : List Char) : Prop := hasScheme cs = false ∧ isAbsolute cs = false

instance : DecidablePred IsRelative := fun _ => inferInstanceAs (Decidable (_ ∧ _))

theorem isRelative_iff {cs : List Char} :
    IsRelative cs ↔ (hasScheme cs || isAbsolute cs) = false :=
  Bool.or_eq_false_iff.symm

/-- Only a path with an empty segment before its last one has a scheme or starts at a root. -/
theorem isRelative_of_segments {cs : List Char} (h : [] ∉ (segments cs).dropLast) :
    IsRelative cs := by
  constructor
  · rw [Bool.eq_false_iff]
    intro hscheme
    obtain ⟨before, after, rfl⟩ := Text.occursIn_iff.mp hscheme
    have hsplit : before ++ schemeMark ++ after = (before ++ [':']) ++ '/' :: '/' :: after := by
      simp [schemeMark]
    rw [hsplit, segments_append_slash, ← List.nil_append ('/' :: after), segments_append_slash,
      List.dropLast_append_of_ne_nil (by simp [segments_ne_nil]),
      List.dropLast_append_of_ne_nil (segments_ne_nil _)] at h
    exact h (by simp [segments, Text.splitOn])
  · rw [Bool.eq_false_iff]
    intro habsolute
    cases cs with
    | nil => simp [isAbsolute] at habsolute
    | cons c cs =>
      obtain rfl : c = '/' := by simpa [isAbsolute] using habsolute
      rw [← List.nil_append ('/' :: cs), segments_append_slash,
        List.dropLast_append_of_ne_nil (segments_ne_nil _)] at h
      exact h (by simp [segments, Text.splitOn])

theorem normalize_of_isRelative {path : List Char} (h : IsRelative path) :
    normalize path = joinSegments (normalSegments false (segments path)) := by
  simp only [normalize, h.2, Bool.false_eq_true, if_false]

/-- A text of normal segments has these segments, up to an empty one. -/
theorem normalSegments_segments_joinSegments {l : List Segment} (hslash : ∀ s ∈ l, '/' ∉ s)
    (hl : IsNormal l) : normalSegments false (segments (joinSegments l)) = l := by
  by_cases hnil : l = []
  · subst hnil
    rfl
  · rw [segments_joinSegments hslash hnil, normalSegments_of_isNormal hl]

/-! ## Reading an href -/

/-- A relative location whose last segment names a file. -/
structure IsFile (location : String) : Prop where
  relative : IsRelative location.toList
  name : IsName ((segments location.toList).getLastD [])

instance : DecidablePred IsFile := fun location =>
  decidable_of_iff (IsRelative location.toList ∧ IsName ((segments location.toList).getLastD []))
    ⟨fun h => ⟨h.1, h.2⟩, fun h => ⟨h.relative, h.name⟩⟩

/-- The segments of the directory of a relative location, in normal form. -/
def folderSegments (location : String) : List Segment :=
  normalSegments false (directorySegments location.toList)

/-- The location of the directory of a relative location. -/
def folder (location : String) : String :=
  String.ofList (joinSegments (folderSegments location))

/-- The location in normal form. -/
def normalized (location : String) : String :=
  String.ofList (normalize location.toList)

theorem IsFile.exists_name {location : String} (h : IsFile location) :
    ∃ file, IsName file ∧
      segments location.toList = directorySegments location.toList ++ [file] := by
  refine ⟨_, h.name, ?_⟩
  rw [directorySegments_eq, List.getLastD_eq_getLast?,
    List.getLast?_eq_some_getLast (segments_ne_nil _), Option.getD_some,
    List.dropLast_append_getLast]

variable {base origin target href : String}

theorem slash_not_mem_of_mem_folderSegments {s : Segment} (hs : s ∈ folderSegments base) :
    '/' ∉ s := by
  have hmem := mem_of_mem_normalSegments hs
  rw [directorySegments_eq] at hmem
  exact slash_not_mem_of_mem_segments (List.mem_of_mem_dropLast hmem)

theorem normalSegments_folderSegments (base : String) :
    normalSegments false (folderSegments base) = folderSegments base :=
  normalSegments_of_isNormal (isNormal_normalSegments _)

theorem IsFile.exists_normalized (h : IsFile base) :
    ∃ file, IsName file ∧
      segments (normalized base).toList = folderSegments base ++ [file] := by
  obtain ⟨file, hfile, hsegments⟩ := h.exists_name
  refine ⟨file, hfile, ?_⟩
  have hslash : '/' ∉ file :=
    slash_not_mem_of_mem_segments (show file ∈ segments base.toList by simp [hsegments])
  rw [normalized, String.toList_ofList, normalize_of_isRelative h.relative, hsegments,
    normalSegments_concat_name _ hfile]
  refine segments_joinSegments (fun s hs => ?_) (by simp)
  rcases List.mem_append.mp hs with hs | hs
  · exact slash_not_mem_of_mem_folderSegments hs
  · rwa [List.mem_singleton.mp hs]

theorem IsFile.normalized (h : IsFile base) : IsFile (normalized base) := by
  obtain ⟨file, hfile, hsegments⟩ := h.exists_normalized
  refine ⟨isRelative_of_segments ?_, ?_⟩
  · rw [hsegments, List.dropLast_concat]
    exact fun hs => ne_nil_of_mem_normalSegments hs rfl
  · rw [hsegments, List.getLastD_concat]
    exact hfile

theorem folderSegments_normalized (h : IsFile base) :
    folderSegments (Location.normalized base) = folderSegments base := by
  obtain ⟨file, -, hsegments⟩ := h.exists_normalized
  rw [folderSegments, directorySegments_eq, hsegments, List.dropLast_concat,
    normalSegments_folderSegments]

/-- Unless it is empty, the directory of a location is on the way to it. -/
theorem IsFile.folder_isPrefix (h : IsFile base) (hne : folder base ≠ "") :
    ((folder base).toList ++ ['/']) <+: (Location.normalized base).toList := by
  obtain ⟨file, -, hsegments⟩ := h.exists_normalized
  refine ⟨file, ?_⟩
  have hfolder : segments (folder base).toList = folderSegments base := by
    rw [folder, String.toList_ofList,
      segments_joinSegments fun s hs => slash_not_mem_of_mem_folderSegments hs]
    rintro hnil
    rw [folder, hnil] at hne
    exact hne rfl
  have hslash : '/' ∉ file :=
    slash_not_mem_of_mem_segments
      (show file ∈ segments (Location.normalized base).toList by simp [hsegments])
  have hsame : segments ((folder base).toList ++ '/' :: file) =
      segments (Location.normalized base).toList := by
    rw [segments_append_slash, hfolder, hsegments, segments_eq, List.splitOn_eq_singleton hslash]
  rw [List.append_assoc, List.singleton_append, ← joinSegments_segments (_ ++ '/' :: file), hsame,
    joinSegments_segments]

/-- A relative href leads below the scheme of the base, along its directory if that has a text. -/
theorem toList_resolve {scheme path : List Char}
    (hsplit : splitScheme base.toList = (scheme, path)) (hhref : IsRelative href.toList) :
    (resolve base href).toList =
      scheme ++ normalize
        (if directory path = [] then href.toList else directory path ++ '/' :: href.toList) := by
  rw [resolve, String.toList_ofList, resolveChars, isRelative_iff.mp hhref, if_neg (by decide),
    hsplit]
  simp only [List.isEmpty_iff]

/-- A relative href goes on from the directory of the base. -/
theorem resolve_of_isRelative (hbase : IsFile base) (hhref : IsRelative href.toList) :
    (resolve base href).toList =
      joinSegments (normalSegments false (folderSegments base ++ segments href.toList)) := by
  have hscheme : Text.splitAtFirst? schemeMark base.toList = none :=
    Option.not_isSome_iff_eq_none.mp (Bool.eq_false_iff.mp hbase.relative.1)
  have hsplit : splitScheme base.toList = ([], base.toList) := by rw [splitScheme, hscheme]
  rw [toList_resolve hsplit hhref, List.nil_append, folderSegments, normalSegments_append]
  unfold directory directorySegments
  cases hslash : Text.splitAtLast? '/' base.toList with
  | none => exact normalize_of_isRelative hhref
  | some sides =>
    obtain ⟨before, after⟩ := sides
    have habsolute := hbase.relative.2
    rw [(Text.splitAtLast?_eq_some hslash).1] at habsolute
    cases before with
    | nil => simp [isAbsolute] at habsolute
    | cons c before =>
      have hrelative : isAbsolute (c :: before ++ '/' :: href.toList) = false := by
        simpa [isAbsolute] using habsolute
      rw [← segments_append_slash, if_neg (List.cons_ne_nil _ _), normalize, hrelative]
      rfl

/-- An href that is made of segments leads along them, if no segment but the last one is empty. -/
theorem resolve_of_segments (hbase : IsFile base) {l : List Segment} (hslash : ∀ s ∈ l, '/' ∉ s)
    (hempty : [] ∉ l.dropLast) (hhref : href.toList = joinSegments l) :
    (resolve base href).toList =
      joinSegments (normalSegments false (folderSegments base ++ l)) := by
  by_cases hnil : l = []
  · subst hnil
    have hrelative : IsRelative href.toList := by
      rw [hhref]
      decide
    have hread : segments href.toList = [[]] := by
      rw [hhref]
      rfl
    rw [resolve_of_isRelative hbase hrelative, hread, normalSegments_concat_nil, List.append_nil]
  · have hread : segments href.toList = l := by rw [hhref, segments_joinSegments hslash hnil]
    have hrelative : IsRelative href.toList := isRelative_of_segments (by rwa [hread])
    rw [resolve_of_isRelative hbase hrelative, hread]

theorem resolve_of_not_isRelative (hhref : ¬IsRelative href.toList) : resolve base href = href := by
  rw [isRelative_iff, Bool.not_eq_false] at hhref
  rw [resolve, resolveChars, if_pos hhref, String.ofList_toList]

theorem relativize_of_not_isRelative (htarget : ¬IsRelative target.toList) :
    relativize base target = target := by
  rw [isRelative_iff, Bool.not_eq_false] at htarget
  rw [relativize, relativizeChars, htarget, Bool.true_or, if_pos rfl, String.ofList_toList]

/-- A base and its normal form are in one directory. -/
theorem resolve_normalized (hbase : IsFile base) (href : String) :
    resolve (Location.normalized base) href = resolve base href := by
  by_cases hhref : IsRelative href.toList
  · apply String.toList_injective
    rw [resolve_of_isRelative hbase.normalized hhref, resolve_of_isRelative hbase hhref,
      folderSegments_normalized hbase]
  · rw [resolve_of_not_isRelative hhref, resolve_of_not_isRelative hhref]

/-! ## Finding an href -/

/-- What can be reached from the directory of a base along texts without the mark that ends the
document of a reference. -/
def Reached (base target : String) : Prop :=
  ∃ way : List Segment, (∀ s ∈ way, '/' ∉ s ∧ '#' ∉ s) ∧
    target.toList = joinSegments (normalSegments false (folderSegments base ++ way))

theorem clean_of_mem_segments {cs : List Char} (hcs : '#' ∉ cs) :
    ∀ s ∈ segments cs, '/' ∉ s ∧ '#' ∉ s := fun _ hs =>
  ⟨slash_not_mem_of_mem_segments hs, fun hc => hcs (mem_of_mem_segments hs hc)⟩

theorem reached_resolve (hbase : IsFile base) (hhref : IsRelative href.toList)
    (hmark : '#' ∉ href.toList) : Reached base (resolve base href) :=
  ⟨segments href.toList, clean_of_mem_segments hmark, resolve_of_isRelative hbase hhref⟩

/-- What is reached is given by its segments, and these by the way from the base. -/
theorem Reached.exists_way (h : Reached base target) :
    ∃ way : List Segment, (∀ s ∈ way, '/' ∉ s ∧ '#' ∉ s) ∧
      normalSegments false (segments target.toList) =
        normalSegments false (folderSegments base ++ way) ∧
      target.toList = joinSegments (normalSegments false (segments target.toList)) := by
  obtain ⟨way, hway, htarget⟩ := h
  have hsegments : normalSegments false (segments target.toList) =
      normalSegments false (folderSegments base ++ way) := by
    rw [htarget]
    refine normalSegments_segments_joinSegments (fun s hs => ?_) (isNormal_normalSegments _)
    rcases List.mem_append.mp (mem_of_mem_normalSegments hs) with hs | hs
    · exact slash_not_mem_of_mem_folderSegments hs
    · exact (hway s hs).1
  exact ⟨way, hway, hsegments, by rw [hsegments, htarget]⟩

/-- What a file that is reached refers to is reached: the way back from the file and on. -/
theorem Reached.resolve (h : Reached base origin) (horigin : IsFile origin)
    (hhref : IsRelative href.toList) (hmark : '#' ∉ href.toList) :
    Reached base (resolve origin href) := by
  obtain ⟨way, hway, hsegments, -⟩ := h.exists_way
  obtain ⟨file, hfile, horiginSegments⟩ := horigin.exists_name
  refine ⟨way ++ up :: segments href.toList, ?_, ?_⟩
  · intro s hs
    rcases List.mem_append.mp hs with hs | hs
    · exact hway s hs
    rcases List.mem_cons.mp hs with rfl | hs
    · decide
    · exact clean_of_mem_segments hmark s hs
  · rw [resolve_of_isRelative horigin hhref]
    congr 1
    calc normalSegments false (folderSegments origin ++ segments href.toList)
        = normalSegments false
            (directorySegments origin.toList ++ file :: up :: segments href.toList) := by
          rw [normalSegments_back _ _ hfile, folderSegments, normalSegments_append]
      _ = normalSegments false (segments origin.toList ++ up :: segments href.toList) := by
          rw [horiginSegments, List.append_assoc, List.singleton_append]
      _ = normalSegments false (folderSegments base ++ (way ++ up :: segments href.toList)) := by
          rw [← normalSegments_append, hsegments, normalSegments_append, List.append_assoc]

/-- No segment of a location in normal form is empty, but for that of an empty location. -/
theorem nil_not_mem_of_normal
    (htarget : target.toList = joinSegments (normalSegments false (segments target.toList))) :
    [] ∉ (segments target.toList).dropLast := by
  generalize hl : normalSegments false (segments target.toList) = l at htarget
  by_cases hnil : l = []
  · rw [htarget, hnil]
    decide
  · subst hl
    rw [htarget, segments_joinSegments (fun s hs => ?_) hnil]
    · exact fun hs => ne_nil_of_mem_normalSegments (List.mem_of_mem_dropLast hs) rfl
    · exact slash_not_mem_of_mem_segments (mem_of_mem_normalSegments hs)

theorem Reached.nil_not_mem (h : Reached base target) :
    [] ∉ (segments target.toList).dropLast := by
  obtain ⟨way, -, -, htarget⟩ := h.exists_way
  exact nil_not_mem_of_normal htarget

theorem Reached.isRelative (h : Reached base target) : IsRelative target.toList :=
  isRelative_of_segments h.nil_not_mem

/-- What is reached is in normal form. -/
theorem Reached.normalized_eq (h : Reached base target) : normalized target = target := by
  obtain ⟨way, -, -, htarget⟩ := h.exists_way
  rw [normalized, normalize_of_isRelative h.isRelative, ← htarget, String.ofList_toList]

theorem exists_dropCommon (l m : List Segment) :
    ∃ common, l = common ++ (dropCommon l m).1 ∧ m = common ++ (dropCommon l m).2 := by
  induction l generalizing m with
  | nil => exact ⟨[], rfl, rfl⟩
  | cons a l ih =>
    cases m with
    | nil => exact ⟨[], rfl, rfl⟩
    | cons b m =>
      unfold dropCommon
      split_ifs with hab
      · obtain ⟨common, hl, hm⟩ := ih m
        exact ⟨a :: common, by rw [List.cons_append, ← hl], by rw [List.cons_append, ← hm, hab]⟩
      · exact ⟨[], rfl, rfl⟩

theorem dropCommon_append (kept l m : List Segment) :
    dropCommon (kept ++ l) (kept ++ m) = dropCommon l m := by
  induction kept with
  | nil => rfl
  | cons a kept ih => rw [List.cons_append, List.cons_append, dropCommon, if_pos rfl, ih]

/-- The segments of what is reached start like those of the directory of the base. -/
theorem Reached.exists_turn (h : Reached base target) :
    ∃ kept left down, folderSegments base = kept ++ left ∧ (∀ s ∈ left, IsName s) ∧
      segments target.toList = kept ++ down ∧ ∀ s ∈ down, '#' ∉ s := by
  obtain ⟨way, hway, hsegments, htarget⟩ := h.exists_way
  obtain ⟨kept, left, down, hfolder, hleft, hturn, hdown⟩ :=
    Location.exists_turn (folderSegments base) way
  rw [normalSegments_folderSegments] at hfolder
  by_cases hnil : kept ++ down = []
  · -- the location is empty, and an empty text is one empty segment
    obtain rfl := (List.append_eq_nil_iff.mp hnil).1
    refine ⟨[], left, [[]], hfolder, hleft, ?_, by simp⟩
    rw [htarget, hsegments, hturn, hnil]
    rfl
  · refine ⟨kept, left, down, hfolder, hleft, ?_, fun s hs => (hway s (hdown s hs)).2⟩
    rw [htarget, hsegments, hturn]
    refine segments_joinSegments (fun s hs => ?_) hnil
    rcases List.mem_append.mp hs with hs | hs
    · exact slash_not_mem_of_mem_folderSegments (show s ∈ folderSegments base by simp [hfolder, hs])
    · exact (hway s (hdown s hs)).1

/-- Going up before the end of a path makes no empty segment. -/
theorem nil_not_mem_way {n : ℕ} {front down : List Segment} (h : [] ∉ (front ++ down).dropLast) :
    [] ∉ (List.replicate n up ++ down).dropLast := by
  intro hmem
  rcases List.eq_nil_or_concat' down with rfl | ⟨before, last, rfl⟩
  · rw [List.append_nil] at hmem
    exact absurd (List.eq_of_mem_replicate (List.mem_of_mem_dropLast hmem)) (by decide)
  · rw [← List.append_assoc, List.dropLast_concat] at hmem h
    rcases List.mem_append.mp hmem with hmem | hmem
    · exact absurd (List.eq_of_mem_replicate hmem) (by decide)
    · exact h (List.mem_append_right _ hmem)

/-- The href of a location in normal form, from what its segments have in common with the directory
of the base: up from the rest of the directory and down from there, if there are names to go up. -/
theorem toList_relativize (hbase : IsFile base) (htarget : IsRelative target.toList)
    (hnormal : normalized target = target) {left down : List Segment}
    (hdrop : dropCommon (folderSegments base) (segments target.toList) = (left, down)) :
    (relativize base target).toList =
      if up ∈ left then target.toList
      else joinSegments (List.replicate left.length up ++ down) := by
  have hreads :
      (hasScheme target.toList || isAbsolute target.toList || hasScheme base.toList) = false := by
    rw [isRelative_iff.mp htarget, hbase.relative.1, Bool.or_false]
  have hdirectory : directorySegments (normalize base.toList) = folderSegments base := by
    obtain ⟨file, -, hsegments⟩ := hbase.exists_normalized
    rw [normalized, String.toList_ofList] at hsegments
    rw [directorySegments_eq, hsegments, List.dropLast_concat]
  have hself : normalize target.toList = target.toList := by
    rw [← String.toList_ofList (l := normalize target.toList)]
    exact congrArg String.toList hnormal
  rw [relativize, String.toList_ofList, relativizeChars, hreads]
  simp only [Bool.false_eq_true, if_false, hdirectory, hself, hdrop, List.contains_eq_mem,
    decide_eq_true_eq]

/-- The href of what is reached, from what its segments have in common with the directory of the
base. -/
theorem Reached.toList_relativize (hbase : IsFile base) (h : Reached base target)
    {left down : List Segment}
    (hdrop : dropCommon (folderSegments base) (segments target.toList) = (left, down))
    (hleft : ∀ s ∈ left, IsName s) :
    (relativize base target).toList =
      joinSegments (List.replicate left.length up ++ down) := by
  rw [Location.toList_relativize hbase h.isRelative h.normalized_eq hdrop,
    if_neg fun hmem => (hleft up hmem).2.2 rfl]

/-- The href of what is reached leads up along names and down from there. -/
theorem Reached.exists_href (hbase : IsFile base) (h : Reached base target) :
    ∃ kept left down, folderSegments base = kept ++ left ∧ (∀ s ∈ left, IsName s) ∧
      segments target.toList = kept ++ down ∧ (∀ s ∈ down, '#' ∉ s) ∧
      (relativize base target).toList =
        joinSegments (List.replicate left.length up ++ down) := by
  obtain ⟨kept, left, down, hfolder, hleft, htarget, hdown⟩ := h.exists_turn
  obtain ⟨common, hcommonLeft, hcommonDown⟩ := exists_dropCommon left down
  have hdrop :
      dropCommon (folderSegments base) (segments target.toList) = dropCommon left down := by
    rw [hfolder, htarget, dropCommon_append]
  generalize dropCommon left down = rest at hcommonLeft hcommonDown hdrop
  obtain ⟨left, down⟩ := rest
  dsimp only at hcommonLeft hcommonDown
  subst hcommonLeft hcommonDown
  have hnames : ∀ s ∈ left, IsName s := fun s hs => hleft s (List.mem_append_right _ hs)
  exact ⟨kept ++ common, left, down, by rw [hfolder, List.append_assoc], hnames,
    by rw [htarget, List.append_assoc], fun s hs => hdown s (List.mem_append_right _ hs),
    h.toList_relativize hbase hdrop hnames⟩

/-- The href of what is reached has no mark and is read back, unless it is the empty href of the
directory itself. -/
theorem Reached.relativize_spec (hbase : IsFile base) (h : Reached base target)
    (hne : target ≠ folder base) :
    relativize base target ≠ "" ∧ '#' ∉ (relativize base target).toList ∧
      Location.resolve base (relativize base target) = target := by
  obtain ⟨kept, left, down, hfolder, hleft, hsegments, hdown, hhref⟩ := h.exists_href hbase
  obtain ⟨-, -, -, htarget⟩ := h.exists_way
  generalize hl : List.replicate left.length up ++ down = l at hhref
  have hback : normalSegments false (folderSegments base ++ l) =
      normalSegments false (segments target.toList) := by
    rw [hfolder, ← hl, ← List.append_assoc, normalSegments_back_all kept down hleft, hsegments]
  have hclean : ∀ s ∈ l, '/' ∉ s ∧ '#' ∉ s := by
    intro s hs
    rw [← hl] at hs
    rcases List.mem_append.mp hs with hs | hs
    · rw [List.eq_of_mem_replicate hs]
      decide
    · have hmem : s ∈ segments target.toList := by simp [hsegments, hs]
      exact ⟨slash_not_mem_of_mem_segments hmem, hdown s hs⟩
  have hnames : l ≠ [] ∧ l ≠ [[]] := by
    rw [← not_or]
    intro hempty
    have hsame : normalSegments false (segments target.toList) = folderSegments base := by
      rw [← hback]
      rcases hempty with rfl | rfl
      · rw [List.append_nil, normalSegments_folderSegments]
      · rw [normalSegments_concat_nil, normalSegments_folderSegments]
    refine hne (String.toList_injective ?_)
    rw [htarget, hsame, folder, String.toList_ofList]
  have hread : segments (relativize base target).toList = l := by
    rw [hhref, segments_joinSegments (fun s hs => (hclean s hs).1) hnames.1]
  have hempty : [] ∉ l.dropLast := by
    rw [← hl]
    exact nil_not_mem_way (hsegments ▸ h.nil_not_mem)
  refine ⟨fun hnone => ?_, fun hmark => ?_, String.toList_injective ?_⟩
  · rw [hnone] at hread
    exact hnames.2 hread.symm
  · have hpiece : ∃ s ∈ segments (relativize base target).toList, '#' ∈ s :=
      Text.exists_piece_iff.mpr ⟨hmark, by decide⟩
    obtain ⟨s, hs, hmem⟩ := hpiece
    rw [hread] at hs
    exact (hclean s hs).2 hmem
  · rw [resolve_of_segments hbase (fun s hs => (hclean s hs).1) hempty hhref, hback, ← htarget]

end ThingTypes.Location
