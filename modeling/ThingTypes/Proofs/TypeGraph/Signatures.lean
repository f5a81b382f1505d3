import ThingTypes.Package
import ThingTypes.Proofs.Text.Split
import ThingTypes.TypeGraph.TypeRef
import ThingTypes.Unicode.Alphanumeric

/-
  Signatures tell types apart. The kind of a type can be seen from the first letter of its
  signature, and what a list or a map holds stands between brackets; so a signature is as good as
  the names in it (`eq_of_signature_eq`).

  A name is written with dots, inside a package and inside an owner alike. Its pieces between the
  dots tell which is which if no name starts like a segment of a package: then the segments are
  the longest beginning of pieces that could stand in a package (`TypeName.eq_of_display_eq`).
-/

namespace ThingTypes

/-! ## Kinds of types -/

namespace TypeRef

/-- The first letter of the signature, another one for each kind of type. -/
def letter : TypeRef → Char
  | primitive .boolean => 'b'
  | primitive .integer => 'i'
  | primitive .number => 'n'
  | primitive .string => 's'
  | classType _ => 'c'
  | enumType _ => 'e'
  | aliasType _ => 'a'
  | list _ => 'l'
  | map _ => 'm'
  | unit => 'u'

theorem head?_signature (type : TypeRef) : type.signature.toList.head? = some type.letter := by
  rcases type with (_ | _ | _ | _) | _ | _ | _ | _ | _ | _ <;>
    simp [signature, ScalarKind.typeName, letter]

theorem letter_eq_of_signature_eq {a b : TypeRef} (h : a.signature = b.signature) :
    a.letter = b.letter := by
  have hhead := congrArg (·.toList.head?) h
  rw [head?_signature, head?_signature] at hhead
  exact Option.some.inj hhead

/-- Types of one signature are the same, if the names they mention are told apart by how they are
written. -/
theorem eq_of_signature_eq {P : TypeName → Prop}
    (hP : ∀ {x y : TypeName}, P x → P y → x.display = y.display → x = y) {a b : TypeRef}
    (ha : ∀ name ∈ a.referencedName?, P name) (hb : ∀ name ∈ b.referencedName?, P name)
    (h : a.signature = b.signature) : a = b := by
  have hletter := letter_eq_of_signature_eq h
  induction a generalizing b with
  | list item ih =>
    rcases b with (_ | _ | _ | _) | _ | _ | _ | item' | _ | _ <;> simp [letter] at hletter
    have hitem := (String.append_right_inj _).mp ((String.append_left_inj _).mp h)
    rw [ih (b := item') ha hb hitem (letter_eq_of_signature_eq hitem)]
  | map item ih =>
    rcases b with (_ | _ | _ | _) | _ | _ | _ | _ | item' | _ <;> simp [letter] at hletter
    have hitem := (String.append_right_inj _).mp ((String.append_left_inj _).mp h)
    rw [ih (b := item') ha hb hitem (letter_eq_of_signature_eq hitem)]
  | classType name =>
    rcases b with (_ | _ | _ | _) | name' | _ | _ | _ | _ | _ <;> simp [letter] at hletter
    rw [hP (ha name rfl) (hb name' rfl) ((String.append_right_inj _).mp h)]
  | enumType name =>
    rcases b with (_ | _ | _ | _) | _ | name' | _ | _ | _ | _ <;> simp [letter] at hletter
    rw [hP (ha name rfl) (hb name' rfl) ((String.append_right_inj _).mp h)]
  | aliasType name =>
    rcases b with (_ | _ | _ | _) | _ | _ | name' | _ | _ | _ <;> simp [letter] at hletter
    rw [hP (ha name rfl) (hb name' rfl) ((String.append_right_inj _).mp h)]
  | primitive kind =>
    rcases kind with _ | _ | _ | _ <;> rcases b with (_ | _ | _ | _) | _ | _ | _ | _ | _ | _ <;>
      simp [letter] at hletter ⊢
  | unit =>
    rcases b with (_ | _ | _ | _) | _ | _ | _ | _ | _ | _ <;> simp [letter] at hletter ⊢

end TypeRef

/-! ## Names in packages -/

/-- A word of letters and numerals that does not start with a small letter of ASCII. -/
def IsTypeWord (word : List Char) : Prop :=
  ∃ first rest, word = first :: rest ∧ first.isLower = false ∧
    ∀ c ∈ word, Unicode.isAlphanumeric c = true

theorem IsTypeWord.dot_not_mem {word : List Char} (h : IsTypeWord word) : '.' ∉ word := by
  obtain ⟨_, _, _, _, hchars⟩ := h
  intro hdot
  exact absurd (hchars _ hdot) (by decide)

/-- No such word can stand in a package. -/
theorem IsTypeWord.not_isSegment {word : List Char} (h : IsTypeWord word) :
    Package.isSegment word = false := by
  obtain ⟨first, rest, rfl, hlower, hchars⟩ := h
  have hfirst : first ≠ '_' := by
    rintro rfl
    exact absurd (hchars _ List.mem_cons_self) (by decide)
  simp [Package.isSegment, Package.isSegmentStart, hlower, hfirst]

namespace TypeName

/-- A valid package, and words that could not stand in it for the name and its owner. -/
structure Readable (t : TypeName) : Prop where
  package : Package.isValid t.package = true
  name : IsTypeWord t.name.toList
  owner : ∀ owner ∈ t.owner?, IsTypeWord owner.toList

/-- The words that follow the package: the owner, if there is one, and the name. -/
def localWords (t : TypeName) : List (List Char) :=
  match t.owner? with
  | some owner => [owner.toList, t.name.toList]
  | none => [t.name.toList]

theorem eq_of_localWords_eq {t t' : TypeName} (hpackage : t.package = t'.package)
    (h : t.localWords = t'.localWords) : t = t' := by
  obtain ⟨package, name, owner?⟩ := t
  obtain ⟨package', name', owner?'⟩ := t'
  obtain rfl : package = package' := hpackage
  cases owner? with
  | none =>
    cases owner?' with
    | none =>
      have hname : name = name' := String.toList_injective (List.singleton_inj.mp h)
      rw [hname]
    | some owner' => exact absurd (congrArg List.length h) (by decide : (1 : Nat) ≠ 2)
  | some owner =>
    cases owner?' with
    | none => exact absurd (congrArg List.length h) (by decide : (2 : Nat) ≠ 1)
    | some owner' =>
      obtain ⟨howner, hnames⟩ := List.cons.inj h
      have hname : name = name' := String.toList_injective (List.singleton_inj.mp hnames)
      rw [String.toList_injective howner, hname]

variable {t t' : TypeName}

theorem Readable.isTypeWord_of_mem (h : t.Readable) {word : List Char}
    (hword : word ∈ t.localWords) : IsTypeWord word := by
  unfold localWords at hword
  cases howner : t.owner? with
  | none =>
    rw [howner, List.mem_singleton] at hword
    exact hword ▸ h.name
  | some owner =>
    simp only [howner, List.mem_cons, List.not_mem_nil, or_false] at hword
    rcases hword with rfl | rfl
    · exact h.owner owner howner
    · exact h.name

theorem Readable.splitOn_localName (h : t.Readable) :
    t.localName.toList.splitOn '.' = t.localWords := by
  have hname := List.splitOn_eq_singleton h.name.dot_not_mem
  unfold localName localWords
  cases howner : t.owner? with
  | none => simpa using hname
  | some owner =>
    have hsplit := List.splitOn_eq_singleton (h.owner owner howner).dot_not_mem
    have htext : (owner ++ "." ++ t.name).toList = owner.toList ++ '.' :: t.name.toList := by
      simp
    rw [htext, List.splitOn_append_cons_self, hsplit, hname]
    rfl

/-- Cut at its dots, a name is the segments of its package and then its words. -/
theorem Readable.splitOn_display (h : t.Readable) :
    t.display.toList.splitOn '.' = t.package.toList.splitOn '.' ++ t.localWords := by
  have hne : t.package.isEmpty = false := by
    refine Bool.eq_false_iff.mpr fun hempty => ?_
    have hpackage := h.package
    rw [String.isEmpty_iff.mp hempty] at hpackage
    exact absurd hpackage (by decide)
  have htext : t.display.toList = t.package.toList ++ '.' :: t.localName.toList := by
    simp [display, inPackage, hne]
  rw [htext, List.splitOn_append_cons_self, h.splitOn_localName]

theorem Readable.isSegment_of_mem (h : t.Readable) :
    ∀ segment ∈ t.package.toList.splitOn '.', Package.isSegment segment = true := by
  have hpackage := h.package
  rw [Package.isValid, Text.splitOn_beq] at hpackage
  exact List.all_eq_true.mp hpackage

/-- The package can be read off the pieces: it is all that comes before the first word. -/
theorem Readable.takeWhile_splitOn_display (h : t.Readable) :
    (t.display.toList.splitOn '.').takeWhile Package.isSegment = t.package.toList.splitOn '.' := by
  rw [h.splitOn_display, List.takeWhile_append_of_pos h.isSegment_of_mem]
  cases hwords : t.localWords with
  | nil => simp
  | cons word words =>
    have hword : IsTypeWord word := h.isTypeWord_of_mem (hwords ▸ List.mem_cons_self)
    rw [List.takeWhile_cons_of_neg (by simp [hword.not_isSegment]), List.append_nil]

/-- Names that are written alike are the same. -/
theorem eq_of_display_eq (h : t.Readable) (h' : t'.Readable) (hdisplay : t.display = t'.display) :
    t = t' := by
  have hsegments : t.package.toList.splitOn '.' = t'.package.toList.splitOn '.' := by
    rw [← h.takeWhile_splitOn_display, ← h'.takeWhile_splitOn_display, hdisplay]
  have hpieces : t.package.toList.splitOn '.' ++ t.localWords =
      t'.package.toList.splitOn '.' ++ t'.localWords := by
    rw [← h.splitOn_display, ← h'.splitOn_display, hdisplay]
  have hpackage := congrArg ['.'].intercalate hsegments
  rw [List.intercalate_splitOn, List.intercalate_splitOn] at hpackage
  rw [hsegments] at hpieces
  exact eq_of_localWords_eq (String.toList_injective hpackage) (List.append_cancel_left hpieces)

end TypeName

/-- The generated type that a reference mentions has a name that can be read back. -/
def TypeRef.Readable (type : TypeRef) : Prop :=
  ∀ name ∈ type.referencedName?, name.Readable

theorem TypeRef.signature_eq_iff {a b : TypeRef} (ha : a.Readable) (hb : b.Readable) :
    a.signature = b.signature ↔ a = b :=
  ⟨eq_of_signature_eq TypeName.eq_of_display_eq ha hb, congrArg signature⟩

end ThingTypes
