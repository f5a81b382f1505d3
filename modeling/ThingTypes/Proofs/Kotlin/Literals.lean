import ThingTypes.Kotlin.Printer
import ThingTypes.Proofs.Json.Text

/-
  The literals of scalar types, and which of them are printed. `IsLiteral` is the grammar: a string
  ends at the first quote that is not escaped and has no template in it, a long number fits 64 bits,
  and a floating-point number shows a fraction or an exponent. A value is printed as a literal of a
  type exactly if it fits that type (`isLiteral_literal_iff`).
-/

namespace ThingTypes

namespace Kotlin

/-! ## The grammar -/

/-- What may stand behind a backslash in a string. -/
def escapeLetters : List Char := "tbnr\"\\$\x27".toList

/-- Whether a text goes on as a string, behind its first quote, up to the quote that ends it. -/
def closesString : List Char → Bool
  | [] => false
  | c :: rest =>
    if c = '"' then rest.isEmpty
    else if c = '\\' then
      match rest with
      | [] => false
      | letter :: rest => escapeLetters.contains letter && closesString rest
    else c != '$' && c != '\n' && c != '\r' && closesString rest

/-- At least one digit, and nothing else. -/
def IsDigits (text : List Char) : Prop :=
  text ≠ [] ∧ ∀ c ∈ text, c.isDigit = true

def IsFraction (text : List Char) : Prop :=
  ∃ digits, IsDigits digits ∧ text = '.' :: digits

def IsExponent (text : List Char) : Prop :=
  ∃ sign ∈ [[], ['+'], ['-']], ∃ digits, IsDigits digits ∧ text = 'e' :: (sign ++ digits)

/-- Digits with a fraction, an exponent or both. -/
def IsDecimal (text : List Char) : Prop :=
  ∃ whole fraction exponent, IsDigits whole ∧ (fraction = [] ∨ IsFraction fraction) ∧
    (exponent = [] ∨ IsExponent exponent) ∧ (fraction ≠ [] ∨ exponent ≠ []) ∧
    text = whole ++ fraction ++ exponent

inductive IsLiteral : ScalarKind → List Char → Prop
  | string {rest : List Char} : closesString rest = true → IsLiteral .string ('"' :: rest)
  | integer {sign digits : List Char} : sign ∈ [[], ['-']] → IsDigits digits →
    Nat.ofDigitChars 10 digits 0 < 2 ^ 63 → IsLiteral .integer (sign ++ digits ++ ['L'])
  | number {sign magnitude : List Char} : sign ∈ [[], ['-']] → IsDecimal magnitude →
    IsLiteral .number (sign ++ magnitude)
  | boolean (b : Bool) : IsLiteral .boolean (if b then "true" else "false").toList

/-! ## First characters -/

/-- The characters that a literal of a type may start with. -/
def startsLiteral : ScalarKind → Char → Bool
  | .string, c => c = '"'
  | .integer, c | .number, c => c.isDigit || c = '-'
  | .boolean, c => c = 't' || c = 'f'

theorem head?_signed {sign digits rest : List Char} (hsign : sign ∈ [[], ['-']])
    (hdigits : IsDigits digits) :
    ∃ c, (sign ++ digits ++ rest).head? = some c ∧ (c.isDigit || c = '-') = true := by
  obtain ⟨hne, hall⟩ := hdigits
  obtain ⟨c, cs, rfl⟩ := List.exists_cons_of_ne_nil hne
  simp only [List.mem_cons, List.not_mem_nil, or_false] at hsign
  rcases hsign with rfl | rfl
  · exact ⟨c, rfl, by simp [hall c List.mem_cons_self]⟩
  · exact ⟨'-', rfl, rfl⟩

theorem IsLiteral.exists_head? {kind : ScalarKind} {text : List Char} (h : IsLiteral kind text) :
    ∃ c, text.head? = some c ∧ startsLiteral kind c = true := by
  cases h with
  | string _ => exact ⟨'"', rfl, rfl⟩
  | integer hsign hdigits _ => exact head?_signed hsign hdigits
  | number hsign hmagnitude =>
    obtain ⟨whole, fraction, exponent, hwhole, -, -, -, rfl⟩ := hmagnitude
    rw [← List.append_assoc, ← List.append_assoc, List.append_assoc]
    exact head?_signed hsign hwhole
  | boolean b => cases b <;> exact ⟨_, rfl, rfl⟩

/-- `null` is no literal of any of the types. -/
theorem not_isLiteral_null (kind : ScalarKind) : ¬ IsLiteral kind "null".toList := by
  intro h
  obtain ⟨c, hc, hstarts⟩ := h.exists_head?
  cases hc
  cases kind <;> cases hstarts

/-- A string is a literal of no other type. -/
theorem not_isLiteral_stringLiteral {kind : ScalarKind} (hkind : kind ≠ .string) (s : String) :
    ¬ IsLiteral kind (stringLiteral s).toList := by
  intro h
  obtain ⟨c, hc, hstarts⟩ := h.exists_head?
  rw [stringLiteral, String.toList_ofList] at hc
  cases hc
  cases kind with
  | string => exact hkind rfl
  | _ => cases hstarts

/-! ## Strings -/

theorem closesString_escape {letter : Char} {rest : List Char}
    (hletter : escapeLetters.contains letter = true) (h : closesString rest = true) :
    closesString ('\\' :: letter :: rest) = true := by
  rw [closesString, if_neg (by decide), if_pos rfl]
  exact Bool.and_eq_true_iff.mpr ⟨hletter, h⟩

theorem closesString_literalChar_append (c : Char) {rest : List Char}
    (h : closesString rest = true) : closesString (literalChar c ++ rest) = true := by
  unfold literalChar
  split_ifs with hquote hbackslash hdollar hn hr ht
  case neg =>
    rw [List.singleton_append, closesString.eq_def]
    simp [hquote, hbackslash, hdollar, hn, hr, h]
  all_goals exact closesString_escape (by decide) h

theorem isLiteral_stringLiteral (s : String) : IsLiteral .string (stringLiteral s).toList := by
  rw [stringLiteral, String.toList_ofList]
  refine .string ?_
  induction s.toList with
  | nil => rfl
  | cons c cs ih =>
    rw [List.flatMap_cons, List.append_assoc]
    exact closesString_literalChar_append c ih

/-! ## Long numbers -/

/-- Behind its sign an integer has nothing but digits. -/
theorem render_integer_eq (n : ℤ) :
    ∃ sign ∈ [[], ['-']], (JsonNumber.integer n).render = sign ++ Nat.toDigits 10 n.natAbs := by
  rw [JsonNumber.render_integer]
  split
  · exact ⟨[], by simp, by rw [List.nil_append]; congr 1; omega⟩
  · exact ⟨['-'], by simp, by rw [List.singleton_append]; congr 2; omega⟩

theorem isDigits_singleton {c : Char} (hc : c.isDigit = true) : IsDigits [c] :=
  ⟨List.cons_ne_nil _ _, by simpa using hc⟩

theorem isDigits_toDigits (n : ℕ) : IsDigits (Nat.toDigits 10 n) :=
  ⟨Nat.toDigits_ne_nil, fun _ hc => Nat.isDigit_of_mem_toDigits (by decide) (by decide) hc⟩

/-- A sign and digits can be told apart. -/
theorem signed_inj {sign sign' digits digits' : List Char} (hsign : sign ∈ [[], ['-']])
    (hsign' : sign' ∈ [[], ['-']]) (hdigits : IsDigits digits) (hdigits' : IsDigits digits')
    (h : sign ++ digits = sign' ++ digits') : digits = digits' := by
  have hminus {digits : List Char} (hdigits : IsDigits digits) : '-' ∉ digits :=
    fun hmem => absurd (hdigits.2 _ hmem) (by decide)
  simp only [List.mem_cons, List.not_mem_nil, or_false] at hsign hsign'
  rcases hsign with rfl | rfl <;> rcases hsign' with rfl | rfl
  · exact h
  · exact absurd (show '-' ∈ digits by rw [show digits = _ from h]; simp) (hminus hdigits)
  · exact absurd (show '-' ∈ digits' by rw [show digits' = _ from h.symm]; simp) (hminus hdigits')
  · exact List.tail_eq_of_cons_eq h

/-- An integer is printed as a long number exactly if it fits one, with its sign turned around
too. -/
theorem isLiteral_long_iff (n : ℤ) :
    IsLiteral .integer ((JsonNumber.integer n).render ++ ['L']) ↔ n.natAbs < 2 ^ 63 := by
  obtain ⟨sign, hsign, hrender⟩ := render_integer_eq n
  have hvalue : Nat.ofDigitChars 10 (Nat.toDigits 10 n.natAbs) 0 = n.natAbs :=
    Nat.ofDigitChars_ten_toDigits
  rw [hrender]
  constructor
  · generalize htext : sign ++ Nat.toDigits 10 n.natAbs ++ ['L'] = text
    rintro (_ | ⟨hsign', hdigits', hbound⟩)
    have hsame := signed_inj hsign hsign' (isDigits_toDigits _) hdigits'
      (List.append_cancel_right htext)
    rwa [← hvalue, hsame]
  · intro hbound
    exact .integer hsign (isDigits_toDigits _) (hvalue.symm ▸ hbound)

/-- A number with a point or an exponent is no long number. -/
theorem not_isLiteral_long_real (x : Binary64) :
    ¬ IsLiteral .integer ((JsonNumber.real x).render ++ ['L']) := by
  generalize htext : (JsonNumber.real x).render ++ ['L'] = text
  rintro (_ | ⟨hsign, hdigits, -⟩)
  have hrender := List.append_cancel_right htext
  have hplain : ∀ c ∈ (JsonNumber.real x).render, c.isDigit = true ∨ c = '-' := by
    intro c hc
    rw [hrender] at hc
    simp only [List.mem_cons, List.not_mem_nil, or_false] at hsign
    rcases List.mem_append.mp hc with hc | hc
    · rcases hsign with rfl | rfl <;> simp_all
    · exact .inl (hdigits.2 c hc)
  rcases DecimalLayout.mark_mem_text JsonNumber.layout_wholeFraction x with hmark | hmark
  · exact absurd (hplain _ hmark) (by decide)
  · exact absurd (hplain _ hmark) (by decide)

/-! ## Floating-point numbers -/

section Decimal

variable {l : DecimalLayout} {d : DecimalDigits}

theorem isDigits_wholePart (hd : d.Normal) :
    IsDigits (DecimalLayout.wholePart d.digits d.exponent) := by
  refine ⟨?_, fun _ hc => DecimalLayout.isDigit_of_mem_wholePart hd hc⟩
  unfold DecimalLayout.wholePart
  split_ifs
  · simp
  · simp [hd.ne_nil]
  · simp [hd.ne_nil]

theorem isDigits_fractionPart (hd : d.Normal) :
    IsDigits (DecimalLayout.fractionPart d.digits d.exponent) := by
  refine ⟨?_, fun _ hc => DecimalLayout.isDigit_of_mem_fractionPart hd hc⟩
  unfold DecimalLayout.fractionPart
  split_ifs
  · simp [hd.ne_nil]
  · simp
  · rw [Ne, List.drop_eq_nil_iff]
    omega

theorem isDecimal_positional (hl : l.wholeFraction = true) (hd : d.Normal) :
    IsDecimal (l.positional d.digits d.exponent) := by
  rw [DecimalLayout.positional_eq hl]
  exact ⟨_, _, [], isDigits_wholePart hd, .inr ⟨_, isDigits_fractionPart hd, rfl⟩, .inl rfl,
    .inl (List.cons_ne_nil _ _), (List.append_nil _).symm⟩

theorem isDecimal_scientific (hd : d.Normal) :
    IsDecimal (DecimalLayout.scientific d.digits d.exponent) := by
  have hexponent : IsExponent
      ('e' :: (if d.exponent < 0 then '-' else '+') :: Nat.toDigits 10 d.exponent.natAbs) := by
    refine ⟨[if d.exponent < 0 then '-' else '+'], ?_, _, isDigits_toDigits _, rfl⟩
    split <;> simp
  obtain ⟨digits, exponent⟩ := d
  obtain ⟨c, rest, rfl⟩ := List.exists_cons_of_ne_nil hd.ne_nil
  have hc : IsDigits [c] := isDigits_singleton (hd.isDigit c List.mem_cons_self)
  cases rest with
  | nil => exact ⟨[c], [], _, hc, .inl rfl, .inr hexponent, .inr (List.cons_ne_nil _ _), rfl⟩
  | cons c' rest =>
    have hrest : IsDigits (c' :: rest) :=
      ⟨List.cons_ne_nil _ _, fun _ hmem => hd.isDigit _ (List.mem_cons_of_mem _ hmem)⟩
    exact ⟨[c], '.' :: c' :: rest, _, hc, .inr ⟨_, hrest, rfl⟩, .inr hexponent,
      .inl (List.cons_ne_nil _ _), rfl⟩

theorem isDecimal_magnitudeText (hl : l.wholeFraction = true) (x : Binary64) :
    IsDecimal (l.magnitudeText x) := by
  unfold DecimalLayout.magnitudeText
  split
  · rw [DecimalLayout.positional_zero hl]
    have hzero : IsDigits ['0'] := isDigits_singleton rfl
    exact ⟨['0'], ['.', '0'], [], hzero, .inr ⟨['0'], hzero, rfl⟩, .inl rfl,
      .inl (List.cons_ne_nil _ _), rfl⟩
  · rename_i hx
    have hnormal := (Binary64.shortestDigits_spec (DecimalLayout.significand_ne_zero hx)).1
    unfold DecimalLayout.digitsText
    split
    · exact isDecimal_positional hl hnormal
    · exact isDecimal_scientific hnormal

end Decimal

/-- A number is always printed as a floating-point number where one is expected. -/
theorem isLiteral_floatLiteral (n : JsonNumber) : IsLiteral .number (floatLiteral n).toList := by
  unfold floatLiteral
  dsimp only
  cases n with
  | integer n =>
    have hplain : (JsonNumber.integer n).render.any
        (fun c => c = '.' || c = 'e' || c = 'E') = false := by
      rw [List.any_eq_false]
      intro c hc
      rcases JsonNumber.isDigit_of_mem_render_integer hc with hdigit | rfl
      · intro hmark
        simp only [Bool.or_eq_true, decide_eq_true_eq] at hmark
        rcases hmark with (rfl | rfl) | rfl <;> cases hdigit
      · decide
    obtain ⟨sign, hsign, hrender⟩ := render_integer_eq n
    rw [hplain, if_neg Bool.false_ne_true, String.toList_append, String.toList_ofList, hrender,
      List.append_assoc]
    refine .number hsign ⟨_, ['.', '0'], [], isDigits_toDigits n.natAbs, ?_, .inl rfl, ?_, ?_⟩
    · exact .inr ⟨['0'], isDigits_singleton rfl, rfl⟩
    · exact .inl (List.cons_ne_nil _ _)
    · rw [List.append_nil]
      rfl
  | real x =>
    have hmarked : (JsonNumber.real x).render.any
        (fun c => c = '.' || c = 'e' || c = 'E') = true := by
      rw [List.any_eq_true]
      rcases DecimalLayout.mark_mem_text JsonNumber.layout_wholeFraction x with hmark | hmark
      · exact ⟨_, hmark, rfl⟩
      · exact ⟨_, hmark, rfl⟩
    rw [if_pos hmarked, String.toList_ofList]
    have hmagnitude := isDecimal_magnitudeText JsonNumber.layout_wholeFraction x
    rw [JsonNumber.render, DecimalLayout.text]
    have hminus : ['-'] ∈ [[], ['-']] := by simp
    have hplus : [] ∈ [[], ['-']] := by simp
    split
    · exact .number hminus hmagnitude
    · exact .number hplus hmagnitude

/-! ## Values -/

/-- Whether a value fits a type. A whole number fits an integer if it is a long number whatever its
sign. Every value but `null` has a text. -/
def fits : ScalarKind → Json → Bool
  | .string, value => !value.isNull
  | .integer, .number (.integer n) => n.natAbs < 2 ^ 63
  | .number, .number _ => true
  | .boolean, .bool _ => true
  | _, _ => false

theorem isLiteral_literal_of_fits {kind : ScalarKind} {value : Json}
    (hfits : fits kind value = true) : IsLiteral kind (literal kind value).toList := by
  cases kind with
  | string =>
    cases value with
    | null => cases hfits
    | bool _ | number _ | string _ | array _ | object _ => exact isLiteral_stringLiteral _
  | integer =>
    cases value with
    | number n =>
      cases n with
      | integer n =>
        rw [literal, String.toList_append, String.toList_ofList]
        exact (isLiteral_long_iff n).mpr (of_decide_eq_true hfits)
      | real x => cases hfits
    | null | bool _ | string _ | array _ | object _ => cases hfits
  | number =>
    cases value with
    | number n => exact isLiteral_floatLiteral n
    | null | bool _ | string _ | array _ | object _ => cases hfits
  | boolean =>
    cases value with
    | bool b => exact .boolean b
    | null | number _ | string _ | array _ | object _ => cases hfits

/-- What does not fit is printed as a string, a number that is no long one aside. -/
theorem literal_of_misfit {kind : ScalarKind} {value : Json} (hvalue : value.isNull = false)
    (hfits : fits kind value = false) :
    kind ≠ .string ∧ literal kind value = stringLiteral value.asText ∨
      kind = .integer ∧ ∃ n, value = .number n := by
  cases kind with
  | string =>
    rw [fits, hvalue] at hfits
    cases hfits
  | integer =>
    cases value with
    | null => cases hvalue
    | number n => exact .inr ⟨rfl, n, rfl⟩
    | bool _ | string _ | array _ | object _ => exact .inl ⟨nofun, rfl⟩
  | number =>
    cases value with
    | null => cases hvalue
    | number n => cases hfits
    | bool _ | string _ | array _ | object _ => exact .inl ⟨nofun, rfl⟩
  | boolean =>
    cases value with
    | null => cases hvalue
    | bool b => cases hfits
    | number _ | string _ | array _ | object _ => exact .inl ⟨nofun, rfl⟩

theorem literal_null (kind : ScalarKind) : literal kind .null = "null" := by
  cases kind <;> rfl

/-- Only `null` is printed as `null`. -/
theorem literal_eq_null_iff {kind : ScalarKind} {value : Json} :
    literal kind value = "null" ↔ value.isNull = true := by
  cases hvalue : value.isNull with
  | true =>
    cases value with
    | null => exact iff_of_true (literal_null kind) rfl
    | _ => cases hvalue
  | false =>
    refine iff_of_false (fun hliteral => ?_) Bool.false_ne_true
    cases hfits : fits kind value with
    | true =>
      have h := isLiteral_literal_of_fits hfits
      rw [hliteral] at h
      exact not_isLiteral_null kind h
    | false =>
      obtain ⟨-, hstring⟩ | ⟨rfl, n, rfl⟩ := literal_of_misfit hvalue hfits
      · have h := isLiteral_stringLiteral value.asText
        rw [← hstring, hliteral] at h
        exact not_isLiteral_null .string h
      -- A long number ends in a letter of its own.
      · have hlast := congrArg (fun text => text.toList.getLast?) hliteral
        simp [literal] at hlast

/-- A value is printed as a literal of the type exactly if it fits the type. -/
theorem isLiteral_literal_iff (kind : ScalarKind) (value : Json) :
    IsLiteral kind (literal kind value).toList ↔ fits kind value = true := by
  refine ⟨fun h => ?_, isLiteral_literal_of_fits⟩
  by_contra hfits
  rw [Bool.not_eq_true] at hfits
  cases hvalue : value.isNull with
  | true =>
    rw [literal_eq_null_iff.mpr hvalue] at h
    exact not_isLiteral_null kind h
  | false =>
    obtain ⟨hkind, hstring⟩ | ⟨rfl, n, rfl⟩ := literal_of_misfit hvalue hfits
    · rw [hstring] at h
      exact not_isLiteral_stringLiteral hkind _ h
    · rw [literal, String.toList_append, String.toList_ofList] at h
      cases n with
      | integer n => exact absurd ((isLiteral_long_iff n).mp h) (of_decide_eq_false hfits)
      | real x => exact not_isLiteral_long_real x h

end Kotlin

end ThingTypes
