import ThingTypes.Proofs.Generation.Changes
import ThingTypes.Proofs.Generation.Locality
import ThingTypes.Proofs.Resolution.EnumNames

/-
  Interfaces of actions. An interface holds its name without being declared in the catalog, and has
  a method for each action. It lists its actions in an enum: the enum is new, or an earlier
  interface of the same package has declared it; or else an enum that a class of the package nests
  is taken for it.
-/

namespace ThingTypes

open Resolution Catalog

/-! ## Interfaces of actions -/

def ActionMethod.member (method : ActionMethod) : String × String := (method.jsonName, method.name)

/-- The methods are those of the actions under these keys. -/
structure MethodsOf (keys : List String) (methods : List ActionMethod) : Prop where
  members : methods.map ActionMethod.member = keyed keys
  constants : methods.map ActionMethod.constant = keys.map Identifier.constantName
  plain : ∀ method ∈ methods, method.IsPlain

theorem MethodsOf.jsonNames {keys : List String} {methods : List ActionMethod}
    (h : MethodsOf keys methods) : methods.map ActionMethod.jsonName = keys := by
  have hmembers := congrArg (List.map Prod.fst) h.members
  simpa [keyed, ActionMethod.member, Function.comp_def] using hmembers

theorem MethodsOf.strings {keys : List String} {methods : List ActionMethod}
    (h : MethodsOf keys methods) :
    (methods.map fun method => Json.string method.jsonName) = keys.map Json.string := by
  rw [← h.jsonNames, List.map_map]
  rfl

namespace ActionInterface

variable {digest : Digest} {known : SchemaNode → Prop} {c c' : Catalog} {i : ActionInterface}

/-- The enum of the interface is at the top level and has a constant for each method. -/
def ListedIn (c : Catalog) (i : ActionInterface) : Prop :=
  ∃ e, c.enums.separate? i.actionEnum.key = some e ∧
    e.constants = EnumContent.constantsFor (i.methods.map ActionMethod.constant)
      (i.methods.map fun method => .string method.jsonName)

/-- The interface holds its name and, with a digest that tells enums apart, lists its methods,
unless it shares its package. -/
structure Stands (digest : Digest) (c : Catalog) (shared : Prop) (i : ActionInterface) :
    Prop where
  methods : ∃ keys, keys ≠ [] ∧ keys.Nodup ∧ MethodsOf keys i.methods
  plain : IsName i.name
  held : c.classes.table.get? i.typeName.key =
    some (.ofMembers digest (Assembly.interfaceMembers i.methods))
  enum_topLevel : i.actionEnum.IsTopLevel i.package
  listed : Function.Injective digest → i.ListedIn c ∨ c.NestsNamed i.actionEnum.key ∧ shared

theorem Stands.weaken {shared shared' : Prop} (h : Stands digest c shared i)
    (hshared : shared → shared') : Stands digest c shared' i :=
  { h with listed := fun hdigest => (h.listed hdigest).imp_right (.imp_right hshared) }

theorem Stands.kept {shared : Prop} (h : Stands digest c shared i) (hc : c.Named)
    (hchanges : Changes digest known c c') : Stands digest c' shared i where
  methods := h.methods
  plain := h.plain
  held := hchanges.table_kept h.held
  enum_topLevel := h.enum_topLevel
  listed hdigest := by
    rcases h.listed hdigest with ⟨e, he, hconstants⟩ | ⟨hnested, hs⟩
    · exact .inl ⟨e, hchanges.separate_kept hc he, hconstants⟩
    · exact .inr ⟨hnested.retained (hchanges.retains hc), hs⟩

/-- All interfaces stand. One shares its package if that is listed or another of them has it. -/
def StandAll (digest : Digest) (c : Catalog) (listed : List String)
    (interfaces : List ActionInterface) : Prop :=
  ∀ i ∈ interfaces, i.Stands digest c
    (i.package ∈ listed ∨ 1 < (interfaces.map ActionInterface.package).count i.package)

theorem StandAll.append {listed : List String} {i? : Option ActionInterface}
    {interfaces : List ActionInterface} (hfirst : ∀ i ∈ i?, i.Stands digest c (i.package ∈ listed))
    (hrest : StandAll digest c (listed ++ i?.toList.map ActionInterface.package) interfaces) :
    StandAll digest c listed (i?.toList ++ interfaces) := by
  cases i? with
  | none => simpa using hrest
  | some first =>
    refine List.forall_mem_cons.mpr ⟨(hfirst first rfl).weaken .inl, fun i hi => ?_⟩
    refine (hrest i hi).weaken ?_
    have hcount : 0 < (interfaces.map ActionInterface.package).count i.package :=
      List.count_pos_iff.mpr (List.mem_map_of_mem hi)
    rintro (hlisted | hcount')
    · rcases List.mem_append.mp hlisted with hlisted | hsame
      · exact .inl hlisted
      · have hsame : i.package = first.package := by simpa using hsame
        refine .inr ?_
        simp only [Option.toList_some, List.singleton_append, List.map_cons, ← hsame,
          List.count_cons_self]
        exact Nat.succ_lt_succ hcount
    · exact .inr (Nat.lt_of_lt_of_le hcount' (List.count_le_count_cons ..))

end ActionInterface

/-! ## Enums of texts -/

/-- An enum with the fingerprint of an enum of texts has its constants. -/
theorem EnumDecl.IsFrom.constants_eq {digest : Digest} (hdigest : Function.Injective digest)
    {known : SchemaNode → Prop} {e : EnumDecl} (h : e.IsFrom digest known) {keys : List String}
    {path : String} {content : EnumContent}
    (hcontent : EnumContent.ofScalars digest .string (keys.map Json.string) path = .ok content)
    (hsame : e.fingerprint = content.fingerprint) : e.constants = content.constants := by
  obtain ⟨node, name, info, content', package, owner?, -, ⟨values, path', -, hdeclared⟩, rfl⟩ := h
  obtain ⟨hof, hbacking⟩ := EnumContent.isOf_of_scalars hcontent
  have hsame' : content'.fingerprint = content.fingerprint := hsame
  change content'.constants = content.constants
  rcases hdeclared with ⟨kind, -, hscalars⟩ | ⟨shape, -, hrecords⟩
  · obtain ⟨hof', hbacking'⟩ := EnumContent.isOf_of_scalars hscalars
    obtain ⟨hbackings, hvalues⟩ := hof'.same_of_fingerprint_eq hdigest hof hsame'
    rw [hbacking, hbacking'] at hbackings
    obtain rfl := EnumBacking.scalar.inj hbackings
    rw [Json.eq_strings_of_sorted hvalues] at hscalars
    rw [EnumContent.constants_of_strings hscalars, EnumContent.constants_of_strings hcontent]
  · obtain ⟨hof', hbacking'⟩ := EnumContent.isOf_of_records hrecords
    obtain ⟨hbackings, -⟩ := hof'.same_of_fingerprint_eq hdigest hof hsame'
    rw [hbacking, hbacking'] at hbackings
    cases hbackings

/-- A name that holds the fingerprint of an enum of texts is that of such an enum, or a nested enum
has taken it over. -/
theorem Catalog.constants_of_held {digest : Digest} (hdigest : Function.Injective digest)
    {known : SchemaNode → Prop} {c : Catalog} (hc : Changes digest known {} c)
    {keys : List String} {path : String} {content : EnumContent} {key : TypeKey}
    (hcontent : EnumContent.ofScalars digest .string (keys.map Json.string) path = .ok content)
    (hheld : c.enums.table.get? key = some content.fingerprint) :
    (∃ e, c.enums.separate? key = some e ∧ e.constants = content.constants) ∨
      c.NestsNamed key := by
  rcases hc.enumsAccounted consistent_empty.toNamed enumsAccounted_empty hheld with
    ⟨e, he, hfingerprint⟩ | hnested
  · exact .inl ⟨e, he,
      ((hc.sourced sourced_empty).separate_from he).constants_eq hdigest hcontent hfingerprint⟩
  · exact .inr hnested

namespace Assembly

/-! ## Schemas -/

/-- The schemas of the inputs and outputs of the actions are known. -/
def PayloadsKnown (known : SchemaNode → Prop) (actions : List (String × ActionAffordance)) : Prop :=
  ∀ action ∈ actions, ∀ schema, schema ∈ action.2.input? ∨ schema ∈ action.2.output? →
    ∀ path node, SchemaNode.ofJson schema path = .ok node → known node

variable {s : ResolutionSettings} {known : SchemaNode → Prop} {outer package : String}
  {context : NamingContext} {c : Catalog}

section Runs

variable (hclosed : ClosedUnderChildren known) (hroot : AtRoot outer package context)
include hclosed hroot

theorem payloadType_changes {schema? : Option Json}
    (hschema : ∀ schema ∈ schema?, ∀ path node, SchemaNode.ofJson schema path = .ok node →
      known node) (fallback path : String) :
    Resolution.Outcome (payloadType s schema? fallback path package context) c
      (fun type? c' => (∀ type ∈ type?, type.IsPlain) ∧ Changes s.digest known c c')
      fun _ => True := by
  unfold payloadType
  cases schema? with
  | none => exact .pure ⟨nofun, .refl⟩
  | some schema =>
    refine .bind (.liftExcept (Q := fun node c' => known node ∧ c = c')
      (fun node hnode => ⟨hschema schema rfl path node hnode, rfl⟩) trivial) ?_
    rintro node _ ⟨hknown, rfl⟩
    refine .bind ((makesChanges hclosed node hknown).ofType _ _ (hroot.isOpen _)) ?_
    rintro type c' ⟨hplain, hchanges⟩
    refine .pure ⟨?_, hchanges⟩
    rintro _ ⟨⟩
    exact hplain

theorem actionMethods_changes {actions : List (String × ActionAffordance)}
    (hpayloads : PayloadsKnown known actions) :
    ∀ {c : Catalog}, Resolution.Outcome (actionMethods s package context actions) c
      (fun methods c' => MethodsOf (actions.map Prod.fst) methods ∧ Changes s.digest known c c')
      fun _ => True := by
  induction actions with
  | nil => exact .pure ⟨⟨rfl, rfl, nofun⟩, .refl⟩
  | cons action rest ih =>
    intro c
    have hschemas := hpayloads action List.mem_cons_self
    have hmethod : Resolution.Outcome (actionMethod s package context action.1 action.2) c
        (fun method c' => method.member = (action.1, Identifier.propertyName action.1) ∧
          method.constant = Identifier.constantName action.1 ∧ method.IsPlain ∧
          Changes s.digest known c c') fun _ => True := by
      unfold actionMethod
      refine .bind (payloadType_changes hclosed hroot
        (fun schema hmem => hschemas schema (.inl hmem)) _ _) ?_
      rintro input? c₁ ⟨hinput, hchanges⟩
      refine .bind (payloadType_changes hclosed hroot
        (fun schema hmem => hschemas schema (.inr hmem)) _ _) ?_
      rintro output? c₂ ⟨houtput, hchanges'⟩
      exact .pure ⟨rfl, rfl, ⟨hinput, houtput⟩, hchanges.trans hchanges'⟩
    rw [actionMethods]
    refine .bind hmethod ?_
    rintro method c₁ ⟨hmember, hconstant, hplain, hchanges⟩
    refine .bind (ih fun action hmem => hpayloads action (List.mem_cons_of_mem _ hmem)) ?_
    rintro methods c₂ ⟨hmethods, hchanges'⟩
    refine .pure ⟨⟨?_, ?_, List.forall_mem_cons.mpr ⟨hplain, hmethods.plain⟩⟩,
      hchanges.trans hchanges'⟩
    · rw [List.map_cons, hmember, hmethods.members]
      rfl
    · rw [List.map_cons, hconstant, hmethods.constants]
      rfl

end Runs

/-! ## Actions -/

/-- The enum of some actions has the values of their keys. It is new, or its name holds these values
already. -/
theorem resolveActionEnum_changes {feature? : Option String}
    (hroot : AtRoot outer package { role := .other, feature? }) (keys : List String)
    (hknown : known (actionEnumNode keys)) :
    Resolution.Outcome (resolveSeparateEnum s actionEnumName (actionEnumNode keys) package
        { role := .other, feature? }) c
      (fun type c' => Changes s.digest known c c' ∧ type.IsTopLevel package ∧
        ∃ content, EnumContent.ofScalars s.digest .string (keys.map Json.string) actionEnumName =
            .ok content ∧
          ((∃ e, c'.enums.separate? type.key = some e ∧ e.constants = content.constants) ∨
            c.enums.table.get? type.key = some content.fingerprint ∧ c = c')) fun _ => True := by
  refine resolveSeparateEnum_outcome trivial fun values content hvalues hcontent => ?_
  have hkeys : values = keys.map Json.string :=
    (Option.some.inj (Option.filter_eq_some_iff.mp hvalues).1).symm
  have hscalars : EnumContent.ofScalars s.digest .string values actionEnumName = .ok content := by
    rcases hcontent with ⟨kind, hkind, h⟩ | ⟨shape, hkind, -⟩
    · cases hkind
      exact h
    · cases hkind
  have hdeclared : content.IsDeclaredBy s.digest (actionEnumNode keys) :=
    ⟨values, actionEnumName, hvalues, hcontent⟩
  rw [hkeys] at hscalars
  let site : Site := ⟨package, { role := .other, feature? }, actionEnumName⟩
  have hopen : Open outer site c := hroot.isOpen actionEnumName
  have hfound {name found : String}
      (hname : hintedName? (some actionEnumName) (actionEnumNode keys).info.title? = some name)
      (hfound : separateEnumName s c name content.fingerprint site = .ok found) :
      TypeName.IsPlain { package, name := found } :=
    ⟨hroot.package, hopen.beneath.isName_separateEnumName (isName_of_hintedName? hname) hfound,
      nofun⟩
  refine declareEnum_outcome trivial (fun _ _ _ hinline => by cases hinline) ?_ ?_
  · intro name found hname _ hname' henum
    exact ⟨.single (.newEnum _ hknown hdeclared (hfound hname hname')
        (separateEnumName_free hname') henum), ⟨rfl, rfl⟩, content, hscalars,
      .inl ⟨_, separate?_addEnum_self _ _, rfl⟩⟩
  · exact fun name found _ _ _ henum =>
      ⟨.refl, ⟨rfl, rfl⟩, content, hscalars, .inr ⟨henum, rfl⟩⟩

/-- The enum that has been resolved for an interface lists its methods from then on, unless the name
was taken before. -/
theorem listed_of_resolved (hdigest : Function.Injective s.digest) {c₁ c' : Catalog}
    (hc : Changes s.digest known {} c) (henum : Changes s.digest known c c₁)
    (hlater : Changes s.digest known c₁ c') {keys : List String} {content : EnumContent}
    (hcontent : EnumContent.ofScalars s.digest .string (keys.map Json.string) actionEnumName =
      .ok content) {i : ActionInterface} (hmethods : MethodsOf keys i.methods)
    (hplaced : (∃ e, c₁.enums.separate? i.actionEnum.key = some e ∧
        e.constants = content.constants) ∨
      c.enums.table.get? i.actionEnum.key = some content.fingerprint ∧ c = c₁) :
    i.ListedIn c' ∨
      c'.NestsNamed i.actionEnum.key ∧ c.enums.table.get? i.actionEnum.key ≠ none := by
  have hnamed := hc.named consistent_empty.toNamed
  have hconstants : content.constants =
      EnumContent.constantsFor (i.methods.map ActionMethod.constant)
        (i.methods.map fun method => .string method.jsonName) := by
    rw [EnumContent.constants_of_strings hcontent, hmethods.constants, hmethods.strings]
  rcases hplaced with ⟨e, he, hsame⟩ | ⟨hheld, rfl⟩
  · exact .inl ⟨e, hlater.separate_kept (henum.named hnamed) he, hsame.trans hconstants⟩
  · rcases constants_of_held hdigest hc hcontent hheld with ⟨e, he, hsame⟩ | hnested
    · exact .inl ⟨e, hlater.separate_kept hnamed he, hsame.trans hconstants⟩
    · exact .inr ⟨hnested.retained (hlater.retains hnamed),
        ne_of_eq_of_ne hheld (Option.some_ne_none _)⟩

/-- An interface stands from now on. Its enum is listed, unless the name was taken before. -/
theorem declareActions_stands (hclosed : ClosedUnderChildren known)
    (hactionEnum : ∀ keys, known (actionEnumNode keys)) {feature? : Option String}
    (hroot : AtRoot outer package { role := .other, feature? })
    {actions : OrderedMap String ActionAffordance} (hpayloads : PayloadsKnown known actions.entries)
    {owner : String} (howner : NameText owner) (hc : Changes s.digest known {} c) :
    Resolution.Outcome (declareActions s actions owner package feature?) c
      (fun i? c' => Changes s.digest known c c' ∧ (i? = none → c' = c) ∧
        ∀ i ∈ i?, i.package = package ∧
          i.Stands s.digest c' (c.enums.table.get? i.actionEnum.key ≠ none)) fun _ => True := by
  unfold declareActions
  split
  · exact .pure ⟨.refl, fun _ => rfl, fun i hi => absurd hi (Option.not_mem_none i)⟩
  · rename_i hactions
    dsimp only
    refine .bind (resolveActionEnum_changes hroot _ (hactionEnum _)) ?_
    rintro actionEnum c₁ ⟨henum, htop, content, hcontent, hplaced⟩
    refine .bind (actionMethods_changes hclosed hroot hpayloads) ?_
    rintro methods c₂ ⟨hmethods, hchanges⟩
    have hname : IsName (owner ++ "Actions") := .append howner ⟨by decide, by decide⟩
    have hnone : ∀ parent ∈ (none : Option String), NameText parent :=
      fun parent hmem => absurd hmem (Option.not_mem_none parent)
    have hne : actions.keys ≠ [] := by
      simpa [OrderedMap.isEmpty, OrderedMap.keys] using hactions
    refine .bind (claimCandidate_outcome (Q := fun claim? c' => ∀ claim ∈ claim?,
      Changes s.digest known c₂ c' ∧ IsName claim.name ∧
        c'.classes.table.get? ⟨package, claim.name⟩ =
          some (.ofMembers s.digest (interfaceMembers methods)))
      (fun claim hmem => absurd hmem (Option.not_mem_none claim)) ?_ ?_) ?_
    · rintro found _ hmem hheld _ ⟨⟩
      exact ⟨.refl, Identifier.isName_rule.of_mem_searchCandidates hname hnone hroot.feature hmem,
        hheld⟩
    · rintro found _ hmem hfree _ ⟨⟩
      have hplain := Identifier.isName_rule.of_mem_searchCandidates hname hnone hroot.feature hmem
      have htype : TypeName.IsPlain { package, name := found } :=
        ⟨hroot.package, hplain, fun owner howner => absurd howner (Option.not_mem_none owner)⟩
      exact ⟨.single (.hold _ htype hfree), hplain, (table_holdName ..).trans (if_pos rfl)⟩
    · rintro (_ | claim) c₃ h
      · exact .throw trivial
      · obtain ⟨hclaim, hplain, hheld⟩ := h claim rfl
        refine .pure ⟨(henum.trans hchanges).trans hclaim,
          fun h => absurd h (Option.some_ne_none _), ?_⟩
        rintro _ ⟨⟩
        exact ⟨rfl, ⟨actions.keys, hne, actions.nodup, hmethods⟩, hplain, hheld, htop,
          fun hdigest => listed_of_resolved hdigest hc henum (hchanges.trans hclaim) hcontent
            hmethods hplaced⟩

end Assembly

end ThingTypes
