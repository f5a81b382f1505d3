import Mathlib.Data.Set.Function
import ThingTypes.Proofs.Resolution.Labels
import ThingTypes.Proofs.TypeGraph.Signatures

/-
  Aliases that are shared. A request for an alias may be answered with one that is there already.
  The fingerprints of the two are then the same, and with them the descriptions, which are the
  signatures of the targets. So the alias has the target that was asked for, as far as signatures
  tell types apart.
-/

namespace ThingTypes.Resolution

open Fingerprint

variable {a b : TypeRef}

/-- Aliases of one fingerprint have targets of one signature, if the digest tells the two apart. -/
theorem signature_eq_of_alias_fingerprint {digest : Digest}
    (hdigest : Set.InjOn digest {memberText (aliasMembers a), memberText (aliasMembers b)})
    (h : ofMembers digest (aliasMembers a) = ofMembers digest (aliasMembers b)) :
    a.signature = b.signature := by
  have htext := hdigest (Set.mem_insert _ _) (Set.mem_insert_of_mem _ rfl) h
  rw [memberText_aliasMembers, memberText_aliasMembers] at htext
  exact (String.append_right_inj _).mp htext

/-- An alias that was there before and is the answer to a request has a target of the signature
that was asked for. -/
theorem signature_eq_of_reused {s : ResolutionSettings} {name : String} {parent : TypeName}
    {site : Site} {c : Catalog} (hc : c.WellFormed s.digest) :
    Outcome (declareAlias s name b parent site) c
      (fun type _ => ∀ held, c.classes.alias? type.key = some held →
        Set.InjOn s.digest
          {memberText (aliasMembers held.target), memberText (aliasMembers b)} →
        held.target.signature = b.signature)
      fun _ => True := by
  refine declareAlias_outcome trivial ?_ ?_
  · intro type _ htable held hheld hdigest
    have hlabel := (hc.alias_held hheld).2
    rw [htable, Option.some.injEq, hc.alias_label hheld] at hlabel
    exact signature_eq_of_alias_fingerprint hdigest hlabel.symm
  · -- a free name is not that of an alias
    intro type _ hfree held hheld _
    rw [hc.alias?_of_free hfree.1] at hheld
    cases hheld

/-- The signatures of types whose names can be read back are the same only for the same type; so an
alias that is shared has the target that was asked for. -/
theorem signatures_identify (ha : a.Readable) (hb : b.Readable) :
    (a.signature = b.signature ↔ a = b) ∧
      ∀ {s : ResolutionSettings} {name : String} {parent type : TypeName} {site : Site}
        {st st' : ResolutionState} {held : AliasDecl}, st.catalog.WellFormed s.digest →
        declareAlias s name b parent site st = .ok type st' →
        st.catalog.classes.alias? type.key = some held → held.target = a →
        Set.InjOn s.digest {memberText (aliasMembers a), memberText (aliasMembers b)} →
        a = b := by
  refine ⟨TypeRef.signature_eq_iff ha hb, ?_⟩
  rintro s name parent type site st st' held hst hrun hheld rfl hdigest
  have hsignature := (signature_eq_of_reused hst).of_ok hrun held hheld hdigest
  exact (TypeRef.signature_eq_iff ha hb).mp hsignature

/-- An enum inside the class `Lamp`, and one in a package of that name. -/
def lampModes : TypeRef × TypeRef :=
  (.list (.enumType { package := "p", name := "Mode", owner? := some "Lamp" }),
    .list (.enumType { package := "p.lamp", name := "Mode" }))

/-- A request for an alias of the first one. -/
def modesRequest : ResolveM TypeName :=
  declareAlias { digest := plainDigest } "modes" lampModes.1 { package := "p", name := "Light" }
    { package := "p", context := .root, path := "#" }

/-- The two enums have signatures of their own, and a second request is answered with the alias of
the first. -/
theorem signatures_identify_modes :
    lampModes.1.Readable ∧ lampModes.2.Readable ∧
      lampModes.1.signature ≠ lampModes.2.signature ∧
      ∃ type st st' held, modesRequest {} = .ok type st ∧ modesRequest st = .ok type st' ∧
        st.catalog.classes.alias? type.key = some held ∧ held.target = lampModes.1 := by
  have hmode : IsTypeWord "Mode".toList := ⟨'M', "ode".toList, rfl, rfl,
    List.all_eq_true.mp (by decide)⟩
  have hlamp : IsTypeWord "Lamp".toList := ⟨'L', "amp".toList, rfl, rfl,
    List.all_eq_true.mp (by decide)⟩
  have hnested : lampModes.1.Readable := by
    rintro _ ⟨⟩
    refine ⟨by decide, hmode, ?_⟩
    rintro _ ⟨⟩
    exact hlamp
  have hpackaged : lampModes.2.Readable := by
    rintro _ ⟨⟩
    exact ⟨by decide, hmode, nofun⟩
  refine ⟨hnested, hpackaged, fun h => ?_, ?_⟩
  · exact absurd ((signatures_identify hnested hpackaged).1.mp h) (by decide)
  · obtain ⟨type, st, hfirst⟩ : ∃ type st, modesRequest {} = .ok type st := ⟨_, _, rfl⟩
    obtain ⟨st', hsecond⟩ : ∃ st', modesRequest st = .ok type st' := by
      cases hfirst
      exact ⟨_, rfl⟩
    obtain ⟨held, hheld, hreadable⟩ : ∃ held, st.catalog.classes.alias? type.key = some held ∧
        held.target.Readable := by
      cases hfirst
      exact ⟨_, rfl, hnested⟩
    have hgrows := (declareAlias_growing "modes" lampModes.1 _ {}).of_ok hfirst
    have htarget : held.target = lampModes.1 :=
      (signatures_identify hreadable hnested).2
        (hgrows.wellFormed (Catalog.wellFormed_empty plainDigest)) hsecond hheld rfl
        plainDigest_injective.injOn
    exact ⟨type, st, st', held, hfirst, hsecond, hheld, htarget⟩

end ThingTypes.Resolution
