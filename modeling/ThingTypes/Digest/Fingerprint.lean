import ThingTypes.Digest.Sha256
import ThingTypes.Json.Text

/-
  Fingerprints: two things of one name are the same type exactly when their fingerprints agree. A
  fingerprint is the digest of a description that does not depend on incidental order. Which
  digest is used is a parameter of everything that compares structures; `Digest.sha256` is the
  one that programs run with.
-/

namespace ThingTypes

structure Fingerprint where
  digits : String
deriving Repr, DecidableEq, Inhabited

/-- A way of turning a description into a fingerprint. -/
abbrev Digest := String → Fingerprint

def Digest.sha256 : Digest := fun text => ⟨Sha256.hexDigest text⟩

namespace Fingerprint

/-- The first twelve digits. -/
def short (f : Fingerprint) : String :=
  String.ofList (f.digits.toList.take 12)

/-- The description of a value: its canonical text. -/
def ofJson (digest : Digest) (j : Json) : Fingerprint :=
  digest j.canonical

/-- The description of a list of members, each a name and a type: sorted and joined. -/
def memberText (members : List (String × String)) : String :=
  ";".intercalate (sortBy textLE (members.map fun (name, type) => name ++ ":" ++ type))

def ofMembers (digest : Digest) (members : List (String × String)) : Fingerprint :=
  digest (memberText members)

end Fingerprint

end ThingTypes
