import ThingTypes.Identifier.Names

/-
  Choosing among names. A nested class may carry the name of its parent in front, which
  `compoundName` adds unless the name mentions the parent already. `deriveName` picks a name under
  a naming policy; `conflictCandidates` lists what to try when that name is held by something else.
-/

namespace ThingTypes.Identifier

/-- How a nested class is named relative to its parent. -/
inductive ClassNaming where
  /-- Always parent and name together, unless the name contains the parent. -/
  | alwaysCompound
  /-- The name alone while it is free, together with the parent once it is taken. -/
  | compoundWhenTaken
deriving Repr, DecidableEq, Inhabited

/-- The last resort in front of a name that others hold. -/
def sharedName : String := "Shared"

/-- Whether `name` contains `part`, letter case aside. -/
def mentions (name part : String) : Bool :=
  Text.occursIn (Unicode.lowercase part.toList) (Unicode.lowercase name.toList)

/-- The name with its parent in front, unless there is none or the name mentions it. -/
def compoundName (parent? : Option String) (name : String) : String :=
  match parent? with
  | some parent => if parent.isEmpty || mentions name parent then name else parent ++ name
  | none => name

/-- The name followed by 2, 3, ..., `count` numbers in all. -/
def numbered (name : String) (count : Nat) : List String :=
  (List.range count).map fun i => name ++ toString (i + 2)

/-- The name of a class under a policy. `taken` lists the names that something else holds; only
the policy that starts with the name alone looks at them. -/
def deriveName (policy : ClassNaming) (name : String) (parent? : Option String)
    (taken : List String) : String :=
  match policy with
  | .alwaysCompound => compoundName parent? name
  | .compoundWhenTaken =>
    if !taken.contains name then name
    else
      let compound := compoundName parent? name
      if compound != name then compound
      else ((numbered name (taken.length + 1)).find? (!taken.contains ·)).getD name

/-- The candidates before the numbered ones, each once: the name, then behind its parent, its
feature and the shared name. -/
def namedCandidates (name : String) (parent? feature? : Option String) : List String :=
  [name, compoundName parent? name, compoundName feature? name,
    compoundName (some sharedName) name].eraseDups

/-- The first `count` names to try for something whose name may be held by something else. The
list goes on for ever: after the named candidates come numbered shared names. -/
def conflictCandidates (name : String) (parent? feature? : Option String) (count : Nat) :
    List String :=
  let named := namedCandidates name parent? feature?
  (named ++ numbered (compoundName (some sharedName) name) (count - named.length)).take count

/-- As many candidates as a search can need: among one more than there are named candidates and
taken names, one is free. -/
def searchCandidates (name : String) (parent? feature? : Option String) (taken : List String) :
    List String :=
  conflictCandidates name parent? feature?
    ((namedCandidates name parent? feature?).length + taken.length + 1)

/-- The first candidate that is not taken. -/
def firstFree? (name : String) (parent? feature? : Option String) (taken : List String) :
    Option String :=
  (searchCandidates name parent? feature? taken).find? (!taken.contains ·)

end ThingTypes.Identifier
