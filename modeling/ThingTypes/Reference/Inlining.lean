import ThingTypes.Reference.Marker

/-
  Inlining references. A pass finds all sites of a document, fetches the fragment of each against
  the document as it stands at the start of the pass, and then puts the fragments in place one
  after the other. Fragments may bring references of their own, so passes repeat until none are
  left or the limit is reached.

  Loading is an effect of an arbitrary monad: a program loads files, a pure run looks documents
  up. Loaded documents are kept, so each is asked for once.
-/

namespace ThingTypes

/-- A way to load the document at a location. -/
abbrev Loader (m : Type → Type) := String → m (Except LoadFault Json)

/-- Serves documents that are given up front. -/
def Loader.ofDocuments {m : Type → Type} [Monad m] (documents : List (String × Json)) : Loader m :=
  fun location =>
    pure <| match Entries.get? location documents with
      | some document => .ok document
      | none => .error .unknownDocument

/-- Notes every location that is asked for, those that fail too. -/
def Loader.logged {m : Type → Type} [Monad m] (load : Loader m) : Loader (StateT (List String) m) :=
  fun location => do
    modify (· ++ [location])
    load location

structure InliningSettings where
  /-- Whether a reference that resolves to nothing is an error; otherwise its marker is dropped. -/
  strict : Bool := false
  maxPasses : Nat := 16
deriving Repr, DecidableEq

/-- The documents that references have been taken from, by location. -/
abbrev DocumentCache := OrderedMap String Json

/-- Inlining may fail, and keeps what it has loaded either way. -/
abbrev InlineM (m : Type → Type) := ExceptT GenerationError (StateT DocumentCache m)

variable {m : Type → Type} [Monad m]

/-- Loads a document, with the failure as a generation error. -/
def loadDocument (load : Loader m) (location : String) : InlineM m Json := do
  match ← (load location : m (Except LoadFault Json)) with
  | .ok document => return document
  | .error fault => throw (.load location fault)

namespace Reference

/-- The referenced document, from the cache if it is there. -/
def cachedDocument (load : Loader m) (location : String) : InlineM m Json := do
  let cache ← get
  match cache.get? location with
  | some document => return document
  | none =>
    let document ← loadDocument load location
    modify (·.insert location document)
    return document

/-- The fragment that a reference in the document at `base` designates, or `none` if its pointer
designates nothing. The references of a fragment from another document are changed to stand in this
one. -/
def fetch (load : Loader m) (base : String) (current : Json) (r : ModelReference) :
    InlineM m (Option Json) := do
  match r.document? with
  | none => return current.pointer? r.pointer
  | some document =>
    let location := Location.resolve base document
    let source ← cachedDocument load location
    let fragment? := source.pointer? r.pointer
    return if location = base then fragment? else fragment?.map (Json.rebased location base)

/-- Puts a fragment in the place of a site. Without a fragment the marker is dropped, or the run
fails if it is strict. -/
def splice (strict : Bool) (location : String) (document : Json)
    (site : ReferenceSite) (fragment? : Option Json) : Except GenerationError Json := do
  let unresolved := GenerationError.unresolvedReference site.reference location
  let some target := document.pointer? site.parentPath | throw unresolved
  let part ← match fragment? with
    | some fragment => pure fragment
    | none => if strict then throw unresolved else pure target.withoutMarker
  match document.replace? site.parentPath part with
  | some changed => return changed
  | none => throw unresolved

def spliceAll (strict : Bool) (location : String) (document : Json) :
    List (ReferenceSite × Option Json) → Except GenerationError Json
  | [] => .ok document
  | (site, fragment?) :: rest =>
    match splice strict location document site fragment? with
    | .ok changed => spliceAll strict location changed rest
    | .error e => .error e

/-- The fragments of the sites, each fetched against the same document. -/
def fetchAll (load : Loader m) (location : String) (document : Json) :
    List ReferenceSite → InlineM m (List (ReferenceSite × Option Json))
  | [] => return []
  | site :: rest => do
    let r ← liftExcept (ModelReference.ofText site.reference)
    let fragment? ← fetch load location document r
    let others ← fetchAll load location document rest
    return (site, fragment?) :: others

/-- Passes over a document, at most `remaining` of them. -/
def inlinePasses (load : Loader m) (settings : InliningSettings) (location : String) :
    Nat → Json → InlineM m Json
  | remaining, document => do
    match document.referenceSites with
    | [] => return document
    | first :: rest =>
      match remaining with
      | 0 =>
        throw (.referenceDepthExceeded (location ++ "#" ++ first.parentPath) settings.maxPasses)
      | remaining + 1 =>
        let fragments ← fetchAll load location document (first :: rest)
        let changed ← liftExcept (spliceAll settings.strict location document fragments)
        inlinePasses load settings location remaining changed

end Reference

/-- The document with every reference inlined. -/
def inlineReferences (load : Loader m) (settings : InliningSettings) (location : String)
    (document : Json) : InlineM m Json :=
  Reference.inlinePasses load settings location settings.maxPasses document

end ThingTypes
