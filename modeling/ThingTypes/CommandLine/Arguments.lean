import ThingTypes.Settings.Basic

/-
  The arguments of the command line. An option with a value takes it from the same argument, behind
  `=` or right behind its letter, or from the next argument unless that looks like an option. No
  option may be given twice, and after `--` nothing is an option.
-/

namespace ThingTypes

structure Arguments where
  /-- The file of the Thing Model. -/
  model : String
  package? : Option String := none
  output? : Option String := none
  config? : Option String := none
  enumPlacement? : Option EnumPlacement := none
  classNaming? : Option Identifier.ClassNaming := none
  dsl : Bool := false
  suspendDsl : Bool := false
  strictReferences : Bool := false
deriving Repr, DecidableEq, Inhabited

/-- Why arguments are not run. -/
inductive UsageFault where
  | helpWanted
  | unknownOption (argument : String)
  | missingValue (option : String)
  | unwantedValue (option : String)
  | invalidValue (option value : String)
  | repeated (option : String)
  | unexpected (argument : String)
  | missingModel
deriving Repr, DecidableEq, Inhabited

def UsageFault.message : UsageFault → String
  | helpWanted => "help wanted"
  | unknownOption argument => s!"unexpected argument '{argument}' found"
  | missingValue option => s!"a value is required for '--{option}' but none was supplied"
  | unwantedValue option => s!"unexpected value for '--{option}' found"
  | invalidValue option value => s!"invalid value '{value}' for '{option}'"
  | repeated option => s!"the argument '--{option}' cannot be used multiple times"
  | unexpected argument => s!"unexpected argument '{argument}' found"
  | missingModel => "the following required arguments were not provided: <MODEL>"

namespace Arguments

/-- The options that take a value. -/
inductive ValueOption where
  | package
  | output
  | config
  | enumPlacement
  | classNaming
deriving Repr, DecidableEq

/-- The options that stand alone. -/
inductive Flag where
  | dsl
  | suspendDsl
  | strictReferences
  | help
deriving Repr, DecidableEq

def valueOptions : List (String × ValueOption) := [
  ("package", .package), ("output", .output), ("config", .config),
  ("enum-placement", .enumPlacement), ("class-naming", .classNaming)]

def flags : List (String × Flag) := [
  ("dsl", .dsl), ("suspend-dsl", .suspendDsl), ("strict-references", .strictReferences),
  ("help", .help)]

/-- The options that have a letter. -/
def letters : List (Char × ValueOption) :=
  [('p', .package), ('o', .output), ('c', .config)]

def ValueOption.name : ValueOption → String
  | package => "package"
  | output => "output"
  | config => "config"
  | enumPlacement => "enum-placement"
  | classNaming => "class-naming"

/-- What has been given so far. -/
structure Given where
  model? : Option String := none
  package? : Option String := none
  output? : Option String := none
  config? : Option String := none
  enumPlacement? : Option EnumPlacement := none
  classNaming? : Option Identifier.ClassNaming := none
  flags : List Flag := []
deriving Inhabited

/-- Stores a value once. -/
def once {α : Type} (option : String) (old? : Option α) (value : α) :
    Except UsageFault (Option α) :=
  match old? with
  | none => .ok (some value)
  | some _ => .error (.repeated option)

/-- A path, which must not be empty. -/
def pathValue (option value : String) : Except UsageFault String :=
  if value.isEmpty then .error (.invalidValue option value) else .ok value

/-- A choice between names. -/
def choiceValue {α : Type} (option : String) (options : List (String × α)) (value : String) :
    Except UsageFault α :=
  match Entries.get? value options with
  | some a => .ok a
  | none => .error (.invalidValue option value)

def Given.setValue (g : Given) (option : ValueOption) (value : String) : Except UsageFault Given :=
  let name := option.name
  match option with
  | .package => do return { g with package? := ← once name g.package? value }
  | .output => do return { g with output? := ← once name g.output? (← pathValue name value) }
  | .config => do return { g with config? := ← once name g.config? (← pathValue name value) }
  | .enumPlacement => do
    let placement ← choiceValue name EnumPlacement.names value
    return { g with enumPlacement? := ← once name g.enumPlacement? placement }
  | .classNaming => do
    let naming ← choiceValue name Identifier.ClassNaming.names value
    return { g with classNaming? := ← once name g.classNaming? naming }

def Given.setFlag (g : Given) (name : String) (flag : Flag) : Except UsageFault Given :=
  if flag = .help then .error .helpWanted
  else if g.flags.contains flag then .error (.repeated name)
  else .ok { g with flags := g.flags ++ [flag] }

def Given.addModel (g : Given) (argument : String) : Except UsageFault Given :=
  match g.model? with
  | some _ => .error (.unexpected argument)
  | none => do return { g with model? := some (← pathValue "<MODEL>" argument) }

/-- The form of an argument. -/
inductive Form where
  /-- `--` alone. -/
  | separator
  | long (name : String) (value? : Option String)
  /-- A letter behind a dash, and what follows it. -/
  | short (letter : Char) (rest : List Char)
  | plain

def form (argument : String) : Form :=
  match argument.toList with
  | ['-', '-'] => .separator
  | '-' :: '-' :: cs =>
    let (name, rest) := cs.span (· != '=')
    .long (String.ofList name) (rest.tail?.map String.ofList)
  | '-' :: letter :: rest => .short letter rest
  | _ => .plain

/-- What an argument makes of those before it: what has been given, and the option that still waits
for its value. -/
abbrev Step := Except UsageFault (Given × Option ValueOption)

def longStep (g : Given) (argument name : String) (value? : Option String) : Step :=
  match Entries.get? name valueOptions, Entries.get? name flags, value? with
  | some option, _, some value => do return (← g.setValue option value, none)
  | some option, _, none => .ok (g, some option)
  | none, some flag, none => do return (← g.setFlag name flag, none)
  | none, some _, some _ => .error (.unwantedValue name)
  | none, none, _ => .error (.unknownOption argument)

def shortStep (g : Given) (argument : String) (letter : Char) (rest : List Char) : Step :=
  match Entries.get? letter letters with
  | some option =>
    match rest with
    | [] => .ok (g, some option)
    | '=' :: value => do return (← g.setValue option (String.ofList value), none)
    | value => do return (← g.setValue option (String.ofList value), none)
  | none => if letter = 'h' then .error .helpWanted else .error (.unknownOption argument)

/-- Reads arguments behind `--`. -/
def readPlain (g : Given) : List String → Except UsageFault Given
  | [] => .ok g
  | argument :: rest => do
    let g ← g.addModel argument
    readPlain g rest

/-- Reads arguments. An option that waits for its value takes the next argument, if that is
plain. -/
def read (g : Given) (waiting? : Option ValueOption) : List String → Except UsageFault Given
  | [] =>
    match waiting? with
    | some option => .error (.missingValue option.name)
    | none => .ok g
  | argument :: rest =>
    match waiting?, form argument with
    | some option, .plain => do
      let g ← g.setValue option argument
      read g none rest
    | some option, _ => .error (.missingValue option.name)
    | none, .plain => do
      let g ← g.addModel argument
      read g none rest
    | none, .separator => readPlain g rest
    | none, .long name value? => do
      let (g, waiting?) ← longStep g argument name value?
      read g waiting? rest
    | none, .short letter letters => do
      let (g, waiting?) ← shortStep g argument letter letters
      read g waiting? rest

def parse (arguments : List String) : Except UsageFault Arguments := do
  let g ← read {} none arguments
  match g.model? with
  | none => throw .missingModel
  | some model =>
    return {
      model
      package? := g.package?
      output? := g.output?
      config? := g.config?
      enumPlacement? := g.enumPlacement?
      classNaming? := g.classNaming?
      dsl := g.flags.contains .dsl
      suspendDsl := g.flags.contains .suspendDsl
      strictReferences := g.flags.contains .strictReferences }

/-- The settings with the arguments over them. Suspending builders are builders. -/
def applyTo (a : Arguments) (s : Settings) : Settings where
  generation := {
    s.generation with
    enumPlacement := a.enumPlacement?.getD s.generation.enumPlacement
    classNaming := a.classNaming?.getD s.generation.classNaming
    dslBuilders := s.generation.dslBuilders || a.dsl || a.suspendDsl
    suspendBuilders := s.generation.suspendBuilders || a.suspendDsl
    strictReferences := s.generation.strictReferences || a.strictReferences }
  output := {
    directory := a.output?.getD s.output.directory
    package? := a.package?.or s.output.package? }

end Arguments

end ThingTypes
