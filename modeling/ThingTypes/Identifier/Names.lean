import ThingTypes.Identifier.Words
import ThingTypes.Unicode.CaseMapping

/-
  Names of generated declarations. Each kind of declaration spells the words of an identifier its
  own way: classes `BatteryLevel`, properties `batteryLevel`, constants `BATTERY_LEVEL`, package
  segments `batterylevel`. Reserved words and leading digits are set off by an underscore or, in
  constants, by a marker.
-/

namespace ThingTypes.Identifier

/-- The hard keywords of the target language, which cannot name anything. -/
def reservedWords : List String := [
  "as", "break", "class", "continue", "do", "else", "false", "for", "fun", "if", "in",
  "interface", "is", "null", "object", "package", "return", "super", "this", "throw", "true",
  "try", "typealias", "typeof", "val", "var", "when", "while"]

def isReserved (name : String) : Bool :=
  reservedWords.contains name

/-- Put before a constant that would start with a digit. -/
def constantMarker : String := "VALUE_"

/-- The first character in upper case, the others in lower case. -/
def capitalize : List Char → List Char
  | [] => []
  | c :: cs => Unicode.toUpper c ++ cs.flatMap Unicode.toLower

def classChars (cs : List Char) : List Char :=
  (words cs).flatMap capitalize

/-- The words of a text, capitalised and joined. -/
def className (s : String) : String :=
  String.ofList (classChars s.toList)

def startsWithDigit (cs : List Char) : Bool :=
  cs.head?.any Char.isDigit

/-- Sets a reserved word or a leading digit off by an underscore. -/
def guarded (cs : List Char) : List Char :=
  if isReserved (String.ofList cs) || startsWithDigit cs then '_' :: cs else cs

/-- The class name with its first character in lower case. -/
def propertyName (s : String) : String :=
  match classChars s.toList with
  | [] => "_value"
  | c :: cs => String.ofList (guarded (Unicode.toLower c ++ cs))

/-- The words in upper case, joined by underscores. -/
def constantName (s : String) : String :=
  let name := ['_'].intercalate ((words s.toList).map Unicode.uppercase)
  if name.isEmpty then "VALUE"
  else if startsWithDigit name then constantMarker ++ String.ofList name
  else String.ofList name

/-- Whether a character may stand in a package segment, before it is made lower case. -/
def isSegmentChar (c : Char) : Bool :=
  c.isAlphanum || c = '_'

def packageSegment (s : String) : String :=
  let segment := (s.toList.filter isSegmentChar).map Char.toLower
  if segment.isEmpty then "feature" else String.ofList (guarded segment)

end ThingTypes.Identifier
