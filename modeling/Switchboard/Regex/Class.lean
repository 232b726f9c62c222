import Switchboard.Text.Property
import Switchboard.Text.Script
import Switchboard.Text.CaseVariant
/-!
# Character classes

A character class says of every character whether it belongs to it. Classes are built from ranges
and named properties by the set operations, and can be closed under change of case
(`CharClass.anyCase`).
-/

namespace Switchboard

/-- A property that a pattern can name. -/
inductive CharProperty where
  /-- The general category is one of these. -/
  | category (names : List String)
  /-- The script, by its four letters. -/
  | script (name : String)
  | blank
  | wordChar
  | alphabetic
  | upperCase
  | lowerCase
deriving DecidableEq, Repr

/-- The character has the property. -/
def CharProperty.holds : CharProperty → Char → Bool
  | category names, c => hasCategory names c
  | script name, c => Script.ofChar c = name
  | blank, c => isBlank c
  | wordChar, c => isWordChar c
  | alphabetic, c => isAlphabetic c
  | upperCase, c => isUpperCase c
  | lowerCase, c => isLowerCase c

/-- A set of characters. -/
inductive CharClass where
  /-- No character. -/
  | none
  /-- The characters between two, ends included. -/
  | range (low high : Char)
  | property (p : CharProperty)
  | union (a b : CharClass)
  | both (a b : CharClass)
  | without (a b : CharClass)
  /-- The characters of exactly one of the two. -/
  | either (a b : CharClass)
  | complement (a : CharClass)
  /-- The characters of a class and their case variants; only the ASCII ones if `ascii` says so. -/
  | anyCase (ascii : Bool) (a : CharClass)
deriving Repr

namespace CharClass

/-- The class of one character. -/
def single (c : Char) : CharClass := range c c

/-- The class of all characters. -/
def all : CharClass := complement none

/-- The character is an ASCII character. -/
def isAscii (c : Char) : Bool := c.toNat < 128

/-- The character belongs to the class. -/
def contains : CharClass → Char → Bool
  | none, _ => false
  | range low high, c => low ≤ c && c ≤ high
  | property p, c => p.holds c
  | union a b, c => a.contains c || b.contains c
  | both a b, c => a.contains c && b.contains c
  | without a b, c => a.contains c && !b.contains c
  | either a b, c => a.contains c != b.contains c
  | complement a, c => !a.contains c
  | anyCase ascii a, c =>
    a.contains c || (caseVariants c).any fun d =>
      (!ascii || (isAscii c && isAscii d)) && a.contains d

/-- The union of several ranges. -/
def ofRanges (ranges : List (Char × Char)) : CharClass :=
  ranges.foldl (fun a (low, high) => union a (range low high)) none

/-! ## Named classes -/

/-- The general categories and their groups, by their long and short names in lower case and
without separators. -/
def categoryNames : List (String × List String) :=
  let letter := ["Lu", "Ll", "Lt", "Lm", "Lo"]
  let mark := ["Mn", "Mc", "Me"]
  let number := ["Nd", "Nl", "No"]
  let punctuation := ["Pc", "Pd", "Ps", "Pe", "Pi", "Pf", "Po"]
  let symbol := ["Sm", "Sc", "Sk", "So"]
  let separator := ["Zs", "Zl", "Zp"]
  let other := ["Cc", "Cf", "Co", "Cn", "Cs"]
  let cased := ["Lu", "Ll", "Lt"]
  [("l", letter), ("letter", letter), ("lc", cased), ("casedletter", cased),
    ("lu", ["Lu"]), ("uppercaseletter", ["Lu"]), ("ll", ["Ll"]), ("lowercaseletter", ["Ll"]),
    ("lt", ["Lt"]), ("titlecaseletter", ["Lt"]), ("lm", ["Lm"]), ("modifierletter", ["Lm"]),
    ("lo", ["Lo"]), ("otherletter", ["Lo"]),
    ("m", mark), ("mark", mark), ("combiningmark", mark),
    ("mn", ["Mn"]), ("nonspacingmark", ["Mn"]), ("mc", ["Mc"]), ("spacingmark", ["Mc"]),
    ("me", ["Me"]), ("enclosingmark", ["Me"]),
    ("n", number), ("number", number), ("nd", ["Nd"]), ("decimalnumber", ["Nd"]),
    ("digit", ["Nd"]), ("nl", ["Nl"]), ("letternumber", ["Nl"]), ("no", ["No"]),
    ("othernumber", ["No"]),
    ("p", punctuation), ("punctuation", punctuation), ("punct", punctuation),
    ("pc", ["Pc"]), ("connectorpunctuation", ["Pc"]), ("pd", ["Pd"]), ("dashpunctuation", ["Pd"]),
    ("ps", ["Ps"]), ("openpunctuation", ["Ps"]), ("pe", ["Pe"]), ("closepunctuation", ["Pe"]),
    ("pi", ["Pi"]), ("initialpunctuation", ["Pi"]), ("pf", ["Pf"]), ("finalpunctuation", ["Pf"]),
    ("po", ["Po"]), ("otherpunctuation", ["Po"]),
    ("s", symbol), ("symbol", symbol), ("sm", ["Sm"]), ("mathsymbol", ["Sm"]),
    ("sc", ["Sc"]), ("currencysymbol", ["Sc"]), ("sk", ["Sk"]), ("modifiersymbol", ["Sk"]),
    ("so", ["So"]), ("othersymbol", ["So"]),
    ("z", separator), ("separator", separator), ("zs", ["Zs"]), ("spaceseparator", ["Zs"]),
    ("zl", ["Zl"]), ("lineseparator", ["Zl"]), ("zp", ["Zp"]), ("paragraphseparator", ["Zp"]),
    ("c", other), ("other", other), ("cc", ["Cc"]), ("control", ["Cc"]), ("cntrl", ["Cc"]),
    ("cf", ["Cf"]), ("format", ["Cf"]), ("co", ["Co"]), ("privateuse", ["Co"]),
    ("cn", ["Cn"]), ("unassigned", ["Cn"])]

/-- A name in lower case, without separators and without a leading `is`. -/
def normalName (name : List Char) : String :=
  let kept := (name.filter fun c => c != ' ' && c != '_' && c != '-' && isAscii c).map Char.toLower
  match kept with
  | 'i' :: 's' :: rest => if rest = ['c'] then "isc" else String.ofList rest
  | _ => String.ofList kept

/-- The properties that are neither categories nor scripts. -/
def propertyNames : List (String × CharClass) :=
  [("alphabetic", property .alphabetic), ("alpha", property .alphabetic),
    ("uppercase", property .upperCase), ("upper", property .upperCase),
    ("lowercase", property .lowerCase), ("lower", property .lowerCase),
    ("whitespace", property .blank), ("wspace", property .blank), ("space", property .blank),
    ("any", all), ("assigned", complement (property (.category ["Cn"]))),
    ("ascii", range '\x00' '\x7f'),
    ("asciihexdigit", ofRanges [('0', '9'), ('A', 'F'), ('a', 'f')]),
    ("ahex", ofRanges [('0', '9'), ('A', 'F'), ('a', 'f')])]

/-- The category of the given name. -/
def category? (name : String) : Option CharClass :=
  (categoryNames.lookup name).map fun names => property (.category names)

/-- The script of the given name, which may be its four letters. -/
def script? (name : String) : Option CharClass :=
  match Script.names.lookup name with
  | some short => some (property (.script short))
  | Option.none =>
    (Script.names.find? fun entry => entry.2.toLower = name).map fun entry =>
      property (.script entry.2)

/-- The class that a name in braces stands for: a property, a category or a script, or one of the
latter two with its kind in front. -/
def named? (name : List Char) : Option CharClass :=
  let kind := name.takeWhile fun c => c != '=' && c != ':' && c != '!'
  let normal := normalName name
  match name.dropWhile fun c => c != '=' && c != ':' && c != '!' with
  | [] =>
    match propertyNames.lookup normal with
    | some a => some a
    | Option.none =>
      match category? normal with
      | some a => some a
      | Option.none => script? normal
  | '!' :: '=' :: value => (valued? (normalName kind) (normalName value)).map complement
  | '!' :: _ => Option.none
  | _ :: value => valued? (normalName kind) (normalName value)
where
  /-- The class of a property with a value. -/
  valued? (kind value : String) : Option CharClass :=
    if kind = "gc" ∨ kind = "generalcategory" then category? value
    else if kind = "sc" ∨ kind = "script" then script? value
    else Option.none

/-- The classes that stand between colons in brackets; they hold ASCII characters only. -/
def posix? (name : String) : Option CharClass :=
  let digit := ('0', '9')
  let upper := ('A', 'Z')
  let lower := ('a', 'z')
  let table : List (String × List (Char × Char)) :=
    [("alnum", [digit, upper, lower]), ("alpha", [upper, lower]), ("ascii", [('\x00', '\x7f')]),
      ("blank", [('\t', '\t'), (' ', ' ')]), ("cntrl", [('\x00', '\x1f'), ('\x7f', '\x7f')]),
      ("digit", [digit]), ("graph", [('!', '~')]), ("lower", [lower]), ("print", [(' ', '~')]),
      ("punct", [('!', '/'), (':', '@'), ('[', '\x60'), ('\x7b', '~')]),
      ("space", [('\t', '\t'), ('\n', '\n'), ('\x0b', '\x0b'), ('\x0c', '\x0c'), ('\r', '\r'),
        (' ', ' ')]),
      ("upper", [upper]), ("word", [digit, upper, lower, ('_', '_')]),
      ("xdigit", [digit, ('A', 'F'), ('a', 'f')])]
  (table.lookup name).map ofRanges

end CharClass

end Switchboard
