import Switchboard.Regex.Basic
/-!
# Reading patterns

The text of a pattern becomes a regular expression, or is refused. Beside literals, classes,
groups, alternatives and repetitions a pattern may hold flags, for the rest of a group or for a
group of their own: `i` ignores case, `m` lets anchors match at lines, `s` lets the point match a
line feed, `x` allows blanks and comments, `R` lets a carriage return end a line, `u` switches
Unicode, and `U`, which only changes which match is preferred. Look-around and back-references are
refused, and so are a group name given twice and a range that runs backwards.

The reader goes forward only; every function answers what it read together with the state behind
it. The fuel is an upper bound for the number of calls: each group, class and item takes at least
one character.
-/

namespace Switchboard.Regex

/-- What the flags of a pattern are at some place. -/
structure Flags where
  ignoreCase : Bool
  multiLine : Bool
  dotAll : Bool
  verbose : Bool
  unicode : Bool
  anyLine : Bool

/-- No flag is set, but Unicode is on. -/
def Flags.initial : Flags := ⟨false, false, false, false, true, false⟩

/-- What is left of a pattern, the flags, and the group names so far. -/
structure Source where
  rest : List Char
  flags : Flags
  names : List (List Char)

/-- Reads something from the front of a pattern. -/
abbrev Reader := StateT Source Option

/-- The pattern is refused. -/
def refuse {α : Type} : Reader α := fun _ => none

/-- The characters that are left. -/
def rest : Reader (List Char) := return (← get).rest

/-- Goes on behind what was read. -/
def goTo (cs : List Char) : Reader Unit := modify fun s => { s with rest := cs }

/-- Skips blanks, and comments up to the end of their line. -/
def skipVerbose : Bool → List Char → List Char
  | _, [] => []
  | true, c :: cs => if c = '\n' then skipVerbose false cs else skipVerbose true cs
  | false, c :: cs =>
    if isBlank c then skipVerbose false cs
    else if c = '#' then skipVerbose true cs
    else c :: cs

/-- Skips blanks and comments where the flags allow them. -/
def skip : Reader Unit := do
  let s ← get
  if s.flags.verbose then goTo (skipVerbose false s.rest)

/-- Reads the next character, whatever it is. -/
def next : Reader Char := do
  match ← rest with
  | c :: cs => goTo cs; return c
  | [] => refuse

/-- Reads `word` if it comes next, and says whether it did. -/
def take? (word : String) : Reader Bool := do
  let cs ← rest
  if word.toList.isPrefixOf cs then
    goTo (cs.drop word.length)
    return true
  else return false

/-! ## Escapes -/

/-- What a primary of a pattern or an item of a class stands for. -/
inductive Atom where
  | literal (c : Char)
  | set (c : CharClass)
  | place (l : Look)

/-- The characters that mean something in a pattern. -/
def isMeta (c : Char) : Bool :=
  "\\.+*?()|[]\x7b\x7d^$#&-~".toList.contains c

/-- The character may be escaped to stand for itself. -/
def isEscapable (c : Char) : Bool :=
  isMeta c || (CharClass.isAscii c && !c.isAlphanum && c != '<' && c != '>')

/-- The value of a hexadecimal digit. -/
def hexDigit? (c : Char) : Option Nat :=
  if c.isDigit then some (c.toNat - 48)
  else if 'a' ≤ c ∧ c ≤ 'f' then some (c.toNat - 87)
  else if 'A' ≤ c ∧ c ≤ 'F' then some (c.toNat - 55)
  else none

/-- The character with a hexadecimal number; a number may have any count of digits but zero. -/
def hexChar? (digits : List Char) : Option Char := do
  let values ← digits.mapM hexDigit?
  let n := values.foldl (fun n d => n * 16 + d) 0
  if digits ≠ [] ∧ (n < 0xD800 ∨ (0xDFFF < n ∧ n < 0x110000)) then return Char.ofNat n else none

/-- Reads the number of a character behind its letter: in braces, or with a fixed count of
digits. -/
def hexEscape (count : Nat) : Reader Char := do
  skip
  let cs ← rest
  let verbose := (← get).flags.verbose
  let clean (cs : List Char) := if verbose then cs.filter (!isBlank ·) else cs
  match cs with
  | '\x7b' :: inside =>
    match inside.dropWhile (· != '\x7d') with
    | _ :: behind =>
      goTo behind
      hexChar? (clean (inside.takeWhile (· != '\x7d')))
    | [] => refuse
  | _ =>
    if cs.length < count then refuse
    else
      goTo (cs.drop count)
      hexChar? (cs.take count)

/-- Reads the name of a property behind its letter: one letter, or a name in braces. -/
def propertyEscape (complement : Bool) : Reader CharClass := do
  skip
  let flags := (← get).flags
  let name ← match ← rest with
    | [] => refuse
    | '\\' :: _ => refuse
    | '\x7b' :: inside =>
      match inside.dropWhile (· != '\x7d') with
      | _ :: behind => do
        goTo behind
        pure (inside.takeWhile (· != '\x7d'))
      | [] => refuse
    | c :: cs => do
      goTo cs
      pure [c]
  if flags.unicode then do
    let found ← CharClass.named? name
    let closed := if flags.ignoreCase then .anyCase false found else found
    return if complement then .complement closed else closed
  else refuse

/-- The class of a letter for digits, blanks or word characters. -/
def letterClass? (flags : Flags) (c : Char) : Option CharClass :=
  let known (p : CharProperty) (ascii : String) : Option CharClass :=
    if flags.unicode then some (.property p) else CharClass.posix? ascii
  match c with
  | 'd' => known (.category ["Nd"]) "digit"
  | 's' => known .blank "space"
  | 'w' => known .wordChar "word"
  | _ => none

/-- Reads a place of a word in braces, if there is one: a brace with something else in it is left
for a repetition. -/
def wordPlace (ascii : Bool) : Reader Look := do
  let cs ← rest
  match cs with
  | '\x7b' :: inside =>
    let clean := if (← get).flags.verbose then skipVerbose false inside else inside
    let isLetter (c : Char) := c.isAlpha || c = '-'
    match clean with
    | [] => refuse
    | c :: _ =>
      if isLetter c then
        match clean.dropWhile isLetter with
        | '\x7d' :: behind => do
          goTo behind
          let place ← match String.ofList (clean.takeWhile isLetter) with
            | "start" => pure WordPlace.start
            | "end" => pure WordPlace.finish
            | "start-half" => pure WordPlace.noneBefore
            | "end-half" => pure WordPlace.noneAfter
            | _ => refuse
          return .word place ascii
        | _ => refuse
      else return .word .border ascii
  | _ => return .word .border ascii

/-- Reads an escape behind its backslash. -/
def escape : Reader Atom := do
  let flags := (← get).flags
  let c ← next
  let ascii := !flags.unicode
  match c with
  | 'x' => do
    let braces := (← rest).head? = some '\x7b'
    let d ← hexEscape 2
    if flags.unicode || braces || CharClass.isAscii d then return .literal d else refuse
  | 'u' => return .literal (← hexEscape 4)
  | 'U' => return .literal (← hexEscape 8)
  | 'p' => return .set (← propertyEscape false)
  | 'P' => return .set (← propertyEscape true)
  | 'a' => return .literal '\x07'
  | 'f' => return .literal '\x0c'
  | 't' => return .literal '\t'
  | 'n' => return .literal '\n'
  | 'r' => return .literal '\r'
  | 'v' => return .literal '\x0b'
  | 'A' => return .place .startOfText
  | 'z' => return .place .endOfText
  | 'b' => return .place (← wordPlace ascii)
  | 'B' => return .place (.word .notBorder ascii)
  | '<' => return .place (.word .start ascii)
  | '>' => return .place (.word .finish ascii)
  | _ =>
    if isEscapable c then return .literal c
    else
      match letterClass? flags c with
      | some found => return .set found
      | none =>
        match letterClass? flags c.toLower with
        | some found => if flags.unicode then return .set (.complement found) else refuse
        | none => refuse

/-! ## Classes in brackets -/

/-- The operations between classes in brackets. -/
inductive ClassOp where
  | both
  | without
  | either

/-- Applies an operation to what stands on its two sides. -/
def ClassOp.apply (op : ClassOp) (flags : Flags) (a b : CharClass) : CharClass :=
  let closed (c : CharClass) := if flags.ignoreCase then .anyCase (!flags.unicode) c else c
  match op with
  | .both => .both (closed a) (closed b)
  | .without => .without (closed a) (closed b)
  | .either => .either (closed a) (closed b)

/-- Joins a class to the operation that waits for it. -/
def joinClass (flags : Flags) (waiting : Option (ClassOp × CharClass)) (a : CharClass) :
    CharClass :=
  match waiting with
  | none => a
  | some (op, left) => op.apply flags left a

/-- Reads a class between colons behind its opening bracket, if there is one. -/
def posixClass : Reader (Option CharClass) := do
  let flags := (← get).flags
  match ← rest with
  | ':' :: inside =>
    let (complement, name) := match inside with
      | '^' :: name => (true, name)
      | name => (false, name)
    match name.dropWhile (· != ':') with
    | ':' :: ']' :: behind =>
      match CharClass.posix? (String.ofList (name.takeWhile (· != ':'))) with
      | none => return none
      | some found =>
        if complement && !flags.unicode then refuse
        else do
          goTo behind
          let closed := if flags.ignoreCase then .anyCase (!flags.unicode) found else found
          return some (if complement then .complement closed else closed)
    | _ => return none
  | _ => return none

/-- Reads one item of a class: a character, or an escape. -/
def classAtom : Reader Atom := do
  match ← next with
  | '\\' => escape
  | c => if (← get).flags.unicode || CharClass.isAscii c then return .literal c else refuse

/-- Reads an item of a class, which may be a range. -/
def classItem : Reader CharClass := do
  let first ← classAtom
  skip
  let single : Reader CharClass :=
    match first with
    | .literal c => return .single c
    | .set a => return a
    | .place _ => refuse
  let verbose := (← get).flags.verbose
  match ← rest with
  | '-' :: behind =>
    let after := if verbose then skipVerbose false behind else behind
    match after with
    | [] => refuse
    | ']' :: _ | '-' :: _ => single
    | _ =>
      goTo after
      match first, ← classAtom with
      | .literal low, .literal high => if low ≤ high then return .range low high else refuse
      | _, _ => refuse
  | [] => refuse
  | _ => single

/-- Reads a class behind its opening bracket, up to the closing one. `waiting` is the operation in
front of the current union and `sofar` that union. Hyphens and a closing bracket that come first
stand for themselves. -/
def classTail (fuel : Nat) (waiting : Option (ClassOp × CharClass))
    (sofar : CharClass) : Reader CharClass := do
  match fuel with
  | 0 => refuse
  | fuel + 1 =>
    skip
    let flags := (← get).flags
    let operation (op : ClassOp) : Reader CharClass :=
      classTail fuel (some (op, joinClass flags waiting sofar)) .none
    match ← rest with
    | [] => refuse
    | ']' :: cs => goTo cs; return joinClass flags waiting sofar
    | '&' :: '&' :: cs => goTo cs; operation .both
    | '-' :: '-' :: cs => goTo cs; operation .without
    | '~' :: '~' :: cs => goTo cs; operation .either
    | '[' :: cs =>
      goTo cs
      match ← posixClass with
      | some a => classTail fuel waiting (.union sofar a)
      | none =>
        let a ← openClass fuel
        classTail fuel waiting (.union sofar a)
    | _ =>
      let a ← classItem
      classTail fuel waiting (.union sofar a)
where
  /-- Reads a class behind its opening bracket, from its first character on. -/
  openClass (fuel : Nat) : Reader CharClass := do
    match fuel with
    | 0 => refuse
    | fuel + 1 =>
      skip
      let complement ← take? "^"
      skip
      let flags := (← get).flags
      let isHyphen (c : Char) := c = '-' || (flags.verbose && isBlank c)
      let first ←
        if (← rest).head? = some '-' then do
          goTo ((← rest).dropWhile isHyphen)
          pure (CharClass.single '-')
        else if ← take? "]" then pure (CharClass.single ']')
        else pure .none
      let a ← classTail fuel none first
      let closed := if flags.ignoreCase then .anyCase (!flags.unicode) a else a
      if complement then
        if flags.unicode then return .complement closed else refuse
      else return closed

/-! ## Patterns -/

/-- Sets one flag, or clears it. -/
def setFlag? (flags : Flags) (on : Bool) : Char → Option Flags
  | 'i' => some { flags with ignoreCase := on }
  | 'm' => some { flags with multiLine := on }
  | 's' => some { flags with dotAll := on }
  | 'x' => some { flags with verbose := on }
  | 'u' => some { flags with unicode := on }
  | 'R' => some { flags with anyLine := on }
  | 'U' => some flags
  | _ => none

/-- Applies the letters of a flag group: no letter twice, and at most one hyphen, which is followed
by a letter. -/
def applyFlags? (flags : Flags) (on : Bool) (seen : List Char) : List Char → Option Flags
  | [] => if seen.head? = some '-' then none else some flags
  | c :: cs =>
    if seen.contains c then none
    else if c = '-' then applyFlags? flags false (c :: seen) cs
    else (setFlag? flags on c).bind fun flags => applyFlags? flags on (c :: seen) cs

/-- Reads the name of a group up to its closing angle bracket. -/
def groupName : Reader Unit := do
  let cs ← rest
  match cs.takeWhile (· != '>'), cs.dropWhile (· != '>') with
  | first :: others, _ :: behind =>
    let name := first :: others
    let isFirst := first = '_' || isAlphabetic first
    let isOther (c : Char) := c = '_' || c = '.' || c = '[' || c = ']' || isAlphanumeric c
    if isFirst && others.all isOther && !(← get).names.contains name then
      modify fun s => { s with rest := behind, names := name :: s.names }
    else refuse
  | _, _ => refuse

/-- Reads a whole number with blanks around it. -/
def bound : Reader (Option Nat) := do
  let cs := (← rest).dropWhile isBlank
  goTo ((cs.dropWhile Char.isDigit).dropWhile isBlank)
  match cs.takeWhile Char.isDigit with
  | [] => return none
  | digits =>
    let n := Nat.ofDigitChars 10 digits 0
    if n < 0x100000000 then return some n else refuse

/-- Reads the bounds of a repetition behind the opening brace. -/
def bounds : Reader (Nat × Option Nat) := do
  skip
  match ← bound with
  | none => refuse
  | some least =>
    if ← take? "\x7d" then return (least, some least)
    else if ← take? "," then
      skip
      if ← take? "\x7d" then return (least, none)
      else
        match ← bound with
        | none => refuse
        | some most =>
          if (← take? "\x7d") && least ≤ most then return (least, some most) else refuse
    else refuse

/-- Reads the repetitions behind a primary. A question mark behind one changes only which match is
preferred. -/
def repetitions (fuel : Nat) (r : Regex) : Reader Regex := do
  match fuel with
  | 0 => refuse
  | fuel + 1 =>
    skip
    let again (r : Regex) : Reader Regex := do
      let _ ← take? "?"
      repetitions fuel r
    match ← rest with
    | '*' :: cs => goTo cs; again (.repeated r 0 none)
    | '+' :: cs => goTo cs; again (.repeated r 1 none)
    | '?' :: cs => goTo cs; again (.repeated r 0 (some 1))
    | '\x7b' :: cs =>
      goTo cs
      let (least, most) ← bounds
      again (.repeated r least most)
    | _ => return r

/-- The expression for a character of a class. -/
def literal (flags : Flags) (c : Char) : Regex :=
  let single := CharClass.single c
  .char (if flags.ignoreCase then .anyCase (!flags.unicode) single else single)

/-- The expression for a point: any character but those that end a line. -/
def point (flags : Flags) : Regex :=
  if flags.dotAll then .char .all
  else if flags.anyLine then .char (.complement (.union (.single '\n') (.single '\r')))
  else .char (.complement (.single '\n'))

/-- The place that an anchor at the start stands for. -/
def startAnchor (flags : Flags) : Look :=
  if flags.multiLine then if flags.anyLine then .startOfAnyLine else .startOfLine
  else .startOfText

/-- The place that an anchor at the end stands for. -/
def endAnchor (flags : Flags) : Look :=
  if flags.multiLine then if flags.anyLine then .endOfAnyLine else .endOfLine
  else .endOfText

mutual
/-- Reads alternatives up to the end of their group or of the pattern. -/
def alternatives (fuel : Nat) : Reader Regex := do
  match fuel with
  | 0 => refuse
  | fuel + 1 =>
    let first ← sequence fuel .empty
    if ← take? "|" then return .alt first (← alternatives fuel) else return first

/-- Reads items up to the end of an alternative and appends them to `sofar`. -/
def sequence (fuel : Nat) (sofar : Regex) : Reader Regex := do
  match fuel with
  | 0 => refuse
  | fuel + 1 =>
    skip
    match ← rest with
    | [] | '|' :: _ | ')' :: _ => return sofar
    | '(' :: cs =>
      goTo cs
      match ← group fuel with
      | none => sequence fuel sofar
      | some r => sequence fuel (.seq sofar (← repetitions fuel r))
    | _ =>
      let r ← primary fuel
      sequence fuel (.seq sofar (← repetitions fuel r))

/-- Reads a group behind its opening parenthesis. A group of flags only is nothing to match; its
flags hold up to the end of the group around it. -/
def group (fuel : Nat) : Reader (Option Regex) := do
  match fuel with
  | 0 => refuse
  | fuel + 1 =>
    skip
    let outer := (← get).flags
    let body : Reader (Option Regex) := do
      let r ← alternatives fuel
      if ← take? ")" then
        modify fun s => { s with flags := outer }
        return some r
      else refuse
    match ← rest with
    | '?' :: '=' :: _ | '?' :: '!' :: _ | '?' :: '<' :: '=' :: _ | '?' :: '<' :: '!' :: _ => refuse
    | '?' :: 'P' :: '<' :: cs | '?' :: '<' :: cs => goTo cs; groupName; body
    | '?' :: cs =>
      let letters := cs.takeWhile fun c => c != ':' && c != ')'
      let flags ← applyFlags? outer true [] letters
      modify fun s => { s with flags }
      match cs.drop letters.length with
      | ':' :: behind => goTo behind; body
      | ')' :: behind =>
        goTo behind
        if letters.isEmpty then refuse else return none
      | _ => refuse
    | _ => body

/-- Reads a primary that is no group. -/
def primary (fuel : Nat) : Reader Regex := do
  match fuel with
  | 0 => refuse
  | fuel + 1 =>
    let flags := (← get).flags
    match ← next with
    | '*' | '+' | '?' | '\x7b' => refuse
    | '[' => return .char (← classTail.openClass fuel)
    | '.' => if flags.unicode then return point flags else refuse
    | '^' => return .look (startAnchor flags)
    | '$' => return .look (endAnchor flags)
    | '\\' =>
      match ← escape with
      | .literal c => return literal flags c
      | .set a => return .char a
      | .place l => return .look l
    | c => return literal flags c
end

/-! ## Size -/

/-- How many steps a class of characters takes, roughly: its ranges of encoded characters, estimated
by the kind of the class. -/
def CharClass.cost : CharClass → Nat
  | .none => 1
  | .range _ high => high.utf8Size
  | .property (.category names) => 100 * names.length
  | .property .wordChar | .property .alphabetic => 1200
  | .property (.script _) => 8
  | .property .blank => 10
  | .property .upperCase | .property .lowerCase => 600
  | .union a b | .both a b | .without a b | .either a b => cost a + cost b
  | .complement a => cost a + 8
  | .anyCase _ a => 2 * cost a

/-- How many steps an automaton for the expression has, roughly. An engine that builds the automaton
measures it in bytes; this count only approximates that measure, so that an expression close to the
limit may be on the other side of it there. -/
def cost : Regex → Nat
  | .empty => 1
  | .char c => CharClass.cost c
  | .look _ => 1
  | .seq a b => cost a + cost b
  | .alt a b => cost a + cost b + 2
  | .repeated a least most =>
    match most with
    | none => cost a * max least 1 + 2
    | some n => (cost a + 1) * n + 1

/-- The greatest size of an expression. It stands for a limit of ten megabytes on the automaton,
which it approximates as `cost` does. -/
def sizeLimit : Nat := 300000

/-- The expression that a pattern stands for; none if the pattern is refused or the expression is
too large. -/
def compile? (pattern : String) : Option Regex := do
  let cs := pattern.toList
  let (r, s) ← (alternatives (4 * cs.length + 8)).run ⟨cs, .initial, []⟩
  if s.rest = [] ∧ cost r ≤ sizeLimit then return r else none

end Switchboard.Regex
