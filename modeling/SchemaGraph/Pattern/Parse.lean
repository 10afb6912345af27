import SchemaGraph.Pattern.Basic
import SchemaGraph.Text.Basic

set_option autoImplicit false

/-! # Reading patterns

The usual notation of regular expressions without back references and look-around. Classes know
set operations (`&&`, `--`, `~~`) and Unicode properties, and flags such as `(?i)` hold up to
the end of the group they stand in.
-/

namespace SchemaGraph

namespace Pattern

/-- The flags in force. -/
structure Flags where
  ignoreCase : Bool
  multiLine : Bool
  dotAll : Bool
  unicode : Bool
  verbose : Bool
  carriageReturn : Bool
  deriving DecidableEq, Repr

namespace Flags

def initial : Flags := ⟨false, false, false, true, false, false⟩

/-- Set one flag by its letter. The flag for lazy repetition changes no match. -/
def set? (flags : Flags) (letter : Char) (on : Bool) : Option Flags :=
  match letter with
  | 'i' => some { flags with ignoreCase := on }
  | 'm' => some { flags with multiLine := on }
  | 's' => some { flags with dotAll := on }
  | 'u' => some { flags with unicode := on }
  | 'x' => some { flags with verbose := on }
  | 'R' => some { flags with carriageReturn := on }
  | 'U' => some flags
  | _ => none

def word (flags : Flags) : CharSet := if flags.unicode then CharSet.word else CharSet.asciiWord

/-- The class of a letter such as `d`, in either case. -/
def classOf (flags : Flags) (letter : Char) : CharSet :=
  let (plain, negated) := (Ascii.toLower letter, Ascii.isUpper letter)
  let set :=
    if plain == 'd' then (if flags.unicode then CharSet.digit else CharSet.asciiDigit)
    else if plain == 's' then (if flags.unicode then CharSet.space else CharSet.asciiSpace)
    else flags.word
  CharSet.complementIf negated set

/-- What `.` stands for. -/
def dot (flags : Flags) : CharSet :=
  if flags.dotAll then .range 0 0x10ffff
  else if flags.carriageReturn then .complement (.union (.single '\n') (.single '\r'))
  else .complement (.single '\n')

def lineStart (flags : Flags) : Look :=
  if !flags.multiLine then .start else if flags.carriageReturn then .anyLineStart else .lineStart

def lineFinish (flags : Flags) : Look :=
  if !flags.multiLine then .finish
  else if flags.carriageReturn then .anyLineFinish
  else .lineFinish

end Flags

/-- In verbose mode, skip blanks and comments. -/
def skip (flags : Flags) (text : List Char) : List Char :=
  if flags.verbose then go text.length text else text
where
  go : Nat → List Char → List Char
    | 0, text => text
    | n + 1, text =>
      match text.dropWhile isBlank with
      | '#' :: rest => go n (rest.dropWhile (· != '\n'))
      | rest => rest

/-! ## Escapes -/

/-- What an escape stands for. -/
inductive Escaped where
  | char (c : Char)
  | set (set : CharSet)
  | look (condition : Look)

/-- The character of a code point. -/
def charOfCode? (code : Nat) : Option Char :=
  if code.isValidChar then some (Char.ofNat code) else none

/-- Read `count` hexadecimal digits. -/
def readHexDigits? (flags : Flags) (count value : Nat) (text : List Char) :
    Option (Nat × List Char) :=
  match count with
  | 0 => some (value, text)
  | count + 1 =>
    match skip flags text with
    | [] => none
    | c :: rest => do
      let d ← Ascii.hexValue? c
      readHexDigits? flags count (16 * value + d) rest

/-- Read the code point after `x`, `u` or `U`, in braces or with a fixed number of digits. Two
digits without Unicode are a byte, which must be in ASCII. -/
def readCode? (flags : Flags) (count : Nat) (text : List Char) : Option (Char × List Char) := do
  match skip flags text with
  | '\x7b' :: rest =>
    let written := rest.takeWhile (· != '\x7d')
    let after := rest.dropWhile (· != '\x7d')
    let digits := if flags.verbose then written.filter fun c => !isBlank c else written
    if digits.isEmpty || after.isEmpty || !digits.all Ascii.isHex then none
    else
      let code := digits.foldl (fun n c => 16 * n + (Ascii.hexValue? c).getD 0) 0
      let c ← charOfCode? code
      some (c, after.drop 1)
  | text =>
    let (code, rest) ← readHexDigits? flags count 0 text
    let c ← charOfCode? code
    if count == 2 && !flags.unicode && 128 ≤ code then none else some (c, rest)

/-- The class of a property written between braces. -/
def propertyOf? (written : List Char) : Option (CharSet × Bool) :=
  let cut (separator : Char) : Option (String × String) :=
    (cutAt? separator written).map fun (a, b) => (String.ofList a, String.ofList b)
  match cut '!' with
  | some (name, value) =>
    match value.toList with
    | '=' :: value =>
      (CharSet.ofNameAndValue? name (String.ofList value)).map fun set => (set, true)
    | _ => none
  | none =>
    match cut ':' with
    | some (name, value) => (CharSet.ofNameAndValue? name value).map fun set => (set, false)
    | none =>
      match cut '=' with
      | some (name, value) => (CharSet.ofNameAndValue? name value).map fun set => (set, false)
      | none => (CharSet.ofName? (String.ofList written)).map fun set => (set, false)

/-- Read a property after `p` or `P`. -/
def readProperty? (flags : Flags) (negated : Bool) (text : List Char) :
    Option (CharSet × List Char) := do
  if !flags.unicode then none
  else
    let (set, inverted, rest) ← match skip flags text with
      | [] => none
      | '\x7b' :: rest =>
        let after := rest.dropWhile (· != '\x7d')
        if after.isEmpty then none
        else (propertyOf? (rest.takeWhile (· != '\x7d'))).map fun (set, inverted) =>
          (set, inverted, after.drop 1)
      | c :: rest =>
        if c == '\\' then none
        else (CharSet.ofName? (String.singleton c)).map fun set => (set, false, rest)
    some (CharSet.complementIf (negated != inverted) (CharSet.foldIf flags.ignoreCase set), rest)

/-- Read what may follow the `b` of a boundary: the name of a special boundary in braces. -/
def readBoundary? (flags : Flags) (text : List Char) : Option (Look × List Char) :=
  let isNameChar (c : Char) : Bool := Ascii.isLetter c || c == '-'
  match text with
  | '\x7b' :: rest =>
    match skip flags rest with
    | [] => none
    | c :: _ =>
      if isNameChar c then
        let written := rest.takeWhile (· != '\x7d')
        let after := rest.dropWhile (· != '\x7d')
        if after.isEmpty then none
        else
          let name := if flags.verbose then written.filter fun c => !isBlank c else written
          let condition := match String.ofList name with
            | "start" => some (Look.wordStart flags.word)
            | "end" => some (Look.wordFinish flags.word)
            | "start-half" => some (Look.afterNoWord flags.word)
            | "end-half" => some (Look.beforeNoWord flags.word)
            | _ => none
          condition.map fun found => (found, after.drop 1)
      else some (.boundary flags.word, text)
  | _ => some (.boundary flags.word, text)

/-- Characters that may be escaped to stand for themselves: all of ASCII but letters, digits
and the angle brackets. -/
def isEscapable (c : Char) : Bool :=
  c.toNat < 128 && !Ascii.isLetter c && !Ascii.isDigit c && c != '<' && c != '>'

/-- Read an escape after its backslash. -/
def readEscape? (flags : Flags) : List Char → Option (Escaped × List Char)
  | [] => none
  | c :: rest =>
    let found (e : Escaped) : Option (Escaped × List Char) := some (e, rest)
    match c with
    | 'x' => (readCode? flags 2 rest).map fun (c, rest) => (.char c, rest)
    | 'u' => (readCode? flags 4 rest).map fun (c, rest) => (.char c, rest)
    | 'U' => (readCode? flags 8 rest).map fun (c, rest) => (.char c, rest)
    | 'p' => (readProperty? flags false rest).map fun (set, rest) => (.set set, rest)
    | 'P' => (readProperty? flags true rest).map fun (set, rest) => (.set set, rest)
    | 'd' | 's' | 'w' => found (.set (flags.classOf c))
    | 'D' | 'S' | 'W' => if flags.unicode then found (.set (flags.classOf c)) else none
    | 'a' => found (.char (Char.ofNat 0x07))
    | 'f' => found (.char (Char.ofNat 0x0c))
    | 't' => found (.char '\t')
    | 'n' => found (.char '\n')
    | 'r' => found (.char '\r')
    | 'v' => found (.char (Char.ofNat 0x0b))
    | 'A' => found (.look .start)
    | 'z' => found (.look .finish)
    | 'b' => (readBoundary? flags rest).map fun (found, rest) => (.look found, rest)
    | 'B' => found (.look (.noBoundary flags.word))
    | '<' => found (.look (.wordStart flags.word))
    | '>' => found (.look (.wordFinish flags.word))
    | c => if isEscapable c then found (.char c) else none

/-! ## Classes -/

/-- The operations between the parts of a class. -/
inductive SetOp where
  | inter
  | minus
  | either

/-- Join the part before an operation with the part after it. -/
def joinSets (flags : Flags) (before : Option (CharSet × SetOp)) (part : CharSet) : CharSet :=
  let fold := CharSet.foldIf flags.ignoreCase
  match before with
  | none => part
  | some (left, .inter) => .inter (fold left) (fold part)
  | some (left, .minus) => .minus (fold left) (fold part)
  | some (left, .either) => .either (fold left) (fold part)

/-- Read a class such as `:alpha:` after its bracket, up to the closing one. -/
def readAsciiClass? (text : List Char) : Option (CharSet × List Char) :=
  match text with
  | ':' :: rest =>
    let (negated, rest) := match rest with
      | '^' :: rest => (true, rest)
      | rest => (false, rest)
    let name := rest.takeWhile (· != ':')
    match rest.drop name.length with
    | ':' :: ']' :: rest =>
      (CharSet.ofAsciiName? (String.ofList name)).map fun set =>
        (CharSet.complementIf negated set, rest)
    | _ => none
  | _ => none

/-- Read a single item of a class. -/
def readClassItem? (flags : Flags) (text : List Char) : Option (Escaped × List Char) :=
  match text with
  | '\\' :: rest => readEscape? flags rest
  | c :: rest => some (.char c, rest)
  | [] => none

/-- Read an item of a class, or a range of characters. -/
def readClassRange? (flags : Flags) (text : List Char) : Option (CharSet × List Char) := do
  let (item, rest) ← readClassItem? flags text
  let rest := skip flags rest
  let alone : Option (CharSet × List Char) := match item with
    | .char c => if flags.unicode || c.toNat < 128 then some (.single c, rest) else none
    | .set set => some (set, rest)
    | .look _ => none
  match rest with
  | [] => none
  | '-' :: after =>
    match skip flags after with
    | ']' :: _ => alone
    | '-' :: _ => alone
    | after =>
      let (other, rest) ← readClassItem? flags after
      match item, other with
      | .char a, .char b =>
        if a ≤ b && (flags.unicode || b.toNat < 128) then some (.range a.toNat b.toNat, rest)
        else none
      | _, _ => none
  | _ => alone

/-- The beginning of a class: its negation, and the hyphens or the bracket that stand for
themselves. -/
def readClassStart (flags : Flags) (text : List Char) : Bool × CharSet × List Char :=
  let (negated, rest) := match skip flags text with
    | '^' :: rest => (true, skip flags rest)
    | rest => (false, rest)
  match rest with
  | ']' :: after => (negated, .single ']', after)
  | '-' :: _ => (negated, .single '-', hyphens rest.length rest)
  | _ => (negated, .none, rest)
where
  hyphens : Nat → List Char → List Char
    | 0, text => text
    | n + 1, text =>
      match skip flags text with
      | '-' :: rest => hyphens n rest
      | rest => rest

/-- Read the items of a class up to its closing bracket. -/
def readClassItems? (steps : Nat) (flags : Flags) (negated : Bool)
    (before : Option (CharSet × SetOp)) (part : CharSet) (text : List Char) :
    Option (CharSet × List Char) :=
  match steps with
  | 0 => none
  | steps + 1 =>
    let operation (op : SetOp) (rest : List Char) : Option (CharSet × List Char) :=
      readClassItems? steps flags negated (some (joinSets flags before part, op)) .none rest
    match skip flags text with
    | [] => none
    | ']' :: rest =>
      if negated && !flags.unicode then none
      else
        let whole := CharSet.foldIf flags.ignoreCase (joinSets flags before part)
        some (CharSet.complementIf negated whole, rest)
    | '[' :: rest =>
      match readAsciiClass? rest with
      | some (set, rest) => readClassItems? steps flags negated before (.union part set) rest
      | none => do
        let (inner, start, rest) := readClassStart flags rest
        let (set, rest) ← readClassItems? steps flags inner none start rest
        readClassItems? steps flags negated before (.union part set) rest
    | '&' :: '&' :: rest => operation .inter rest
    | '-' :: '-' :: rest => operation .minus rest
    | '~' :: '~' :: rest => operation .either rest
    | text => do
      let (set, rest) ← readClassRange? flags text
      readClassItems? steps flags negated before (.union part set) rest

/-- Read a class after its opening bracket. -/
def readClass? (flags : Flags) (text : List Char) : Option (CharSet × List Char) :=
  let (negated, start, rest) := readClassStart flags text
  readClassItems? (rest.length + 1) flags negated none start rest

/-! ## Repetitions -/

/-- Read a count below `2³²`, with blanks around it. -/
def readCount? (flags : Flags) (text : List Char) : Option (Nat × List Char) :=
  let text := (skip flags text).dropWhile isBlank
  let digits := text.takeWhile Ascii.isDigit
  let rest := (text.drop digits.length).dropWhile isBlank
  if digits.isEmpty || 0x100000000 ≤ Ascii.decimalValue digits then none
  else some (Ascii.decimalValue digits, skip flags rest)

/-- Read the counts of a repetition after the opening brace. -/
def readCounts? (flags : Flags) (text : List Char) : Option (Nat × Option Nat × List Char) := do
  let (least, rest) ← readCount? flags text
  match rest with
  | '\x7d' :: rest => some (least, some least, rest)
  | ',' :: rest =>
    match skip flags rest with
    | '\x7d' :: rest => some (least, none, rest)
    | rest =>
      let (most, rest) ← readCount? flags rest
      match rest with
      | '\x7d' :: rest => if least ≤ most then some (least, some most, rest) else none
      | _ => none
  | _ => none

/-- A question mark after a repetition changes no match. -/
def skipLazy (flags : Flags) (text : List Char) : List Char :=
  match skip flags text with
  | '?' :: rest => rest
  | _ => text

/-- Repeat the last piece. There must be one, and it must not be a setting of flags. -/
def repeatLast? (least : Nat) (most : Option Nat) (done : List (Option Pattern)) :
    Option (List (Option Pattern)) :=
  match done with
  | some last :: before => some (some (times least most last) :: before)
  | _ => none

/-! ## Groups -/

/-- Read the flags of a group up to a colon or a closing parenthesis. No flag may stand twice,
and a hyphen, which switches off, needs a flag after it. -/
def readFlags? (flags : Flags) (seen : List Char) : List Char → Option (Flags × List Char × List Char)
  | [] => none
  | c :: rest =>
    if c == ':' || c == ')' then
      if seen.head? == some '-' then none else some (flags, seen, c :: rest)
    else if seen.contains c then none
    else if c == '-' then readFlags? flags ('-' :: seen) rest
    else do
      let flags ← flags.set? c (!seen.contains '-')
      readFlags? flags (c :: seen) rest

/-- The name of a group: letters, digits, underlines, points and brackets, starting with a
letter or an underline. -/
def isGroupName (name : List Char) : Bool :=
  let isLetter (c : Char) : Bool := CharSet.contains (.table alphabetic) c.toNat
  let isNumber (c : Char) : Bool :=
    CharSet.contains (.table ([Category.nd, .nl, .no].flatMap Category.ranges)) c.toNat
  match name with
  | [] => false
  | first :: rest =>
    (isLetter first || first == '_') &&
      rest.all fun c => isLetter c || isNumber c || ['_', '.', '[', ']'].contains c

/-- How the inside of a group starts. -/
inductive GroupStart where
  /-- The flags hold from here on in the enclosing group. -/
  | setting (flags : Flags)
  | inside (flags : Flags) (name : Option (List Char))

/-- Read the start of a group after its parenthesis. -/
def readGroupStart? (flags : Flags) (text : List Char) : Option (GroupStart × List Char) :=
  let named (rest : List Char) : Option (GroupStart × List Char) :=
    let name := rest.takeWhile (· != '>')
    let after := rest.dropWhile (· != '>')
    if isGroupName name && !after.isEmpty then some (.inside flags (some name), after.drop 1)
    else none
  match skip flags text with
  | '?' :: '=' :: _ => none
  | '?' :: '!' :: _ => none
  | '?' :: '<' :: '=' :: _ => none
  | '?' :: '<' :: '!' :: _ => none
  | '?' :: 'P' :: '<' :: rest => named rest
  | '?' :: '<' :: rest => named rest
  | '?' :: rest => do
    let (set, seen, rest) ← readFlags? flags [] rest
    match rest with
    | ')' :: rest => if seen.isEmpty then none else some (.setting set, rest)
    | ':' :: rest => some (.inside set none, rest)
    | _ => none
  | rest => some (.inside flags none, rest)

/-- The pieces of a sequence, last one first, as one pattern. -/
def sequenceOf (done : List (Option Pattern)) : Pattern :=
  (done.filterMap id).foldl (fun after piece =>
    match after with
    | empty => piece
    | after => seq piece after) empty

/-- Read a single character, escape, point or anchor. -/
def readPrimitive? (flags : Flags) (text : List Char) : Option (Pattern × List Char) :=
  let single (c : Char) : Pattern := one (CharSet.foldIf flags.ignoreCase (.single c))
  match text with
  | [] => none
  | '\\' :: rest =>
    (readEscape? flags rest).map fun (e, rest) =>
      match e with
      | .char c => (single c, rest)
      | .set set => (one set, rest)
      | .look condition => (look condition, rest)
  | '.' :: rest => if flags.unicode then some (one flags.dot, rest) else none
  | '^' :: rest => some (look flags.lineStart, rest)
  | '$' :: rest => some (look flags.lineFinish, rest)
  | c :: rest => some (single c, rest)

/-- What reading a sequence of pieces leaves behind. -/
structure Reading where
  pattern : Pattern
  flags : Flags
  names : List (List Char)
  rest : List Char

/-- Read alternatives up to the end of the group. `done` holds the pieces of the alternative
being read, last one first; a setting of flags is a piece without a pattern. -/
def readPieces? (steps depth : Nat) (flags : Flags) (names : List (List Char))
    (done : List (Option Pattern)) (text : List Char) : Option Reading :=
  match steps with
  | 0 => none
  | steps + 1 =>
    let again (done : List (Option Pattern)) (rest : List Char) : Option Reading :=
      readPieces? steps depth flags names done rest
    let repeated (least : Nat) (most : Option Nat) (rest : List Char) : Option Reading := do
      let done ← repeatLast? least most done
      again done (skipLazy flags rest)
    match skip flags text with
    | [] => some ⟨sequenceOf done, flags, names, []⟩
    | ')' :: rest => some ⟨sequenceOf done, flags, names, ')' :: rest⟩
    | '|' :: rest => do
      let other ← readPieces? steps depth flags names [] rest
      some { other with pattern := alt (sequenceOf done) other.pattern }
    | '*' :: rest => repeated 0 none rest
    | '+' :: rest => repeated 1 none rest
    | '?' :: rest => repeated 0 (some 1) rest
    | '\x7b' :: rest => do
      let (least, most, rest) ← readCounts? flags rest
      repeated least most rest
    | '[' :: rest => do
      let (set, rest) ← readClass? flags rest
      again (some (one set) :: done) rest
    | '(' :: rest => do
      let (start, rest) ← readGroupStart? flags rest
      match start with
      | .setting set => readPieces? steps depth set names (none :: done) rest
      | .inside inner name =>
        let names ← match name with
          | some name => if names.contains name then none else some (name :: names)
          | none => some names
        if depth == 0 then none
        else
          let group ← readPieces? steps (depth - 1) inner names [] rest
          match group.rest with
          | ')' :: rest => readPieces? steps depth flags group.names (some group.pattern :: done) rest
          | _ => none
    | text => do
      let (piece, rest) ← readPrimitive? flags text
      again (some piece :: done) rest

/-- How deep groups may nest. -/
def nestLimit : Nat := 250

/-- How much room a pattern may take. -/
def roomLimit : Nat := 10 * 0x100000

/-- The pattern a text writes, if it is a regular expression. -/
def read? (text : String) : Option Pattern := do
  let reading ← readPieces? (text.toList.length + 1) nestLimit .initial [] [] text.toList
  if reading.rest.isEmpty && reading.pattern.weight ≤ roomLimit then some reading.pattern
  else none

/-- The text is a regular expression. -/
def isValid (text : String) : Bool := (read? text).isSome

end Pattern

end SchemaGraph
