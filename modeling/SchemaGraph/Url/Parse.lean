import SchemaGraph.Url.Basic

set_option autoImplicit false

/-! # Reading URLs

The URL standard's reading of a text, on its own or against a base. Blanks and control
characters at the ends are dropped, tabs and line breaks everywhere. What follows the scheme
depends on its kind: a special scheme takes an authority whatever the number of slashes, `file`
an authority after two slashes only, any other scheme an authority after two slashes and else a
path, which is opaque without a leading slash.
-/

namespace SchemaGraph

namespace Url

/-! ## Paths -/

def isDriveLetter (segment : List Char) : Bool :=
  match segment with
  | [a, b] => Ascii.isLetter a && (b == ':' || b == '|')
  | _ => false

def isNormalDriveLetter (segment : List Char) : Bool :=
  match segment with
  | [a, b] => Ascii.isLetter a && b == ':'
  | _ => false

/-- The text starts with a drive letter that a slash, a query or a fragment ends. -/
def startsWithDriveLetter (text : List Char) : Bool :=
  isDriveLetter (text.take 2) &&
    match text.drop 2 with
    | [] => true
    | c :: _ => c == '/' || c == '\\' || c == '?' || c == '#'

def isSingleDot (segment : List Char) : Bool :=
  let s := segment.map Ascii.toLower
  s == ['.'] || s == ['%', '2', 'e']

def isDoubleDot (segment : List Char) : Bool :=
  let s := segment.map Ascii.toLower
  s == ['.', '.'] || s == ['.', '%', '2', 'e'] || s == ['%', '2', 'e', '.'] ||
    s == ['%', '2', 'e', '%', '2', 'e']

/-- What follows the last slash of a path. -/
def lastSegment (path : List Char) : List Char :=
  (path.reverse.takeWhile (· != '/')).reverse

/-- The path without its last segment; the slash before it stays. A drive letter is kept. -/
def dropSegment (kind : Kind) (path : List Char) : List Char :=
  if kind == .file && isNormalDriveLetter (lastSegment path) then path
  else (path.reverse.dropWhile (· != '/')).reverse

/-- The slash at the end of a path follows another segment, which is no drive letter. -/
def lastSlashCanGo (path : List Char) : Bool :=
  let front := path.dropLast
  front.contains '/' && !startsWithDriveLetter (lastSegment front ++ ['/'])

/-- Go one segment up, the path ending in a slash. -/
def goUp (kind : Kind) (path : List Char) (slash : Bool) : List Char :=
  let path := if path.getLast? == some '/' && lastSlashCanGo path then path.dropLast else path
  let path := if path.isEmpty then path else dropSegment kind path
  if slash && path.getLast? != some '/' then path ++ ['/'] else path

/-- Escape the characters of a segment and add them to a path. After a drive letter a slash
comes first. -/
def addSegment (kind : Kind) (path segment : List Char) : List Char :=
  if segment.isEmpty then path
  else
    let path :=
      if kind == .file && isNormalDriveLetter (path.drop 1) && !path.isEmpty then path ++ ['/']
      else path
    path ++ Percent.encode inPath segment

/-- Add one segment and the slash after it, if there is one, to a path. -/
def takeSegment (kind : Kind) (path segment : List Char) (slash : Bool) : List Char :=
  let escaped := Percent.encode inPath segment
  if isDoubleDot escaped then goUp kind path slash
  else if isSingleDot escaped then if path.getLast? == some '/' then path else path ++ ['/']
  else if kind == .file && path.length == 1 && isDriveLetter escaped then
    path ++ escaped.take 1 ++ [':'] ++ (if slash then ['/'] else [])
  else addSegment kind path segment ++ (if slash then ['/'] else [])

def endsSegment (kind : Kind) (c : Char) : Bool := c == '/' || (kind.isSpecial && c == '\\')

def endsPath (c : Char) : Bool := c == '?' || c == '#'

/-- Add segments to a path, up to the end of the text. `buffer` holds the segment being read. -/
def takeSegments (kind : Kind) (path buffer : List Char) : List Char → List Char
  | [] => takeSegment kind path buffer false
  | c :: rest =>
    if endsSegment kind c then takeSegments kind (takeSegment kind path buffer true) [] rest
    else takeSegments kind path (buffer ++ [c]) rest

/-- Add the segments of a text to a path; the path of a file has one leading slash only. -/
def extendPath (kind : Kind) (path text : List Char) : List Char :=
  let extended := takeSegments kind path [] text
  if kind == .file then '/' :: extended.dropWhile (· == '/') else extended

/-- The path after an authority. -/
def pathFromStart (kind : Kind) (text : List Char) : List Char :=
  if kind.isSpecial then
    match text with
    | c :: rest => extendPath kind ['/'] (if c == '/' || c == '\\' then rest else text)
    | [] => extendPath kind ['/'] []
  else
    match text with
    | [] => []
    | '/' :: _ => extendPath kind [] text
    | _ => extendPath kind ['/'] text

/-! ## Query and fragment -/

/-- The text up to its query or fragment. -/
def upToQuery (text : List Char) : List Char := text.takeWhile fun c => !endsPath c

/-- Read query and fragment, with which the text starts. -/
def queryAndFragment (kind : Kind) (text : List Char) : Option (List Char) × Option (List Char) :=
  let fragment (rest : List Char) : Option (List Char) :=
    match rest with
    | '#' :: f => some (Percent.encode inFragment f)
    | _ => none
  match text.dropWhile fun c => !endsPath c with
  | '?' :: rest =>
    (some (Percent.encode (inQuery kind) (rest.takeWhile (· != '#'))),
      fragment (rest.dropWhile (· != '#')))
  | rest => (none, fragment rest)

/-- The URL with the query and the fragment that the text has. -/
def withTail (url : Url) (text : List Char) : Url :=
  let (query, fragment) := queryAndFragment url.kind text
  { url with query := query, fragment := fragment }

/-- The URL with the fragment of a text that starts with `#`. -/
def withFragment (url : Url) (text : List Char) : Url :=
  { url with fragment := some (Percent.encode inFragment (text.drop 1)) }

/-! ## Authorities -/

def endsAuthority (kind : Kind) (c : Char) : Bool :=
  c == '/' || endsPath c || (kind.isSpecial && c == '\\')

/-- The user in its written form: name, password after a colon if it is not empty, and `@`. -/
def userText (user : List Char) : List Char :=
  let (name, password) := (cutAt? ':' user).getD (user, [])
  let name := Percent.encode inUser name
  let password := if password.isEmpty then [] else ':' :: Percent.encode inUser password
  if name.isEmpty && password.isEmpty then [] else name ++ password ++ ['@']

/-- The host ends at a colon outside brackets. -/
def cutHost (inBrackets : Bool) : List Char → List Char × List Char
  | [] => ([], [])
  | c :: rest =>
    if c == ':' && !inBrackets then ([], c :: rest)
    else
      let (host, after) := cutHost (if c == '[' then true else if c == ']' then false else inBrackets) rest
      (c :: host, after)

/-- A port: digits up to the end, below `2¹⁶`; the default port is not kept. -/
def readPort? (scheme digits : List Char) : Option (Option Nat) :=
  if digits.isEmpty then some none
  else if digits.all Ascii.isDigit then
    let port := Ascii.decimalValue digits
    if port < 0x10000 then some (if defaultPort? scheme == some port then none else some port)
    else none
  else none

/-- Read an authority. -/
def readAuthority? (scheme : List Char) (kind : Kind) (text : List Char) : Option Authority := do
  let (user, rest) := (cutAtLast? '@' text).getD ([], text)
  let hasUser := text.contains '@'
  let (hostText, portText) := cutHost false rest
  if hostText.isEmpty && (kind.isSpecial || hasUser || !portText.isEmpty) then none
  else
    let host ← if kind.isSpecial then Host.special? hostText else Host.opaqueText? hostText
    let port ← readPort? scheme (portText.drop 1)
    some ⟨userText user, host, port⟩

/-- Read what follows the two slashes before an authority. -/
def afterSlashes? (scheme : List Char) (text : List Char) : Option Url := do
  let kind := kindOf scheme
  let authority ← readAuthority? scheme kind (text.takeWhile fun c => !endsAuthority kind c)
  let rest := text.dropWhile fun c => !endsAuthority kind c
  some (withTail ⟨scheme, some authority, pathFromStart kind (upToQuery rest), none, none⟩ rest)

/-! ## Files -/

def fileScheme : List Char := "file".toList

def isSlash (c : Char) : Bool := c == '/' || c == '\\'

/-- A file URL with the given host. -/
def fileUrl (host path : List Char) : Url := ⟨fileScheme, some ⟨[], host, none⟩, path, none, none⟩

/-- Read what follows the two slashes of a file URL. A drive letter is no host, and a path that
starts with one drops the host; the host `localhost` is none. -/
def fileAfterSlashes? (text : List Char) : Option Url := do
  let hostText := text.takeWhile fun c => !(isSlash c || endsPath c)
  if isDriveLetter hostText then
    some (withTail (fileUrl [] (extendPath .file ['/'] (upToQuery text))) text)
  else
    let rest := text.dropWhile fun c => !(isSlash c || endsPath c)
    let host ← if hostText.isEmpty then some [] else Host.special? hostText
    let host := if host == "localhost".toList then [] else host
    let pathText := upToQuery rest
    let host := if startsWithDriveLetter (pathText.drop 1) then [] else host
    some (withTail (fileUrl host (pathFromStart .file pathText)) rest)

/-- The drive letter a path starts with. -/
def driveOf? (path : List Char) : Option (List Char) :=
  let first := (path.drop 1).takeWhile (· != '/')
  if isNormalDriveLetter first then some first else none

/-- Read a file URL after its scheme, against a base that is a file URL too. -/
def readFile? (base : Option Url) (text : List Char) : Option Url :=
  match text with
  | c :: d :: rest =>
    if isSlash c && isSlash d then fileAfterSlashes? rest
    else if isSlash c then some (oneSlash text)
    else some (relative text)
  | [c] => if isSlash c then some (oneSlash text) else some (relative text)
  | [] => some (relative text)
where
  /-- A path from the root of the host, or of the drive, of the base. -/
  oneSlash (text : List Char) : Url :=
    let pathText := upToQuery text
    if startsWithDriveLetter (text.drop 1) then
      withTail (fileUrl [] (extendPath .file [] pathText)) text
    else
      match base with
      | none => withTail (fileUrl [] (extendPath .file [] pathText)) text
      | some base =>
        match driveOf? base.path with
        | some drive => withTail (fileUrl [] (extendPath .file ('/' :: drive) pathText)) text
        | none =>
          let host := (base.authority.map Authority.host).getD []
          withTail (fileUrl host (extendPath .file [] pathText)) text
  /-- A path from the place of the base. -/
  relative (text : List Char) : Url :=
    match base with
    | none => withTail (fileUrl [] (extendPath .file ['/'] (upToQuery text))) text
    | some base =>
      match text with
      | [] => { base with fragment := none }
      | '?' :: _ => withTail base text
      | '#' :: _ => withFragment base text
      | _ =>
        if startsWithDriveLetter text then
          withTail (fileUrl [] (extendPath .file ['/'] (upToQuery text))) text
        else
          let path := dropSegment .file base.path
          withTail { base with path := extendPath .file path (upToQuery text) } text

/-! ## Everything -/

/-- Read a reference against a base that is neither a file nor has an opaque path. -/
def readRelative? (base : Url) (text : List Char) : Option Url :=
  match text with
  | [] => some { base with fragment := none }
  | '?' :: _ => some (withTail base text)
  | '#' :: _ => some (withFragment base text)
  | c :: rest =>
    if isSlash c then
      if (rest.head?.map isSlash).getD false then
        afterSlashes? base.scheme
          (if text.take 2 == ['/', '/'] then text.drop 2 else text.dropWhile isSlash)
      else
        some (withTail { base with path := extendPath base.kind ['/'] (upToQuery rest) } text)
    else
      let path := dropSegment base.kind base.path
      let path := if path.isEmpty then ['/'] else path
      some (withTail { base with path := extendPath base.kind path (upToQuery text) } text)

/-- Read what follows a scheme other than `file` that is not special. -/
def readOther? (scheme text : List Char) : Option Url :=
  match text with
  | '/' :: '/' :: rest => afterSlashes? scheme rest
  | '/' :: rest =>
    some (withTail ⟨scheme, none, extendPath .other ['/'] (upToQuery rest), none, none⟩ rest)
  | _ =>
    some (withTail ⟨scheme, none, Percent.encode Host.isControl (upToQuery text), none, none⟩ text)

/-- The scheme of a text, in lower case, and what follows its colon. -/
def cutScheme? (text : List Char) : Option (List Char × List Char) :=
  match text with
  | [] => none
  | c :: _ =>
    if Ascii.isLetter c then
      let scheme := text.takeWhile fun c =>
        Ascii.isLetter c || Ascii.isDigit c || c == '+' || c == '-' || c == '.'
      match text.drop scheme.length with
      | ':' :: rest => some (scheme.map Ascii.toLower, rest)
      | _ => none
    else none

/-- Read what follows a scheme. -/
def afterScheme? (base : Option Url) (scheme text : List Char) : Option Url :=
  match kindOf scheme with
  | .file => readFile? (base.filter fun b => b.scheme == fileScheme) text
  | .special =>
    match base with
    | some base =>
      if (text.takeWhile isSlash).length < 2 && base.scheme == scheme then readRelative? base text
      else afterSlashes? scheme (text.dropWhile isSlash)
    | none => afterSlashes? scheme (text.dropWhile isSlash)
  | .other => readOther? scheme text

/-- Blanks and control characters at the ends go, tabs and line breaks go everywhere. -/
def cleaned (text : String) : List Char :=
  let isEdge (c : Char) : Bool := c.toNat ≤ 0x20
  let trimmed := ((text.toList.dropWhile isEdge).reverse.dropWhile isEdge).reverse
  trimmed.filter fun c => !(c == '\t' || c == '\n' || c == '\r')

/-- Read a text that starts with no scheme. -/
def withoutScheme? (base : Option Url) (text : List Char) : Option Url := do
  let base ← base
  if text.head? == some '#' then some (withFragment base text)
  else if base.hasOpaquePath then none
  else if base.kind == .file then readFile? (some base) text
  else readRelative? base text

/-- Read a text against a base. -/
def readAgainst? (base : Option Url) (text : String) : Option Url :=
  let text := cleaned text
  match cutScheme? text with
  | some (scheme, rest) => afterScheme? base scheme rest
  | none => withoutScheme? base text

/-- Read a text on its own. -/
def read? (text : String) : Option Url := readAgainst? none text

/-- Resolve a reference against a URL. -/
def join? (base : Url) (reference : String) : Option Url := readAgainst? (some base) reference

/-! ## File paths -/

/-- The path of a file URL, with its escapes decoded. -/
def filePath? (url : Url) : Option String :=
  let host := (url.authority.map Authority.host).getD []
  if url.path.head? == some '/' && (host.isEmpty || host == "localhost".toList) then
    some (String.ofList (Percent.decode url.path))
  else none

/-- The file URL of an absolute path. -/
def ofFilePath (path : String) : Url :=
  let segments := (splitOn '/' path.toList).filter fun segment => !segment.isEmpty
  let written := segments.flatMap fun segment => '/' :: Percent.encode inSegment segment
  fileUrl [] (if written.isEmpty then ['/'] else written)

end Url

end SchemaGraph
