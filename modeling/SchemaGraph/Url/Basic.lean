import SchemaGraph.Url.Host

set_option autoImplicit false

/-! # URLs

A URL in its parts, each already in its written form. A URL without authority whose path does
not start with a slash has an opaque path; nothing can be resolved against it but a fragment.
-/

namespace SchemaGraph

/-- Who serves a URL: the user before the host, with its `@`, the host, and a port other than
the default one. -/
structure Authority where
  user : List Char
  host : List Char
  port : Option Nat
  deriving DecidableEq, Repr

/-- A URL. The path is written with its slashes. -/
structure Url where
  scheme : List Char
  authority : Option Authority
  path : List Char
  query : Option (List Char)
  fragment : Option (List Char)
  deriving DecidableEq, Repr

namespace Url

/-- The sorts of schemes, which differ in how their URLs are read. -/
inductive Kind where
  | file
  | special
  | other
  deriving DecidableEq, Repr

def kindOf (scheme : List Char) : Kind :=
  if scheme == "file".toList then .file
  else if ["http".toList, "https".toList, "ws".toList, "wss".toList, "ftp".toList].contains scheme
    then .special
  else .other

/-- A backslash is as good as a slash. -/
def Kind.isSpecial (kind : Kind) : Bool := kind != .other

def defaultPort? (scheme : List Char) : Option Nat :=
  if scheme == "http".toList || scheme == "ws".toList then some 80
  else if scheme == "https".toList || scheme == "wss".toList then some 443
  else if scheme == "ftp".toList then some 21
  else none

def kind (url : Url) : Kind := kindOf url.scheme

/-- Nothing but a fragment can be resolved against the URL. -/
def hasOpaquePath (url : Url) : Bool :=
  url.authority.isNone && url.path.head? != some '/'

/-- The authority after its two slashes. -/
def authorityText (authority : Authority) : List Char :=
  authority.user ++ authority.host ++
    match authority.port with
    | some port => ':' :: Nat.toDigits 10 port
    | none => []

/-- What stands between the scheme and the query. A path of two slashes without an authority
is set off by `/.`. -/
def beforeQuery (url : Url) : List Char :=
  match url.authority with
  | some authority => '/' :: '/' :: authorityText authority ++ url.path
  | none =>
    match url.path with
    | '/' :: '/' :: _ => '/' :: '.' :: url.path
    | path => path

def text (url : Url) : String :=
  String.ofList (url.scheme ++ ':' :: url.beforeQuery ++
    (match url.query with
      | some query => '?' :: query
      | none => []) ++
    match url.fragment with
    | some fragment => '#' :: fragment
    | none => [])

/-! ## Characters that are escaped -/

def inFragment (c : Char) : Bool := Host.isControl c || [' ', '"', '<', '>', '\x60'].contains c

def inPath (c : Char) : Bool := inFragment c || ['#', '?', '\x7b', '\x7d'].contains c

def inUser (c : Char) : Bool :=
  inPath c || ['/', ':', ';', '=', '@', '[', '\\', ']', '^', '|'].contains c

def inQuery (kind : Kind) (c : Char) : Bool :=
  Host.isControl c || [' ', '"', '#', '<', '>'].contains c || (kind.isSpecial && c == '\'')

/-- What is escaped in a segment of a file path. -/
def inSegment (c : Char) : Bool := inPath c || ['/', '%', '\\'].contains c

end Url

end SchemaGraph
