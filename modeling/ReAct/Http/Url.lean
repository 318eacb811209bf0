import ReAct.Text.Quoted
import ReAct.Text.Search

/-!
# Addresses

An address as it is sent: in its path, its query and its fragment, the characters that may not stand
there are replaced by the numbers of their bytes, a path goes through no dot segments, and the host
is in lower case and without the service number that its scheme has anyway.
-/

namespace ReAct.Http.Url

open ReAct.Text

/-- A hexadecimal digit, in upper case. -/
def upperHexDigit (n : Nat) : Char :=
  if n < 10 then Char.ofNat ('0'.toNat + n) else Char.ofNat ('A'.toNat + (n - 10))

/-- A byte as a percent sign and two digits. -/
def encodedByte (b : UInt8) : List Char :=
  ['%', upperHexDigit (b.toNat / 16), upperHexDigit (b.toNat % 16)]

/-- A character by the numbers of its bytes. -/
def encodedChar (c : Char) : List Char :=
  (String.ofList [c]).toUTF8.toList.flatMap encodedByte

/-- Encodes every character that is not safe. -/
def encode (safe : Char → Bool) (s : List Char) : List Char :=
  s.flatMap fun c => if safe c then [c] else encodedChar c

/-- A printable ASCII character other than those listed. -/
def printableExcept (listed : List Char) (c : Char) : Bool :=
  0x20 < c.toNat && c.toNat < 0x7F && !listed.contains c

/-- A character that may stand in a path. -/
def pathSafe : Char → Bool :=
  printableExcept ['"', '#', '<', '>', '?', '\x60', '\x7b', '\x7d']

/-- A character that may stand in a query. -/
def querySafe : Char → Bool :=
  printableExcept ['"', '#', '<', '>']

/-- A character that may stand in a fragment. -/
def fragmentSafe : Char → Bool :=
  printableExcept ['"', '<', '>', '\x60']

/-- The texts between the slashes of a path. -/
def segments (s : List Char) : List (List Char) :=
  go [] s
where
  /-- `segment` is the current one so far, in reverse. -/
  go (segment : List Char) : List Char → List (List Char)
    | [] => [segment.reverse]
    | c :: s => if c = '/' then segment.reverse :: go [] s else go (c :: segment) s

/-- Follows dot segments; `passed` holds the segments so far, in reverse. -/
def withoutDots (passed : List (List Char)) : List (List Char) → List (List Char)
  | [] => passed.reverse
  | ['.'] :: rest => withoutDots passed rest
  | ['.', '.'] :: rest =>
    match passed with
    | [] => withoutDots [] rest
    | [[]] => withoutDots [[]] rest
    | _ :: passed => withoutDots passed rest
  | segment :: rest => withoutDots (segment :: passed) rest

/-- A path as it is sent. -/
def path (s : List Char) : List Char :=
  join ['/'] (withoutDots [] (segments (encode pathSafe s)))

/-- What follows a path as it is sent: the query, and the fragment. -/
def tail (s : List Char) : List Char :=
  let (query, fragment) := s.span fun c => c ≠ '#'
  let query :=
    match query with
    | '?' :: query => '?' :: encode querySafe query
    | _ => []
  match fragment with
  | '#' :: fragment => query ++ '#' :: encode fragmentSafe fragment
  | _ => query

/-- The service number that a scheme has anyway, behind its colon. -/
def defaultService? (scheme : List Char) : Option (List Char) :=
  if scheme = ['h', 't', 't', 'p'] then some [':', '8', '0']
  else if scheme = ['h', 't', 't', 'p', 's'] then some [':', '4', '4', '3']
  else none

/-- A host with its service number as it is sent. -/
def authority (scheme s : List Char) : List Char :=
  let s := s.map Char.toLower
  match defaultService? scheme with
  | none => s
  | some service =>
    if service.reverse.isPrefixOf s.reverse then s.take (s.length - service.length) else s

/-- An address as it is sent. -/
def normal (s : List Char) : List Char :=
  match s.span fun c => c ≠ ':' with
  | (scheme, ':' :: '/' :: '/' :: rest) =>
    let scheme := scheme.map Char.toLower
    let (host, rest) := rest.span fun c => c ≠ '/' && c ≠ '?' && c ≠ '#'
    let (way, rest) := rest.span fun c => c ≠ '?' && c ≠ '#'
    scheme ++ ':' :: '/' :: '/' :: authority scheme host ++ path way ++ tail rest
  | _ =>
    let (way, rest) := s.span fun c => c ≠ '?' && c ≠ '#'
    encode pathSafe way ++ tail rest

/-- `normal` on strings. -/
def normalText (s : String) : String :=
  String.ofList (normal s.toList)

/-- An address without its query. -/
def withoutQuery (s : String) : String :=
  String.ofList (s.toList.takeWhile fun c => c ≠ '?')

end ReAct.Http.Url
