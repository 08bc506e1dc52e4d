import BuildLog.Text.Blank
import BuildLog.Text.Decimal
import BuildLog.Url.Host

/-!
# Addresses

The address of a web page: a scheme, a host, perhaps the number of a service on it, a path and
perhaps a query. Reading one forgives much: blanks around it, tabs and line breaks inside it, any
number of slashes of either kind before the host. User names and fragments are read over, since no
request sends them.

* `ofText?_eq_none_of_scheme`: only addresses of the two web schemes are read.
-/

namespace BuildLog

/-- An address that a request can be sent to. Path and query are encoded. -/
structure Url where
  secure : Bool
  host : Host
  /-- The number of the service on the host, if it is given. -/
  service : Option Nat := none
  /-- The parts of the path between its slashes. -/
  path : List Text
  query : Option Text := none
  deriving DecidableEq, Repr

namespace Url

/-- Whether a character is dropped at both ends of an address: a blank of ASCII or a control
character. -/
def isEdge (c : Char) : Bool := c.toNat ≤ 0x20

/-- Whether a character is dropped everywhere in an address. -/
def isDropped (c : Char) : Bool := c == '\t' || c == '\n' || c == '\r'

/-- The text of an address without what is dropped from it. -/
def cleaned (s : Text) : Text := (Text.strip isEdge s).filter (!isDropped ·)

/-- Whether a character can stand in a scheme behind the first letter. -/
def isSchemeChar (c : Char) : Bool := c.isAlphanum || c == '+' || c == '-' || c == '.'

/-- The scheme of a text in small letters, and what follows its colon. -/
def scheme? (s : Text) : Option (Text × Text) :=
  match s.span isSchemeChar with
  | (c :: scheme, ':' :: rest) =>
    if c.isAlpha then some ((c :: scheme).map Char.toLower, rest) else none
  | _ => none

/-- Whether an address with a scheme is a web address, and if so, whether it is a secure one. -/
def secure? (scheme : Text) : Option Bool :=
  if scheme = "http".toList then some false
  else if scheme = "https".toList then some true
  else none

def isSlash (c : Char) : Bool := c == '/' || c == '\\'

/-- Whether a character ends what stands before the path. -/
def endsAuthority (c : Char) : Bool := isSlash c || c == '?' || c == '#'

/-- What follows the user name, which ends with the last at sign. -/
def withoutUser (authority : Text) : Text :=
  (authority.reverse.takeWhile (· != '@')).reverse

/-- The host and what follows it: a colon outside brackets ends the host. -/
def cutHost (inBrackets : Bool) : Text → Text × Text
  | [] => ([], [])
  | c :: s =>
    if c = ':' ∧ inBrackets = false then ([], c :: s)
    else
      let inside := if c = '[' then true else if c = ']' then false else inBrackets
      let (host, rest) := cutHost inside s
      (c :: host, rest)

/-- The service that is given behind a host, if this is well formed: nothing, or a colon and perhaps
a number. -/
def service? : Text → Option (Option Nat)
  | [] => some none
  | _ :: [] => some none
  | _ :: s =>
    match Text.Number.readDigits Text.Number.largest16 0 s with
    | .ok n => some (some n)
    | .error _ => none

/-- Whether a part of a path means the path so far: a single full stop, perhaps encoded. -/
def isHere (s : Text) : Bool :=
  let s := s.map Char.toLower
  s == ['.'] || s == "%2e".toList

/-- Whether a part of a path leads one part back: two full stops, perhaps encoded. -/
def isBack (s : Text) : Bool :=
  let s := s.map Char.toLower
  s == "..".toList || s == ".%2e".toList || s == "%2e.".toList || s == "%2e%2e".toList

/-- Follow the parts of a path, behind parts in reverse. A part that leads back, or nowhere, leaves
an empty part behind at the end. -/
def resolve (before : List Text) : List Text → List Text
  | [] => before.reverse
  | [s] =>
    if isBack s then ([] :: before.tail).reverse
    else if isHere s then ([] :: before).reverse
    else (s :: before).reverse
  | s :: rest =>
    if isBack s then resolve before.tail rest
    else if isHere s then resolve before rest
    else resolve (s :: before) rest

/-- Whether a visible ASCII character is encoded in a path. -/
def isUnsafeInPath (c : Char) : Bool := c ∈ " \"#<>?`\x7b\x7d".toList

/-- Whether a visible ASCII character is encoded in a query. -/
def isUnsafeInQuery (c : Char) : Bool := c ∈ " \"#<>'".toList

/-- The parts of the path that a text writes. -/
def pathOfText (s : Text) : List Text :=
  let parts := match s with
    | [] => [[]]
    | _ :: s => Text.splitWhere isSlash s
  (resolve [] parts).map (Percent.encode isUnsafeInPath)

/-- The query that a text writes, if it begins with a question mark. -/
def queryOfText : Text → Option Text
  | '?' :: s => some (Percent.encode isUnsafeInQuery (s.takeWhile (· != '#')))
  | _ => none

def ofText? (s : Text) : Option Url := do
  let (scheme, rest) ← scheme? (cleaned s)
  let secure ← secure? scheme
  let (authority, rest) := (rest.dropWhile isSlash).span (!endsAuthority ·)
  let (host, rest') := cutHost false (withoutUser authority)
  let host ← Host.ofText? host
  let service ← service? rest'
  let (path, rest) := rest.span fun c => c != '?' && c != '#'
  return { secure := secure, host := host, service := service, path := pathOfText path,
           query := queryOfText rest }

/-- Whether a text, blanks around it apart, is a web address. -/
def isWeb (s : Text) : Bool := (ofText? (Text.trim s)).isSome

/-- An address with a parameter put behind its query. -/
def withParameter (url : Url) (name value : Text) : Url :=
  let parameter := name ++ '=' :: value
  match url.query with
  | none | some [] => { url with query := some parameter }
  | some query => { url with query := some (query ++ '&' :: parameter) }

/-- What a request for an address asks for: its path and query. -/
def target (url : Url) : Text :=
  url.path.flatMap ('/' :: ·) ++ (url.query.map ('?' :: ·)).getD []

theorem ofText?_eq_none_of_scheme {s scheme rest : Text}
    (h : scheme? (cleaned s) = some (scheme, rest)) (hs : secure? scheme = none) : ofText? s = none := by
  simp [ofText?, h, hs]

end Url

end BuildLog
