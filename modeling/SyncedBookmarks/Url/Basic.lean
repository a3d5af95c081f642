import SyncedBookmarks.Url.Percent
import SyncedBookmarks.Url.Domain

namespace SyncedBookmarks

/-! Absolute URLs: reading them by the rules of the URL standard, and writing them in normal
form. -/

inductive UrlError where
  | relativeWithoutBase
  | emptyHost
  | invalidPort
  | invalidIpv4Address
  | invalidIpv6Address
  | invalidDomainCharacter
  | invalidInternationalName
  deriving DecidableEq, Repr

def UrlError.message : UrlError → String
  | .relativeWithoutBase => "relative URL without a base"
  | .emptyHost => "empty host"
  | .invalidPort => "invalid port number"
  | .invalidIpv4Address => "invalid IPv4 address"
  | .invalidIpv6Address => "invalid IPv6 address"
  | .invalidDomainCharacter => "invalid domain character"
  | .invalidInternationalName => "invalid international domain name"

inductive Host where
  | domain (name : String)
  | ipv4 (address : Nat)
  | ipv6 (pieces : List Nat)
  deriving DecidableEq, Repr

def Host.text : Host → String
  | .domain name => name
  | .ipv4 address => Ipv4.text address
  | .ipv6 pieces => "[" ++ Ipv6.text pieces ++ "]"

/-- What follows the authority: a list of segments, each written after a slash, or a text that
cannot be taken apart. -/
inductive UrlPath where
  | segments (list : List String)
  | plain (text : String)
  deriving DecidableEq, Repr

def UrlPath.text : UrlPath → String
  | .segments list => String.join (list.map ("/" ++ ·))
  | .plain text => text

structure Url where
  scheme : String
  username : String := ""
  password : String := ""
  /-- `none` when there is no authority; the empty domain when the authority names no host. -/
  host : Option Host
  port : Option Nat := none
  path : UrlPath
  query : Option String := none
  fragment : Option String := none
  deriving DecidableEq, Repr

/-- How the parts of a URL are read, by its scheme. -/
inductive SchemeClass where
  | file
  | special
  | other
  deriving DecidableEq, Repr

namespace Url

def schemeClass (scheme : String) : SchemeClass :=
  if ["http", "https", "ws", "wss", "ftp"].contains scheme then .special
  else if scheme = "file" then .file
  else .other

def defaultPort? (scheme : String) : Option Nat :=
  if scheme = "http" ∨ scheme = "ws" then some 80
  else if scheme = "https" ∨ scheme = "wss" then some 443
  else if scheme = "ftp" then some 21
  else none

/-! ### Reading -/

def isEdge (c : Char) : Bool :=
  c.toNat ≤ 0x20

/-- The text without blanks and controls around it and without tabs and line ends in it. -/
def cleaned (text : String) : List Char :=
  let trimmed := ((text.toList.dropWhile isEdge).reverse.dropWhile isEdge).reverse
  trimmed.filter fun c => !(['\t', '\n', '\r'].contains c)

def isSchemeChar (c : Char) : Bool :=
  c.isAlphanum || ['+', '-', '.'].contains c

def splitScheme? (input : List Char) : Option (String × List Char) :=
  let scheme := input.takeWhile isSchemeChar
  match input.head?, input.dropWhile isSchemeChar with
  | some first, ':' :: rest =>
      if first.isAlpha then some (String.ofList (scheme.map Char.toLower), rest) else none
  | _, _ => none

def isSlash (scheme : SchemeClass) (c : Char) : Bool :=
  c = '/' || (c = '\\' && scheme != .other)

def endsAuthority (scheme : SchemeClass) (c : Char) : Bool :=
  isSlash scheme c || c = '?' || c = '#'

/-- The part before the last at-sign of an authority, and the rest of the input. -/
def splitUserinfo (scheme : SchemeClass) (input : List Char) :
    Option (List Char) × List Char :=
  let authority := input.takeWhile fun c => !endsAuthority scheme c
  let host := (authority.reverse.takeWhile (· ≠ '@')).reverse
  if host.length = authority.length then (none, input)
  else
    let info := authority.take (authority.length - host.length - 1)
    (some info, input.drop (info.length + 1))

/-- The length of a host at the start of the input: a colon ends it outside brackets. -/
def hostLength (scheme : SchemeClass) (bracketed : Bool) : List Char → Nat
  | [] => 0
  | c :: rest =>
      if (c = ':' ∧ !bracketed) ∨ endsAuthority scheme c then 0
      else
        1 + hostLength scheme (if c = '[' then true else if c = ']' then false else bracketed) rest

def isForbiddenInHost (c : Char) : Bool :=
  ['\x00', '\t', '\n', '\r', ' ', '#', '/', ':', '<', '>', '?', '@', '[', '\\', ']', '^',
    '|'].contains c

def readBracketed (text : List Char) : Except UrlError Host :=
  if text.getLast? = some ']' then
    match Ipv6.parse? (text.drop 1).dropLast with
    | some pieces => .ok (.ipv6 pieces)
    | none => .error .invalidIpv6Address
  else .error .invalidIpv6Address

/-- A host that no registry knows: kept as it stands. -/
def readPlainHost (text : List Char) : Except UrlError Host :=
  if text.head? = some '[' then readBracketed text
  else if text.any isForbiddenInHost then .error .invalidDomainCharacter
  else .ok (.domain (String.ofList (Percent.encode Percent.isControl text)))

def readHost (text : List Char) : Except UrlError Host :=
  if text.head? = some '[' then readBracketed text
  else
    match (Bytes.text? (Percent.decode (Bytes.ofText (String.ofList text)))).bind
        fun domain => Domain.toAscii? domain.toList with
    | none => .error .invalidInternationalName
    | some domain =>
        if domain.isEmpty then .error .emptyHost
        else if Ipv4.endsInNumber domain then
          match Ipv4.parse? domain with
          | some address => .ok (.ipv4 address)
          | none => .error .invalidIpv4Address
        else .ok (.domain (String.ofList domain))

/-- A port after its colon, `none` when it is empty or the scheme's own. -/
def readPort (scheme : String) (input : List Char) :
    Except UrlError (Option Nat × List Char) :=
  let digits := input.takeWhile Char.isDigit
  let rest := input.dropWhile Char.isDigit
  let port := digits.foldl (fun value c => value * 10 + (c.toNat - 48)) 0
  let ends := match rest with | c :: _ => ['/', '\\', '?', '#'].contains c | [] => true
  if 65535 < port ∨ !ends then .error .invalidPort
  else if digits.isEmpty ∨ defaultPort? scheme = some port then .ok (none, rest)
  else .ok (some port, rest)

def lowerText (text : List Char) : List Char :=
  text.map Char.toLower

def isSingleDot (segment : List Char) : Bool :=
  [".", "%2e"].contains (String.ofList (lowerText segment))

def isDoubleDot (segment : List Char) : Bool :=
  ["..", ".%2e", "%2e.", "%2e%2e"].contains (String.ofList (lowerText segment))

def isDriveLetter (segment : List Char) : Bool :=
  match segment with
  | [letter, mark] => letter.isAlpha && (mark = ':' || mark = '|')
  | _ => false

/-- The segments of a path between its slashes. -/
def splitSegments (scheme : SchemeClass) : List Char → List (List Char)
  | [] => [[]]
  | c :: rest =>
      if isSlash scheme c then [] :: splitSegments scheme rest
      else
        match splitSegments scheme rest with
        | segment :: segments => (c :: segment) :: segments
        | [] => [[c]]

/-- Whether a segment names a drive: no double dot takes it back. Where a backslash does not
separate segments, one may follow the drive letter. -/
def namesDrive : List Char → Bool
  | letter :: mark :: rest =>
      isDriveLetter [letter, mark] && (rest.isEmpty || rest.head? = some '\\')
  | _ => false

/-- A path as far as it is read: its segments, last first, and whether a drive letter has stood at
the front of the path of a file. -/
structure PathSoFar where
  kept : List (List Char) := []
  drive : Bool := false

def PathSoFar.leave (path : PathSoFar) : PathSoFar :=
  match path.kept with
  | last :: rest => if namesDrive last then path else { path with kept := rest }
  | [] => path

def PathSoFar.enter (path : PathSoFar) (scheme : SchemeClass) (segment : List Char) : PathSoFar :=
  if scheme = .file ∧ path.kept.isEmpty ∧ isDriveLetter segment then
    { kept := [segment.take 1 ++ [':']], drive := true }
  else { path with kept := Percent.encode Percent.inPath segment :: path.kept }

/-- Reads the segments in turn. A dot at the end of a path leaves a slash there. -/
def PathSoFar.read (path : PathSoFar) (scheme : SchemeClass) : List (List Char) → PathSoFar
  | [] => path
  | segment :: rest =>
      let next :=
        if isDoubleDot segment then path.leave
        else if isSingleDot segment then path
        else path.enter scheme segment
      if rest.isEmpty ∧ (isDoubleDot segment ∨ isSingleDot segment) then
        { next with kept := [] :: next.kept }
      else next.read scheme rest

/-- The segments in order; the path of a file does not begin with empty ones. -/
def PathSoFar.segments (path : PathSoFar) (scheme : SchemeClass) : List String :=
  let segments := path.kept.reverse
  let segments :=
    if scheme = .file then
      match segments.dropWhile List.isEmpty with
      | [] => [[]]
      | named => named
    else segments
  segments.map String.ofList

/-- The path before a query or a fragment. A special scheme always has one. -/
def readPath (scheme : SchemeClass) (input : List Char) : PathSoFar :=
  match input with
  | [] => if scheme = .other then {} else { kept := [[]] }
  | c :: rest =>
      let rest := if isSlash scheme c then rest else c :: rest
      PathSoFar.read {} scheme (splitSegments scheme rest)

structure Tail where
  path : List Char
  query : Option String
  fragment : Option String

/-- Splits off the query and the fragment. -/
def splitTail (scheme : SchemeClass) (input : List Char) : Tail :=
  let path := input.takeWhile fun c => c ≠ '?' && c ≠ '#'
  let rest := input.dropWhile fun c => c ≠ '?' && c ≠ '#'
  let encodedQuery := fun text =>
    String.ofList (Percent.encode
      (if scheme = .special then Percent.inSpecialQuery else Percent.inQuery) text)
  let encodedFragment := fun text => String.ofList (Percent.encode Percent.inFragment text)
  match rest with
  | '?' :: rest =>
      let query := encodedQuery (rest.takeWhile (· ≠ '#'))
      match rest.dropWhile (· ≠ '#') with
      | '#' :: fragment => ⟨path, some query, some (encodedFragment fragment)⟩
      | _ => ⟨path, some query, none⟩
  | '#' :: fragment => ⟨path, none, some (encodedFragment fragment)⟩
  | _ => ⟨path, none, none⟩

def noHost : Option Host :=
  some (.domain "")

/-- The URL with a path, a query and a fragment. A drive letter at the front of the path of a file
leaves no host. -/
def withTail (scheme : String) (host : Option Host) (input : List Char) : Url :=
  let kind := schemeClass scheme
  let tail := splitTail kind input
  let path := readPath kind tail.path
  { scheme
    host := if path.drive then noHost else host
    path := .segments (path.segments kind)
    query := tail.query
    fragment := tail.fragment }

def userinfoText (text : List Char) : String :=
  String.ofList (Percent.encode Percent.inUserinfo text)

/-- Reads what follows the two slashes before an authority. -/
def readAuthority (scheme : String) (input : List Char) : Except UrlError Url := do
  let kind := schemeClass scheme
  let (info, rest) := splitUserinfo kind input
  if info = some [] ∧ (rest.head?.any (endsAuthority kind)) then
    throw .emptyHost
  let username := (info.getD []).takeWhile (· ≠ ':')
  let password := ((info.getD []).dropWhile (· ≠ ':')).drop 1
  let name := rest.take (hostLength kind false rest)
  let rest := rest.drop name.length
  if name.isEmpty ∧ kind = .special then
    throw .emptyHost
  let host ← if kind = .special then readHost name else readPlainHost name
  if host = .domain "" ∧ rest.head? = some ':' then
    throw .emptyHost
  let (port, rest) ←
    match rest with
    | ':' :: rest => readPort scheme rest
    | rest => pure (none, rest)
  if host = .domain "" ∧ (!username.isEmpty ∨ !password.isEmpty) then
    throw .emptyHost
  pure
    { withTail scheme (some host) rest with
      username := userinfoText username
      password := userinfoText password
      port }

/-- Reads what follows `file:`. A drive letter in the place of the host is part of the path. -/
def readFile (input : List Char) : Except UrlError Url := do
  match input with
  | a :: b :: rest =>
      if isSlash .file a ∧ isSlash .file b then
        let name := rest.takeWhile fun c => !endsAuthority .file c
        if isDriveLetter name then
          return withTail "file" noHost ('/' :: rest)
        let host ← if name.isEmpty then pure (.domain "") else readHost name
        let host := if host = .domain "localhost" then .domain "" else host
        pure (withTail "file" (some host) (rest.drop name.length))
      else pure (withTail "file" noHost input)
  | _ => pure (withTail "file" noHost input)

def parse (text : String) : Except UrlError Url :=
  match splitScheme? (cleaned text) with
  | none => .error .relativeWithoutBase
  | some (scheme, rest) =>
      match schemeClass scheme with
      | .file => readFile rest
      | .special => readAuthority scheme (rest.dropWhile (isSlash .special))
      | .other =>
          match rest with
          | '/' :: '/' :: rest => readAuthority scheme rest
          | '/' :: rest => .ok (withTail scheme none ('/' :: rest))
          | rest =>
              let tail := splitTail .other rest
              .ok
                { scheme, host := none
                  path := .plain (String.ofList (Percent.encode Percent.isControl tail.path))
                  query := tail.query, fragment := tail.fragment }

/-! ### Writing -/

def hostText? (url : Url) : Option String :=
  match url.host with
  | none => none
  | some host => if host = .domain "" then none else some host.text

def hasPlainPath (url : Url) : Bool :=
  match url.path with
  | .plain _ => true
  | .segments _ => false

/-- The port in the URL, or else the scheme's. -/
def effectivePort? (url : Url) : Option Nat :=
  url.port <|> defaultPort? url.scheme

def userinfo (url : Url) : String :=
  let password := if url.password.isEmpty then "" else ":" ++ url.password
  if url.username.isEmpty ∧ url.password.isEmpty then "" else url.username ++ password ++ "@"

def portText (url : Url) : String :=
  match url.port with
  | some port => ":" ++ toString port
  | none => ""

/-- What keeps two slashes at the start of a path from reading as the start of an authority. -/
def pathMark (url : Url) : String :=
  if url.path.text.startsWith "//" then "/." else ""

/-- The URL up to its path, with a single slash as the path. -/
def rootText (url : Url) : String :=
  match url.host with
  | some host => url.scheme ++ "://" ++ url.userinfo ++ host.text ++ url.portText ++ "/"
  | none => url.scheme ++ ":" ++ url.pathMark ++ "/"

/-- Path and query. -/
def resource (url : Url) : String :=
  match url.query with
  | some query => url.path.text ++ "?" ++ query
  | none => url.path.text

/-- The origin; a `blob` URL has the one of the URL in its path. -/
def originText : Nat → Url → String
  | 0, _ => "null"
  | fuel + 1, url =>
      if schemeClass url.scheme = .special then
        url.scheme ++ "://" ++ (url.hostText?.getD "") ++ url.portText
      else if url.scheme = "blob" then
        match parse url.path.text with
        | .ok inner => originText fuel inner
        | .error _ => "null"
      else "null"

def origin (url : Url) : String :=
  url.originText (url.path.text.length + 1)

end Url

end SyncedBookmarks
