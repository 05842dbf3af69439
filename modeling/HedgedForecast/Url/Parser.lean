import HedgedForecast.Url.Basic
import HedgedForecast.Url.Domain

/-! # Reading web addresses

Reading is forgiving: controls and spaces around the text and line breaks within it are dropped,
backslashes count as slashes in web addresses, and web schemes need no slashes at all. What can fail
is the scheme, the host and the port number.
-/

namespace HedgedForecast.Url

/-- How the scheme shapes the rest of an address. -/
inductive SchemeKind where
  /-- A host is required. -/
  | web
  /-- A host is possible; the path is one of files. -/
  | file
  /-- No rules beyond the general ones. -/
  | other
  deriving DecidableEq, Repr

/-- The kind of a scheme. -/
def schemeKind (scheme : String) : SchemeKind :=
  if ["http", "https", "ws", "wss", "ftp"].contains scheme then .web
  else if scheme == "file" then .file
  else .other

/-- Whether addresses of this kind belong to the web: backslashes are slashes there. -/
def SchemeKind.special : SchemeKind → Bool
  | other => false
  | _ => true

/-- The port number that a scheme implies. -/
def impliedPort? (scheme : String) : Option Nat :=
  if scheme == "http" || scheme == "ws" then some 80
  else if scheme == "https" || scheme == "wss" then some 443
  else if scheme == "ftp" then some 21
  else none

/-- Controls and spaces, which do not count at either end. -/
def isMargin (c : Char) : Bool :=
  c.toNat ≤ 32

/-- The text that counts. -/
def significant (cs : List Char) : List Char :=
  let inner := ((cs.dropWhile isMargin).reverse.dropWhile isMargin).reverse
  inner.filter fun c => c != '\t' && c != '\n' && c != '\r'

/-- Splits off the scheme and its colon. -/
def readScheme? (cs : List Char) : Option (String × List Char) :=
  let isPart := fun (c : Char) => c.isAlphanum || c == '+' || c == '-' || c == '.'
  match cs with
  | c :: _ =>
    if c.isAlpha then
      match cs.dropWhile isPart with
      | ':' :: rest => some (String.ofList ((cs.takeWhile isPart).map Char.toLower), rest)
      | _ => none
    else none
  | [] => none

/-- Whether the character parts segments of a path. -/
def isSlash (special : Bool) (c : Char) : Bool :=
  c == '/' || (special && c == '\\')

/-- Whether the character ends an authority. -/
def endsAuthority (special : Bool) (c : Char) : Bool :=
  isSlash special c || c == '?' || c == '#'

/-- The query and the fragment at the end of an address. -/
def readTail (special : Bool) (cs : List Char) : Option String × Option String :=
  let fragment := match cs.dropWhile (· != '#') with
    | _ :: rest => some (encode inFragmentSet rest)
    | [] => none
  let query := match cs.takeWhile (· != '#') with
    | '?' :: rest => some (encode (inQuerySet special) rest)
    | _ => none
  (query, fragment)

/-- Whether a segment means the segment above. -/
def isDoubleDot (segment : String) : Bool :=
  ["..", "%2e%2e", "%2e.", ".%2e"].contains (String.ofList (segment.toList.map Char.toLower))

/-- Whether a segment means no segment. -/
def isSingleDot (segment : String) : Bool :=
  [".", "%2e"].contains (String.ofList (segment.toList.map Char.toLower))

/-- Resolves dots in segments; those before come in reverse. -/
def resolveDots : List String → List String → List String
  | sofar, [] => sofar.reverse
  | sofar, [segment] =>
    if isDoubleDot segment then ("" :: sofar.drop 1).reverse
    else if isSingleDot segment then ("" :: sofar).reverse
    else (segment :: sofar).reverse
  | sofar, segment :: rest =>
    if isDoubleDot segment then resolveDots (sofar.drop 1) rest
    else if isSingleDot segment then resolveDots sofar rest
    else resolveDots (segment :: sofar) rest

/-- Cuts a path at its slashes. -/
def cutSegments (special : Bool) (cs : List Char) : List (List Char) :=
  cs.splitOnP (isSlash special)

/-- The normal form of a path that starts with a slash, written or implied. -/
def hierarchicalPath (special : Bool) (cs : List Char) : String :=
  let behind := match cs with
    | c :: rest => if isSlash special c then rest else cs
    | [] => []
  "/" ++ "/".intercalate (resolveDots [] ((cutSegments special behind).map (encode inPathSet)))

/-- Splits off user name and password, which end at the last `@` of the authority. -/
def readUser? (special : Bool) (cs : List Char) :
    Except Error (String × Option String × List Char) :=
  let authority := cs.takeWhile fun c => !endsAuthority special c
  if !authority.contains '@' then .ok ("", none, cs)
  else
    let host := (authority.reverse.takeWhile (· != '@')).reverse
    let user := authority.take (authority.length - host.length - 1)
    let rest := cs.drop (user.length + 1)
    if user.isEmpty && host.isEmpty && !rest.isEmpty then .error .emptyHost
    else
      let name := encode inUserSet (user.takeWhile (· != ':'))
      let password := encode inUserSet ((user.dropWhile (· != ':')).drop 1)
      .ok (name, if password == "" then none else some password, rest)

/-- Splits off the characters of a host; a colon in brackets belongs to it. -/
def takeHost (special : Bool) : Bool → List Char → List Char × List Char
  | _, [] => ([], [])
  | bracketed, c :: rest =>
    if endsAuthority special c || (c == ':' && !bracketed) then ([], c :: rest)
    else
      let bracketed := if c == '[' then true else if c == ']' then false else bracketed
      let (host, rest) := takeHost special bracketed rest
      (c :: host, rest)

/-- A host in brackets, with the opening one gone. -/
def readBracketed (cs : List Char) : Except Error Host :=
  if cs.getLast? == some ']' then
    match readIPv6? cs.dropLast with
    | some groups => .ok (.ipv6 groups)
    | none => .error .invalidIPv6
  else .error .invalidIPv6

/-- The host of a web address. -/
def readWebHost (cs : List Char) : Except Error Host :=
  match cs with
  | '[' :: rest => readBracketed rest
  | _ =>
    match (chars? (decodeBytes cs)).bind asciiDomain? with
    | none => .error .invalidDomain
    | some [] => .error .emptyHost
    | some name =>
      if endsInNumber name then
        match readIPv4? name with
        | some address => .ok (.ipv4 address)
        | none => .error .invalidIPv4
      else .ok (.domain (String.ofList name))

/-- ASCII characters that no host may hold. -/
def isForbiddenInHost (c : Char) : Bool :=
  ['\x00', '\t', '\n', '\r', ' ', '#', '/', ':', '<', '>', '?', '@', '[', '\\', ']', '^',
    '|'].contains c

/-- The host of any other address, which is taken as it is. -/
def readOpaqueHost (cs : List Char) : Except Error (Option Host) :=
  match cs with
  | [] => .ok none
  | '[' :: rest => (readBracketed rest).map some
  | _ =>
    if cs.any isForbiddenInHost then .error .invalidHostCharacter
    else .ok (some (.domain (encode isControl cs)))

/-- The port number behind a colon; nothing for the port number that the scheme implies. -/
def readPort (scheme : String) (cs : List Char) : Except Error (Option Nat × List Char) :=
  let digits := cs.takeWhile Char.isDigit
  let rest := cs.drop digits.length
  let number := digits.foldl (fun n c => n * 10 + (c.toNat - 48)) 0
  if 65535 < number then .error .invalidPort
  else if !(rest.head?.all fun c => ['/', '\\', '?', '#'].contains c) then .error .invalidPort
  else if digits.isEmpty || impliedPort? scheme == some number then .ok (none, rest)
  else .ok (some number, rest)

/-- The authority and the rest of an address. -/
def readAuthority (scheme : String) (kind : SchemeKind) (cs : List Char) :
    Except Error (Authority × List Char) := do
  let special := kind.special
  let (user, password, rest) ← readUser? special cs
  let (hostText, rest) := takeHost special false rest
  if kind == .web && hostText.isEmpty then throw .emptyHost
  let host ← if special then (readWebHost hostText).map some else readOpaqueHost hostText
  if host.isNone && (rest.head? == some ':' || user != "" || password.isSome) then
    throw .emptyHost
  match rest with
  | ':' :: rest => do
    let (number, rest) ← readPort scheme rest
    return (⟨user, password, host, number⟩, rest)
  | _ => return (⟨user, password, host, none⟩, rest)

/-- Splits off the path, which ends before a query or fragment. -/
def takePath (cs : List Char) : List Char × List Char :=
  let isPath := fun c => c != '?' && c != '#'
  (cs.takeWhile isPath, cs.dropWhile isPath)

/-- An address from `//` on, with these slashes gone. -/
def readWithAuthority (scheme : String) (kind : SchemeKind) (cs : List Char) :
    Except Error Url := do
  let (authority, rest) ← readAuthority scheme kind cs
  let (path, rest) := takePath rest
  let path :=
    if path.isEmpty && !kind.special then "" else hierarchicalPath kind.special path
  let (query, fragment) := readTail kind.special rest
  return ⟨scheme, some authority, path, query, fragment⟩

/-- The path of a file address: leading slashes count once. -/
def filePath (cs : List Char) : String :=
  "/" ++ String.ofList ((hierarchicalPath true cs).toList.dropWhile (· == '/'))

/-- Whether a text names a drive. -/
def isDrive (cs : List Char) : Bool :=
  match cs with
  | [letter, mark] => letter.isAlpha && (mark == ':' || mark == '|')
  | _ => false

/-- A file address, behind its scheme. -/
def readFile (cs : List Char) : Except Error Url := do
  let build := fun (host : Option Host) (rest : List Char) =>
    let (path, tail) := takePath rest
    let (query, fragment) := readTail true tail
    (⟨"file", some { host := host }, filePath path, query, fragment⟩ : Url)
  match cs with
  | a :: b :: rest =>
    if isSlash true a && isSlash true b then
      let hostText := rest.takeWhile fun c => !endsAuthority true c
      if hostText.isEmpty || isDrive hostText then return build none rest
      else
        let host ← readWebHost hostText
        let host := if host == .domain "localhost" then none else some host
        return build host (rest.drop hostText.length)
    else return build none cs
  | _ => return build none cs

/-- An address without authority. -/
def readWithoutAuthority (scheme : String) (cs : List Char) : Url :=
  let (path, rest) := takePath cs
  let (query, fragment) := readTail false rest
  let path := if path.head? == some '/' then hierarchicalPath false path else encode isControl path
  ⟨scheme, none, path, query, fragment⟩

/-- Reads a web address. -/
def parse (s : String) : Except Error Url :=
  match readScheme? (significant s.toList) with
  | none => .error .relative
  | some (scheme, rest) =>
    match schemeKind scheme with
    | .web => readWithAuthority scheme .web (rest.dropWhile (isSlash true))
    | .file => readFile rest
    | .other =>
      match rest with
      | '/' :: '/' :: rest => readWithAuthority scheme .other rest
      | _ => .ok (readWithoutAuthority scheme rest)

end HedgedForecast.Url
