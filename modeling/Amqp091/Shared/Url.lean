import Amqp091.Shared.Netip

/-! # URLs

The parts of Go's `net/url` that a scheme with an authority, a path and a query needs,
over bytes: escaping, parsing, printing and the query parameters. -/

namespace Url

open ByteCodec
open Decimal (isDigit)

inductive Encoding where
  | path
  | userPassword
  | queryComponent
  | fragment
  | host
  | zone
  deriving DecidableEq, Repr

/-- `escape` is `EscapeError` with the malformed sequence, `invalidHost` is
`InvalidHostError` with the byte, `invalidAddress` is what `netip` makes of the text in
brackets. -/
inductive Error where
  | controlCharacter
  | missingScheme
  | colonInFirstSegment
  | escape (s : Bytes)
  | invalidHost (c : UInt8)
  | missingBracket
  | invalidLiteral
  | invalidAddress (address : Bytes)
  | invalidPort (colonPort : Bytes)
  | invalidUserinfo
  deriving DecidableEq, Repr

/-! ## Strings -/

/-- The bytes of an ASCII string. -/
def ascii (s : String) : Bytes := s.toList.map Char.toUInt8

/-- `strings.Cut` at the first `c`. -/
def cut (c : UInt8) : Bytes → Bytes × Option Bytes
  | [] => ([], none)
  | b :: s => if b = c then ([], some s) else (b :: (cut c s).1, (cut c s).2)

/-- The bytes before and behind the last `c`. -/
def cutLast (c : UInt8) : Bytes → Option (Bytes × Bytes)
  | [] => none
  | b :: s =>
      match cutLast c s with
      | some (x, y) => some (b :: x, y)
      | none => if b = c then some ([], s) else none

def isAlpha (c : UInt8) : Bool :=
  ('a'.toUInt8 ≤ c && c ≤ 'z'.toUInt8) || ('A'.toUInt8 ≤ c && c ≤ 'Z'.toUInt8)

/-- `strings.ToLower` on ASCII letters. -/
def toLower (c : UInt8) : UInt8 :=
  if 'A'.toUInt8 ≤ c && c ≤ 'Z'.toUInt8 then c + 32 else c

def isControl (c : UInt8) : Bool := c < 0x20 || c = 0x7f

/-! ## Escaping -/

/-- The characters that a host may have besides the unreserved ones; the last two are the
quotation marks. -/
def hostCharacters : Bytes :=
  ['!', '$', '&', '(', ')', '*', '+', ',', ';', '=', ':', '[', ']', '<', '>'].map Char.toUInt8 ++
    [0x22, 0x27]

def markCharacters : Bytes := ['-', '_', '.', '~'].map Char.toUInt8

def reservedCharacters : Bytes :=
  ['$', '&', '+', ',', '/', ':', ';', '=', '?', '@'].map Char.toUInt8

def shouldEscape (c : UInt8) (mode : Encoding) : Bool :=
  if isAlpha c || isDigit c then false
  else if (mode = .host || mode = .zone) && hostCharacters.contains c then false
  else if markCharacters.contains c then false
  else
    match mode, reservedCharacters.contains c with
    | .path, true => c = '?'.toUInt8
    | .userPassword, true => ['@', '/', '?', ':'].any fun x => c = x.toUInt8
    | .queryComponent, true => true
    | .fragment, true => false
    | .fragment, false => !(['!', '(', ')', '*'].any fun x => c = x.toUInt8)
    | _, _ => true

/-- One digit, in upper case. -/
def upperhex (n : UInt8) : UInt8 := if n < 10 then '0'.toUInt8 + n else 'A'.toUInt8 + (n - 10)

def escapeByte (mode : Encoding) (c : UInt8) : Bytes :=
  if shouldEscape c mode then
    if c = ' '.toUInt8 && mode = .queryComponent then ['+'.toUInt8]
    else ['%'.toUInt8, upperhex (c >>> 4), upperhex (c &&& 15)]
  else [c]

def escape (s : Bytes) (mode : Encoding) : Bytes := s.flatMap (escapeByte mode)

def ishex (c : UInt8) : Bool :=
  isDigit c || ('a'.toUInt8 ≤ c && c ≤ 'f'.toUInt8) || ('A'.toUInt8 ≤ c && c ≤ 'F'.toUInt8)

def unhex (c : UInt8) : UInt8 :=
  if isDigit c then c - '0'.toUInt8
  else if 'a'.toUInt8 ≤ c && c ≤ 'f'.toUInt8 then c - 'a'.toUInt8 + 10
  else c - 'A'.toUInt8 + 10

/-- In a host only bytes outside of ASCII and the percent sign may be escaped, in a zone
those that a host may have unescaped, the percent sign and the space. -/
def mayUnescape (mode : Encoding) (a b : UInt8) : Bool :=
  let v := unhex a <<< 4 ||| unhex b
  let percent := a = '2'.toUInt8 && b = '5'.toUInt8
  match mode with
  | .host => !(unhex a < 8) || percent
  | .zone => percent || v = ' '.toUInt8 || !shouldEscape v .host
  | _ => true

/-- A byte that stands for itself. -/
def mayStand (mode : Encoding) (c : UInt8) : Bool :=
  !((mode = .host || mode = .zone) && c < 0x80 && shouldEscape c mode)

/-- The space is written as a plus sign in a query. -/
def unescapeByte (mode : Encoding) (c : UInt8) : UInt8 :=
  if c = '+'.toUInt8 && mode = .queryComponent then ' '.toUInt8 else c

def unescape (s : Bytes) (mode : Encoding) : Except Error Bytes :=
  match s with
  | [] => .ok []
  | c :: rest =>
      if c = '%'.toUInt8 then
        match rest with
        | a :: b :: rest =>
            if ishex a && ishex b && mayUnescape mode a b then
              (unescape rest mode).map ((unhex a <<< 4 ||| unhex b) :: ·)
            else .error (.escape [c, a, b])
        | rest => .error (.escape (c :: rest))
      else if mayStand mode c then (unescape rest mode).map (unescapeByte mode c :: ·)
      else .error (.invalidHost c)

/-- `validEncoded`: the bytes of an encoded form. -/
def validEncoded (s : Bytes) (mode : Encoding) : Bool :=
  s.all fun c =>
    ['!', '$', '&', '(', ')', '*', '+', ',', ';', '=', ':', '@', '[', ']', '%'].any
      (fun x => c = x.toUInt8) || c = 0x27 || !shouldEscape c mode

/-- `raw` is an encoded form of `s`. -/
def isRawForm (raw s : Bytes) (mode : Encoding) : Bool :=
  raw ≠ [] ∧ validEncoded raw mode ∧ unescape raw mode = .ok s

/-! ## URLs -/

structure Userinfo where
  username : Bytes
  password : Bytes
  passwordSet : Bool
  deriving DecidableEq, Repr

/-- `User`. -/
def user (username : Bytes) : Userinfo := ⟨username, [], false⟩

def userPassword (username password : Bytes) : Userinfo := ⟨username, password, true⟩

/-- `rootless` is the part behind the scheme of an URL like `mailto:a`. -/
structure URL where
  scheme : Bytes := []
  rootless : Bytes := []
  user : Option Userinfo := none
  host : Bytes := []
  path : Bytes := []
  rawPath : Bytes := []
  omitHost : Bool := false
  forceQuery : Bool := false
  rawQuery : Bytes := []
  fragment : Bytes := []
  rawFragment : Bytes := []
  deriving DecidableEq, Repr

/-! ## Parsing -/

/-- The scheme and the rest. `first` is the first byte of the URL. -/
def schemeLoop (url : Bytes) : Bool → Bytes → Bytes → Except Error (Bytes × Bytes)
  | _, _, [] => .ok ([], url)
  | first, front, c :: rest =>
      if isAlpha c then schemeLoop url false (front ++ [c]) rest
      else if isDigit c || c = '+'.toUInt8 || c = '-'.toUInt8 || c = '.'.toUInt8 then
        if first then .ok ([], url) else schemeLoop url false (front ++ [c]) rest
      else if c = ':'.toUInt8 then
        if first then .error .missingScheme else .ok (front, rest)
      else .ok ([], url)

def getScheme (url : Bytes) : Except Error (Bytes × Bytes) := schemeLoop url true [] url

def validOptionalPort (port : Bytes) : Bool :=
  match port with
  | [] => true
  | c :: rest => c = ':'.toUInt8 && rest.all isDigit

/-- The text before and from the first `%25` on. -/
def cutZone : Bytes → Option (Bytes × Bytes)
  | [] => none
  | c :: s =>
      if ['%'.toUInt8, '2'.toUInt8, '5'.toUInt8].isPrefixOf (c :: s) then some ([], c :: s)
      else (cutZone s).map fun (x, y) => (c :: x, y)

/-- The text in brackets, where escapes have another meaning from the zone on. -/
def unescapeLiteral (hostname : Bytes) : Except Error Bytes :=
  match cutZone hostname with
  | some (front, zone) => do
      let hostPart ← unescape front .host
      let zonePart ← unescape zone .zone
      return hostPart ++ zonePart
  | none => unescape hostname .host

/-- The text behind an opening bracket: an IPv6 address up to the last closing one, which a
port may follow. -/
def parseLiteral (literal : Bytes) : Except Error Bytes :=
  match cutLast ']'.toUInt8 literal with
  | none => .error .missingBracket
  | some (hostname, colonPort) =>
      if !validOptionalPort colonPort then .error (.invalidPort colonPort)
      else do
        let port ← unescape colonPort .host
        let address ← unescapeLiteral hostname
        match Netip.parseAddr address with
        | none => throw (.invalidAddress address)
        | some .v4 => throw .invalidLiteral
        | some .v6 => return '['.toUInt8 :: (address ++ ']'.toUInt8 :: port)

/-- Only the first byte of a host may be an opening bracket. A host without one may have
several colons. -/
def parseHost (host : Bytes) : Except Error Bytes :=
  match cutLast '['.toUInt8 host with
  | some ([], literal) => parseLiteral literal
  | some (_ :: _, _) => .error .invalidLiteral
  | none =>
      match cutLast ':'.toUInt8 host with
      | some (_, port) =>
          if !validOptionalPort (':'.toUInt8 :: port) then
            .error (.invalidPort (':'.toUInt8 :: port))
          else unescape host .host
      | none => unescape host .host

def validUserinfo (s : Bytes) : Bool :=
  s.all fun c => isAlpha c || isDigit c ||
    ['-', '.', '_', ':', '~', '!', '$', '&', '(', ')', '*', '+', ',', ';', '=', '%', '@'].any
      (fun x => c = x.toUInt8) || c = 0x27

def parseUserinfo (userinfo : Bytes) : Except Error Userinfo :=
  if !validUserinfo userinfo then .error .invalidUserinfo
  else
    match cut ':'.toUInt8 userinfo with
    | (_, none) => do
        let username ← unescape userinfo .userPassword
        return Url.user username
    | (username, some password) => do
        let username ← unescape username .userPassword
        let password ← unescape password .userPassword
        return userPassword username password

/-- The host is looked at first. -/
def parseAuthority (authority : Bytes) : Except Error (Option Userinfo × Bytes) :=
  match cutLast '@'.toUInt8 authority with
  | none => do
      let host ← parseHost authority
      return (none, host)
  | some (userinfo, host) => do
      let host ← parseHost host
      let user ← parseUserinfo userinfo
      return (some user, host)

/-- `raw` is kept when it is not the default encoding. -/
def rawIfDifferent (raw s : Bytes) (mode : Encoding) : Bytes :=
  if raw = escape s mode then [] else raw

def setPath (u : URL) (p : Bytes) : Except Error URL := do
  let path ← unescape p .path
  return { u with path := path, rawPath := rawIfDifferent p path .path }

def setFragment (u : URL) (f : Bytes) : Except Error URL := do
  let fragment ← unescape f .fragment
  return { u with fragment := fragment, rawFragment := rawIfDifferent f fragment .fragment }

/-- The path behind an authority. -/
def rooted : Option Bytes → Bytes
  | none => []
  | some path => '/'.toUInt8 :: path

/-- Everything up to the query. -/
def parseRest (u : URL) (rest : Bytes) : Except Error URL :=
  if ['/'.toUInt8, '/'.toUInt8].isPrefixOf rest ∧
      (u.scheme ≠ [] ∨ ¬ ['/'.toUInt8, '/'.toUInt8, '/'.toUInt8].isPrefixOf rest) then do
    let authority := cut '/'.toUInt8 (rest.drop 2)
    let (user, host) ← parseAuthority authority.1
    setPath { u with user := user, host := host } (rooted authority.2)
  else
    setPath { u with omitHost := u.scheme ≠ [] ∧ rest.head? = some '/'.toUInt8 } rest

/-- Only a text that begins with a slash has an authority. -/
def parseHierarchy (u : URL) (rest : Bytes) : Except Error URL :=
  if rest.head? ≠ some '/'.toUInt8 then
    if u.scheme ≠ [] then .ok { u with rootless := rest }
    else if (cut '/'.toUInt8 rest).1.contains ':'.toUInt8 then .error .colonInFirstSegment
    else parseRest u rest
  else parseRest u rest

/-- The text before the query, whether a lonely question mark stands behind it, and the
query. -/
def cutQuery (rest : Bytes) : Bytes × Bool × Bytes :=
  if rest.getLast? = some '?'.toUInt8 ∧ rest.count '?'.toUInt8 = 1 then (rest.dropLast, true, [])
  else ((cut '?'.toUInt8 rest).1, false, ((cut '?'.toUInt8 rest).2).getD [])

def parseNoFragment (url : Bytes) : Except Error URL :=
  if url.any isControl then .error .controlCharacter
  else if url = ['*'.toUInt8] then .ok { path := ['*'.toUInt8] }
  else do
    let (scheme, rest) ← getScheme url
    parseHierarchy
      { scheme := scheme.map toLower
        forceQuery := (cutQuery rest).2.1
        rawQuery := (cutQuery rest).2.2 }
      (cutQuery rest).1

def withFragment (u : URL) (f : Bytes) : Except Error URL :=
  if f = [] then .ok u else setFragment u f

def parse (url : Bytes) : Except Error URL := do
  let u ← parseNoFragment (cut '#'.toUInt8 url).1
  withFragment u ((cut '#'.toUInt8 url).2.getD [])

/-! ## Accessors -/

/-- The port behind the last colon. -/
def cutPort (hostPort : Bytes) : Bytes × Bytes :=
  match cutLast ':'.toUInt8 hostPort with
  | some (host, port) =>
      if validOptionalPort (':'.toUInt8 :: port) then (host, port) else (hostPort, [])
  | none => (hostPort, [])

def unbracket (host : Bytes) : Bytes :=
  if host.head? = some '['.toUInt8 ∧ host.getLast? = some ']'.toUInt8 then host.tail.dropLast
  else host

/-- The host without its port and brackets, and the port. -/
def splitHostPort (hostPort : Bytes) : Bytes × Bytes :=
  (unbracket (cutPort hostPort).1, (cutPort hostPort).2)

def URL.hostname (u : URL) : Bytes := (splitHostPort u.host).1

def URL.port (u : URL) : Bytes := (splitHostPort u.host).2

/-- The pieces between the ampersands. -/
def segments : Bytes → List Bytes
  | [] => [[]]
  | c :: s =>
      if c = '&'.toUInt8 then [] :: segments s
      else
        match segments s with
        | [] => [[c]]
        | x :: xs => (c :: x) :: xs

/-- One piece of a query: pieces with a semicolon, empty ones and ones with a malformed
escape are skipped. -/
def parsePair (s : Bytes) : Option (Bytes × Bytes) :=
  if s.contains ';'.toUInt8 || s.isEmpty then none
  else
    match unescape (cut '='.toUInt8 s).1 .queryComponent,
      unescape ((cut '='.toUInt8 s).2.getD []) .queryComponent with
    | .ok key, .ok value => some (key, value)
    | _, _ => none

/-- The parameters in their order. -/
abbrev Values := List (Bytes × Bytes)

def parseQuery (query : Bytes) : Values := (segments query).filterMap parsePair

def URL.query (u : URL) : Values := parseQuery u.rawQuery

namespace Values

/-- All values of a key. -/
def all (v : Values) (key : Bytes) : List Bytes := (v.filter fun p => p.1 = key).map Prod.snd

/-- The first value of a key, or the empty string. -/
def get (v : Values) (key : Bytes) : Bytes := (v.all key).headD []

def has (v : Values) (key : Bytes) : Bool := v.any fun p => p.1 = key

end Values

/-! ## Printing -/

def Userinfo.string (u : Userinfo) : Bytes :=
  escape u.username .userPassword ++
    if u.passwordSet then ':'.toUInt8 :: escape u.password .userPassword else []

/-- The userinfo in front of a host. -/
def userText : Option Userinfo → Bytes
  | none => []
  | some user => user.string ++ ['@'.toUInt8]

def URL.escapedPath (u : URL) : Bytes :=
  if isRawForm u.rawPath u.path .path then u.rawPath
  else if u.path = ['*'.toUInt8] then ['*'.toUInt8]
  else escape u.path .path

def URL.escapedFragment (u : URL) : Bytes :=
  if isRawForm u.rawFragment u.fragment .fragment then u.rawFragment
  else escape u.fragment .fragment

/-- Between the scheme and the path. -/
def URL.authorityString (u : URL) : Bytes :=
  if u.scheme ≠ [] ∨ u.host ≠ [] ∨ u.user.isSome then
    if u.omitHost ∧ u.host = [] ∧ u.user.isNone then []
    else
      (if u.host ≠ [] ∨ u.path ≠ [] ∨ u.user.isSome then ['/'.toUInt8, '/'.toUInt8] else []) ++
      userText u.user ++ escape u.host .host
  else []

/-- A path that does not follow an authority must not look like a scheme. -/
def URL.pathString (u : URL) (front : Bytes) : Bytes :=
  let path := u.escapedPath
  (if path ≠ [] ∧ path.head? ≠ some '/'.toUInt8 ∧ u.host ≠ [] then ['/'.toUInt8] else []) ++
  (if front = [] ∧ (cut '/'.toUInt8 path).1.contains ':'.toUInt8 then ['.'.toUInt8, '/'.toUInt8]
    else []) ++
  path

def URL.string (u : URL) : Bytes :=
  let scheme := if u.scheme ≠ [] then u.scheme ++ [':'.toUInt8] else []
  scheme ++
  (if u.rootless ≠ [] then u.rootless
    else u.authorityString ++ u.pathString (scheme ++ u.authorityString)) ++
  (if u.forceQuery ∨ u.rawQuery ≠ [] then '?'.toUInt8 :: u.rawQuery else []) ++
  (if u.fragment ≠ [] then '#'.toUInt8 :: u.escapedFragment else [])

/-- `net.JoinHostPort`. -/
def joinHostPort (host port : Bytes) : Bytes :=
  if host.contains ':'.toUInt8 then
    '['.toUInt8 :: host ++ [']'.toUInt8, ':'.toUInt8] ++ port
  else host ++ ':'.toUInt8 :: port

end Url
