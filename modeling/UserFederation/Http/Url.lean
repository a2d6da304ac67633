import UserFederation.Http.Percent

/-! Web addresses. A text is read as browsers do: blanks at its ends and line breaks are dropped,
backslashes count as slashes, and dot segments of the path are resolved. A fragment is dropped, as
it is never sent. -/

namespace UserFederation

/-- An address whose parts are encoded. -/
structure Url where
  secure : Bool := false
  /-- A user and a password, as they are written. -/
  user : Option (String × Option String) := none
  host : String
  /-- The number after the host, if it is not the usual one. -/
  portNumber : Option Nat := none
  path : List String
  query : Option String := none
  deriving DecidableEq

namespace Url

/-- The path and the query, as they are sent. -/
def target (u : Url) : String :=
  "/" ++ "/".intercalate u.path ++ (u.query.map ("?" ++ ·)).getD ""

/-- Two addresses have the same origin if they lead to the same server. -/
def sameOrigin (a b : Url) : Bool :=
  a.secure = b.secure && a.host = b.host && a.portNumber = b.portNumber

def isControlOrBlank (c : Char) : Bool := c.toNat ≤ 0x20

/-- Characters that are always encoded: controls, blanks and all that is not ASCII. -/
def isAlwaysEncoded (c : Char) : Bool := isControlOrBlank c || 0x7E < c.toNat

/-- Characters that are encoded in a query. -/
def isEncodedInQuery (c : Char) : Bool := isAlwaysEncoded c || "\"#<>'".contains c

/-- Characters that are encoded in a path. -/
def isEncodedInPath (c : Char) : Bool := isAlwaysEncoded c || "\"#<>?\x60\x7b\x7d".contains c

/-- Characters that may stand in an address. -/
def isAllowed (c : Char) : Bool := Percent.isUnreserved c || "%:/?#[]@!$&'()*+,;=".contains c

/-- Encodes some characters of a part. -/
def encodePart (escaped : Char → Bool) (cs : List Char) : String :=
  String.ofList (Percent.encodeWhere escaped cs)

def isSlash (c : Char) : Bool := c = '/' || c = '\\'

/-- Whether a segment means the place where it stands. -/
def isSingleDot (segment : List Char) : Bool :=
  ["." , "%2e"].contains (String.ofList (segment.map Char.toLower))

/-- Whether a segment means the place above. -/
def isDoubleDot (segment : List Char) : Bool :=
  ["..", ".%2e", "%2e.", "%2e%2e"].contains (String.ofList (segment.map Char.toLower))

/-- Goes on along some segments. A dot segment at the end leaves an empty one. -/
def resolve (path : List String) : List (List Char) → List String
  | [] => path
  | [segment] =>
    if isDoubleDot segment then path.dropLast ++ [""]
    else if isSingleDot segment then path ++ [""]
    else path ++ [encodePart isEncodedInPath segment]
  | segment :: rest =>
    if isDoubleDot segment then resolve path.dropLast rest
    else if isSingleDot segment then resolve path rest
    else resolve (path ++ [encodePart isEncodedInPath segment]) rest

/-- Splits a text at the characters that a test picks out. -/
def splitWhere (separator : Char → Bool) : List Char → List (List Char)
  | [] => [[]]
  | c :: cs =>
    if separator c then [] :: splitWhere separator cs
    else match splitWhere separator cs with
      | part :: parts => (c :: part) :: parts
      | [] => [[c]]

/-- The text up to a fragment, divided into the path and the query. -/
def pathAndQuery (cs : List Char) : List Char × Option (List Char) :=
  let cs := cs.takeWhile (· ≠ '#')
  match cs.dropWhile (· ≠ '?') with
  | _ :: query => (cs.takeWhile (· ≠ '?'), some query)
  | [] => (cs, none)

/-- Follows what stands after the host, from a path on. -/
def follow (u : Url) (path : List String) (cs : List Char) : Url :=
  let (segments, query) := pathAndQuery cs
  { u with
    path := resolve path (splitWhere isSlash segments)
    query := query.map (encodePart isEncodedInQuery) }

/-- The number of a part of a numeric host: decimal, octal after a zero, hexadecimal after `0x`. -/
def hostNumber? (cs : List Char) : Option Nat :=
  let inBase := fun (base : Nat) (digits : List Char) =>
    digits.foldlM (fun n c => (Text.hexValue? c).bind fun d =>
      if d < base then some (n * base + d) else none) 0
  match cs with
  | '0' :: x :: rest =>
    if x = 'x' ∨ x = 'X' then inBase 16 rest else inBase 8 (x :: rest)
  | [] => none
  | cs => inBase 10 cs

/-- The parts of a host between dots; one dot at the end does not count. -/
def hostParts (host : List Char) : List (List Char) :=
  match (splitWhere (· = '.') host).reverse with
  | [] :: (last :: rest) => (last :: rest).reverse
  | parts => parts.reverse

/-- Whether a host is written in numbers: its last part is one. -/
def isNumeric (host : List Char) : Bool :=
  match (hostParts host).getLast? with
  | some last => (!last.isEmpty && last.all Char.isDigit) || (hostNumber? last).isSome
  | none => false

/-- The address of four bytes that a numeric host means: the last part fills up what is left. -/
def hostAddress? (host : List Char) : Option Nat := do
  let numbers ← (hostParts host).mapM hostNumber?
  if 4 < numbers.length then none
  let init := numbers.dropLast
  let last ← numbers.getLast?
  if init.any (255 < ·) ∨ Nat.pow 256 (5 - numbers.length) ≤ last then none
  return init.foldl (fun n byte => n * 256 + byte) 0 * Nat.pow 256 (4 - init.length) + last

/-- An address of four bytes with its dots. -/
def dotted (n : Nat) : String :=
  ".".intercalate ([n / Nat.pow 256 3, n / Nat.pow 256 2 % 256, n / 256 % 256, n % 256].map toString)

/-- Characters that no host has. -/
def isForbiddenInHost (c : Char) : Bool := isControlOrBlank c || "#/:<>?@[\\]^|%\x7f".contains c

/-- Reads a host. -/
def host? (cs : List Char) : Option String :=
  match cs with
  | '[' :: rest =>
    let address := rest.takeWhile (· ≠ ']')
    if rest.dropWhile (· ≠ ']') = [']'] ∧ address.contains ':' ∧
        address.all (fun c => (Text.hexValue? c).isSome || c = ':' || c = '.') then
      some (String.ofList (cs.map Char.toLower))
    else none
  | cs =>
    let plain := if cs.contains '%' then (Percent.decodeBytes cs).map Char.ofNat else cs
    let name := plain.map Char.toLower
    if name.isEmpty ∨ name.any isForbiddenInHost then none
    else if isNumeric name then (hostAddress? name).map dotted
    else some (String.ofList name)

/-- Reads the number after a host, which may be empty. -/
def portNumber? (secure : Bool) (cs : List Char) : Option (Option Nat) :=
  if cs.isEmpty then some none
  else do
    let n ← if cs.all Char.isDigit then (String.ofList cs).toNat? else none
    if 65535 < n then none
    return if n = (if secure then 443 else 80) then none else some n

/-- Reads what stands before the last at sign of an authority: a user, and after a colon a
password. -/
def user? (cs : List Char) : Option (String × Option String) :=
  let name := String.ofList (cs.takeWhile (· ≠ ':'))
  match cs.dropWhile (· ≠ ':') with
  | _ :: c :: password => some (name, some (String.ofList (c :: password)))
  | _ => if name = "" then none else some (name, none)

/-- Divides a text into what stands before and after its last at sign. -/
def splitUser (cs : List Char) : List Char × List Char :=
  let place := (cs.reverse.takeWhile (· ≠ '@')).reverse
  (cs.take (cs.length - place.length - 1), place)

/-- Divides a place into the host and the number with its colon. The colons of a host in brackets
do not count. -/
def splitHost (place : List Char) : List Char × List Char :=
  match place with
  | '[' :: _ =>
    let after := place.dropWhile (· ≠ ']')
    (place.takeWhile (· ≠ ']') ++ after.take 1, after.drop 1)
  | _ => (place.takeWhile (· ≠ ':'), place.dropWhile (· ≠ ':'))

/-- Reads an authority and what follows it. -/
def authority? (secure : Bool) (cs : List Char) : Option Url := do
  let ends := fun (c : Char) => isSlash c || c = '?' || c = '#'
  let (user, place) := splitUser (cs.takeWhile (!ends ·))
  let (host, portNumber) := splitHost place
  let portNumber ← match portNumber with
    | [] => some none
    | ':' :: digits => portNumber? secure digits
    | _ => none
  let url : Url := { secure, user := user? user, host := ← host? host, portNumber, path := [] }
  return url.follow [] (match cs.dropWhile (!ends ·) with
    | c :: rest => if isSlash c then rest else c :: rest
    | [] => [])

/-- Splits a text after its scheme, in lower case. -/
def scheme? (cs : List Char) : Option (String × List Char) :=
  let isPart := fun (c : Char) => c.isAlphanum || c = '+' || c = '-' || c = '.'
  match cs.takeWhile isPart, cs.dropWhile isPart with
  | c :: scheme, ':' :: rest =>
    if c.isAlpha then some (String.ofList ((c :: scheme).map Char.toLower), rest) else none
  | _, _ => none

/-- Reads an address without a scheme, from the place of another. -/
def relative? (base : Url) (cs : List Char) : Option Url :=
  match cs with
  | [] => some base
  | c :: rest =>
    if isSlash c then
      match rest with
      | d :: _ =>
        if isSlash d then authority? base.secure (rest.dropWhile isSlash)
        else some (base.follow [] rest)
      | [] => some (base.follow [] rest)
    else if c = '#' then some base
    else if c = '?' then
      some { base with query := (pathAndQuery cs).2.map (encodePart isEncodedInQuery) }
    else some (base.follow base.path.dropLast cs)

/-- Whether addresses of a scheme can be read. -/
def isKnownScheme (scheme : String) : Bool := scheme = "http" || scheme = "https"

/-- Reads an address. Without a base, it has to have a scheme and a host. -/
def parse? (base : Option Url) (text : String) : Option Url :=
  let start := text.toList.dropWhile isControlOrBlank
  let trimmed := (start.reverse.dropWhile isControlOrBlank).reverse
  let cs := trimmed.filter fun c => c ≠ '\t' && c ≠ '\n' && c ≠ '\r'
  match scheme? cs with
  | none => base.bind (relative? · cs)
  | some (scheme, rest) =>
    if !isKnownScheme scheme then none
    else
      let secure : Bool := scheme = "https"
      let whole := authority? secure (rest.dropWhile isSlash)
      match base, rest with
      | some _, '/' :: '/' :: _ => whole
      | some b, rest => if b.secure = secure then relative? b rest else whole
      | none, _ => whole

/-- Whether a host is known without looking up a name. -/
def isAddress (u : Url) : Bool :=
  u.host = "localhost" || u.host.toList.head? = some '[' || isNumeric u.host.toList

end Url

end UserFederation
