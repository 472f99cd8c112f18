import GatewayEnrichment.Text.Octets

/-! The request target of a hierarchical URL, as a client sends it: the path, with its dot segments
resolved and without characters that may not stand in it, and the query. The fragment stays with
the client. -/

namespace GatewayEnrichment.Url

def hexDigit (n : UInt8) : Char := Char.ofNat (if n < 10 then 0x30 + n.toNat else 0x37 + n.toNat)

def percentEncoded (b : UInt8) : List Char := ['%', hexDigit (b / 16), hexDigit (b % 16)]

def encodeUnless (allowed : Char → Bool) (c : Char) : List Char :=
  if allowed c then [c] else (String.utf8EncodeChar c).flatMap percentEncoded

def isGraphic (c : Char) : Bool := '!' ≤ c && c ≤ '~'

def inPath (c : Char) : Bool :=
  isGraphic c && c ∉ ['"', '#', '<', '>', '?', '\x60', '\x7b', '\x7d']

def inQuery (c : Char) : Bool := isGraphic c && c ∉ ['"', '#', '<', '>', '\x27']

def isSlash (c : Char) : Bool := c == '/' || c == '\\'

def isSingleDot (segment : List Char) : Bool :=
  [".", "%2e"].contains (String.ofList (segment.map Char.toLower))

def isDoubleDot (segment : List Char) : Bool :=
  ["..", ".%2e", "%2e.", "%2e%2e"].contains (String.ofList (segment.map Char.toLower))

def splitSegments : List Char → List (List Char)
  | [] => [[]]
  | c :: cs =>
    if isSlash c then [] :: splitSegments cs
    else
      match splitSegments cs with
      | [] => [[c]]
      | segment :: rest => (c :: segment) :: rest

def resolve (path : List (List Char)) : List (List Char) → List (List Char)
  | [] => path.reverse
  | [segment] =>
    if isDoubleDot segment then ([] :: path.drop 1).reverse
    else if isSingleDot segment then ([] :: path).reverse
    else (segment :: path).reverse
  | segment :: rest =>
    if isDoubleDot segment then resolve (path.drop 1) rest
    else if isSingleDot segment then resolve path rest
    else resolve (segment :: path) rest

/-- Controls and spaces at the ends, and tabs and line ends anywhere, are no part of a URL. -/
def cleaned (url : List Char) : List Char :=
  let isEdge := fun c : Char => c ≤ ' '
  let inner := ((url.dropWhile isEdge).reverse.dropWhile isEdge).reverse
  inner.filter (· ∉ ['\t', '\n', '\r'])

def afterHost (url : List Char) : List Char :=
  let rest := (url.dropWhile (· ≠ ':')).drop 1
  (rest.dropWhile isSlash).dropWhile fun c => !isSlash c && c ≠ '?' && c ≠ '#'

def requestTarget (url : String) : String :=
  let rest := (afterHost (cleaned url.toList)).takeWhile (· ≠ '#')
  let path := rest.takeWhile (· ≠ '?')
  let query := rest.dropWhile (· ≠ '?')
  let segments := resolve [] (splitSegments (path.drop 1))
  String.ofList
    ((segments.flatMap fun segment => '/' :: segment.flatMap (encodeUnless inPath)) ++
      query.flatMap (encodeUnless inQuery))

example : requestTarget "http://h/api/a b?é#c" = "/api/a%20b?%C3%A9" := by decide
example : requestTarget "http://h/api/v2/../x/." = "/api/x/" := by decide

end GatewayEnrichment.Url
