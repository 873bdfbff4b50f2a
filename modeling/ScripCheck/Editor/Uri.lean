import ScripCheck.Editor.Address
import ScripCheck.Editor.Percent
import ScripCheck.Files.Path

/-!
# Names of documents

A document is named by a URI: a scheme and a colon, an authority after two slashes, and a path. A
query or a fragment may follow, which name no other document. All parts but the path may be missing.

* `Uri.ofString`: the parts of a URI, or why it has none.
* `Uri.file`: the path of the file that a URI names.
-/

namespace ScripCheck.Editor

/-- The parts of a URI that name a document, as they are written. -/
structure Uri where
  /-- The scheme in small letters. -/
  scheme : String
  authority : List Char
  path : List Char
deriving DecidableEq

/-- Why a text is no URI. -/
inductive UriError where
  /-- The square brackets of the authority do not enclose the host. -/
  | brackets
  | host (e : HostError)
  /-- A character of the authority stands for a delimiter. -/
  | delimiter (authority : String)
deriving DecidableEq

/-- The text of an error. -/
def UriError.message : UriError → String
  | brackets => "Invalid IPv6 URL"
  | host e => e.message
  | delimiter authority =>
    "netloc '" ++ authority ++ "' contains invalid characters under NFKC normalization"

/-! ## Authorities -/

/-- The characters whose compatibility form has one of the delimiters `/`, `?`, `#`, `@`, `:`. -/
def delimiterForms : List Nat :=
  [0x2047, 0x2048, 0x2049, 0x2100, 0x2101, 0x2105, 0x2106, 0x2a74, 0xfe13, 0xfe16, 0xfe55, 0xfe56,
    0xfe5f, 0xfe6b, 0xff03, 0xff0f, 0xff1a, 0xff1f, 0xff20]

/-- The character stands for a delimiter. -/
def hidesDelimiter (c : Char) : Bool := delimiterForms.contains c.toNat

/-- The host of an authority with brackets, which start it and which only a port may follow. A user
may stand before the host. -/
def bracketedHost (authority : List Char) : Except UriError (List Char) :=
  let place := (authority.reverse.takeWhile (· ≠ '@')).reverse
  if place.contains '[' then
    match place with
    | '[' :: cs =>
      match cs.dropWhile (· ≠ ']') with
      | _ :: c :: _ => if c = ':' then .ok (cs.takeWhile (· ≠ ']')) else .error .brackets
      | _ => .ok (cs.takeWhile (· ≠ ']'))
    | _ => .error .brackets
  else .ok (place.takeWhile (· ≠ ':'))

/-- Why an authority cannot be used, if it cannot. -/
def checkAuthority (authority : List Char) : Except UriError Unit := do
  if authority.contains '[' ≠ authority.contains ']' then .error .brackets
  if authority.contains '[' then
    (checkBracketed (← bracketedHost authority)).mapError .host
  if authority.any hidesDelimiter then .error (.delimiter (.ofList authority))

/-! ## Parts -/

/-- The text that is read: without control characters and spaces before it, and without tabs and
line breaks. -/
def visiblePart (uri : List Char) : List Char :=
  (uri.dropWhile fun c => c.toNat ≤ 0x20).filter fun c => c ≠ '\t' ∧ c ≠ '\n' ∧ c ≠ '\r'

/-- The scheme before the first colon, in small letters, and what follows it. -/
def splitScheme (uri : List Char) : List Char × List Char :=
  let scheme := uri.takeWhile (· ≠ ':')
  let valid := scheme.head?.any (·.isAlpha) && scheme.all fun c => c.isAlphanum || "+-.".contains c
  match valid, uri.drop scheme.length with
  | true, ':' :: rest => (scheme.map Char.toLower, rest)
  | _, _ => ([], uri)

/-- The authority after two slashes, and what follows it. -/
def splitAuthority : List Char → List Char × List Char
  | '/' :: '/' :: rest =>
    let authority := rest.takeWhile fun c => c ≠ '/' ∧ c ≠ '?' ∧ c ≠ '#'
    (authority, rest.drop authority.length)
  | rest => ([], rest)

/-- The schemes whose paths may have parameters; a URI without a scheme is like them. -/
def parameterSchemes : List String :=
  ["", "ftp", "hdl", "prospero", "http", "imap", "https", "shttp", "rtsp", "rtspu", "sip", "sips",
    "mms", "sftp", "tel"]

/-- The path without the parameters of its last name. -/
def dropParameters (path : List Char) : List Char :=
  let last := (path.reverse.takeWhile (· ≠ '/')).reverse
  path.take (path.length - last.length) ++ last.takeWhile (· ≠ ';')

namespace Uri

/-- The parts of a URI. -/
def ofString (s : String) : Except UriError Uri := do
  let (schemeChars, rest) := splitScheme (visiblePart s.toList)
  let (authority, rest) := splitAuthority rest
  checkAuthority authority
  let scheme := String.ofList schemeChars
  let path := rest.takeWhile fun c => c ≠ '#' ∧ c ≠ '?'
  return ⟨scheme, authority, if scheme ∈ parameterSchemes then dropParameters path else path⟩

/-- A path that starts with the letter of a drive has that letter in small and no slash before
it. -/
def driveLetter (path : List Char) : List Char :=
  match path with
  | '/' :: c :: ':' :: rest => if c.isAlpha then c.toLower :: ':' :: rest else path
  | _ => path

/-- The path of the file that a URI names. A file on another host has the host before its path. -/
def file (u : Uri) : Files.Path :=
  let path := percentDecode u.path
  .ofString <| .ofList <|
    if u.scheme = "file" then
      if u.authority ≠ [] ∧ path ≠ [] then '/' :: '/' :: percentDecode u.authority ++ path
      else driveLetter path
    else path

end Uri

end ScripCheck.Editor
