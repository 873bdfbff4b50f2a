import ScripCheck.Number.Numeral
import ScripCheck.Text.Quoted

/-!
# Addresses of hosts

A host in square brackets is an address of version 6, or of a version to come. An address of
version 6 has eight groups of hexadecimal digits with colons between them. Two colons stand for the
groups that are left out, the last two groups may be written as an address of version 4, and a zone
may follow after `%`.

* `isAddress4`, `isAddress6`, `isAddressFuture`: the forms of an address.
* `checkBracketed`: why a host may not stand in brackets.
-/

namespace ScripCheck.Editor

/-- A number up to 255 without zeros before it. -/
def isOctet (cs : List Char) : Bool :=
  cs ≠ [] && cs.all Char.isDigit && (cs == ['0'] || cs.head? != some '0') && cs.length ≤ 3 &&
    digitsValue cs ≤ 255

/-- Four numbers with points between them. -/
def isAddress4 (cs : List Char) : Bool :=
  let parts := cs.splitOn '.'
  parts.length == 4 && parts.all isOctet

/-- A group: up to four hexadecimal digits. -/
def isGroup (cs : List Char) : Bool :=
  cs ≠ [] && cs.length ≤ 4 && cs.all fun c => (digitIn? 16 c).isSome

/-- How many groups some texts are; the last text may be an address of version 4. -/
def groupCount? : List (List Char) → Option Nat
  | [] => some 0
  | [cs] => if isGroup cs then some 1 else if isAddress4 cs then some 2 else none
  | cs :: rest => if isGroup cs then (groupCount? rest).map (· + 1) else none

/-- The texts between the colons; an empty text has none. -/
def colonParts (cs : List Char) : List (List Char) := if cs = [] then [] else cs.splitOn ':'

/-- The text before the first two colons in a row, and the text after them. -/
def splitGap? : List Char → Option (List Char × List Char)
  | [] => none
  | ':' :: ':' :: cs => some ([], cs)
  | c :: cs => (splitGap? cs).map fun (before, after) => (c :: before, after)

/-- Eight groups, or fewer with a gap for the others. -/
def isGroups (cs : List Char) : Bool :=
  match splitGap? cs with
  | none => groupCount? (colonParts cs) == some 8
  | some (before, after) =>
    let front := colonParts before
    front.all isGroup && (groupCount? (colonParts after)).any fun n => front.length + n ≤ 7

/-- An address of version 6. -/
def isAddress6 (cs : List Char) : Bool :=
  isGroups (cs.takeWhile (· ≠ '%')) &&
    match cs.dropWhile (· ≠ '%') with
    | [] => true
    | _ :: zone => zone ≠ [] && !zone.contains '%'

/-- An address of a later version: `v`, the version in hexadecimal digits, a point, and more. -/
def isAddressFuture : List Char → Bool
  | 'v' :: cs =>
    let version := cs.takeWhile fun c => (digitIn? 16 c).isSome
    version ≠ [] &&
      match cs.drop version.length with
      | '.' :: _ :: _ => true
      | _ => false
  | _ => false

/-- Why a host may not stand in brackets. -/
inductive HostError where
  | address4
  | future
  | noAddress (host : String)
deriving DecidableEq

/-- The text of an error. -/
def HostError.message : HostError → String
  | address4 => "An IPv4 address cannot be in brackets"
  | future => "IPvFuture address is invalid"
  | noAddress host => quoted host ++ " does not appear to be an IPv4 or IPv6 address"

/-- Why a host may not stand in brackets, if it may not. -/
def checkBracketed (host : List Char) : Except HostError Unit :=
  if host.head? = some 'v' then
    if isAddressFuture host then .ok () else .error .future
  else if isAddress4 host then .error .address4
  else if isAddress6 host then .ok ()
  else .error (.noAddress (.ofList host))

end ScripCheck.Editor
