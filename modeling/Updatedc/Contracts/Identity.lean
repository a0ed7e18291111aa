import Updatedc.Contracts.Digest

/-!
# Names and versions (`updated-contracts/src/identity.rs`, `path.rs`)

The grammars every name in a signed document answers to: opaque path segments, Kubernetes
resource names, confined relative paths and release versions. A `ResourceName` carries the proof
that it passed its grammar, as the source's private constructor makes sure of.

Release versions are parsed, printed and compared by the `semver` crate (`Semver`).
-/

namespace Updatedc.Contracts

/-! ## Segments and resource names -/

variable (value : String)

namespace Identity

def maxSegmentBytes : Nat := 128

def isAsciiLowerOrDigit (c : Char) : Bool :=
  ('a' ≤ c && c ≤ 'z') || ('0' ≤ c && c ≤ '9')

/-- `con`, `prn`, `aux`, `nul`, `com1`..`com9`, `lpt1`..`lpt9`. -/
def isWindowsDeviceStem : List Char → Bool
  | ['c', 'o', 'n'] | ['p', 'r', 'n'] | ['a', 'u', 'x'] | ['n', 'u', 'l'] => true
  | ['c', 'o', 'm', d] | ['l', 'p', 't', d] => '1' ≤ d && d ≤ '9'
  | _ => false

/-- The one grammar for an opaque identity segment (`is_segment`). -/
def isSegment : Bool :=
  match value.toList with
  | [] => false
  | first :: rest =>
    value.utf8ByteSize ≤ maxSegmentBytes
      && isAsciiLowerOrDigit first
      && rest.all (fun c => isAsciiLowerOrDigit c || c == '.' || c == '_' || c == '-')
      && isAsciiLowerOrDigit (rest.getLastD first)
      && !isWindowsDeviceStem ((first :: rest).takeWhile (· != '.'))

def maxDnsSubdomainBytes : Nat := 253

def isDnsLabel (label : List Char) : Bool :=
  match label with
  | [] => false
  | first :: rest =>
    label.length ≤ 63
      && label.all (fun c => isAsciiLowerOrDigit c || c == '-')
      && isAsciiLowerOrDigit first
      && isAsciiLowerOrDigit (rest.getLastD first)

/-- The Kubernetes DNS-subdomain grammar. -/
def isDnsSubdomain : Bool :=
  !value.isEmpty && value.utf8ByteSize ≤ maxDnsSubdomainBytes
    && (value.toList.splitOn '.').all isDnsLabel

end Identity

/-- A Kubernetes resource identity that has passed the grammar. -/
structure ResourceName where
  asStr : String
  canonical : Identity.isDnsSubdomain asStr = true
  deriving DecidableEq

/-- Admit one string through the grammar (`ResourceName::new`). -/
def ResourceName.new? : Option ResourceName :=
  if canonical : Identity.isDnsSubdomain value = true then some ⟨value, canonical⟩ else none

/-! ## Confined paths -/

namespace Path

def isControl (c : Char) : Bool := c.val ≤ 0x1f || (0x7f ≤ c.val && c.val ≤ 0x9f)

/-- One file name that cannot escape the directory it is joined onto. -/
def isSafeComponent (segment : List Char) : Bool :=
  segment != [] && segment != ['.'] && segment != ['.', '.']
    && segment.all (fun c => c != '/' && c != '\\' && c != ':' && !isControl c)

/-- A `/`-separated sequence of safe components (`is_confined_relative`). Every segment being
safe also answers the source's second question, whether the platform's path parser sees only
plain names. -/
def isConfinedRelative (path : String) : Bool :=
  (path.toList.splitOn '/').all isSafeComponent

end Path

/-! ## Release versions -/

/-- The `semver` crate: its versions, their parser and printer, and their precedence, of which only
that it is a total preorder is used. -/
class Semver where
  Version : Type
  parse : String → Option Version
  print : Version → String
  cmpPrecedence : Version → Version → Ordering
  precedence : Std.TransCmp cmpPrecedence

attribute [instance] Semver.precedence

open Semver (Version)

namespace Identity

def maxReleaseVersionBytes : Nat := 128

/-- Bounded and lowercase, then the crate's own grammar. -/
def parseReleaseVersion [Semver] : Option Version :=
  if value.utf8ByteSize > maxReleaseVersionBytes || value.toList.any Char.isUpper then none
  else Semver.parse value

def isReleaseVersion [Semver] : Bool :=
  (parseReleaseVersion value).isSome

end Identity

end Updatedc.Contracts
