import Updatedc.Lib.BTree

/-!
# Content identity (`foundation/src/digest.rs`, `updated-contracts/src/digest.rs`)

A digest is 256 bits. On the wire it is a string, and every reader accepts exactly one spelling
of it: 64 lowercase hexadecimal characters. `DigestText` is such a string field, split once by
that grammar, so that **a canonical digest is its 256 bits** and every other text stays what
it is.

The digest algorithms and the JSON codec belong to other crates (`aws_lc_rs`, `serde_json`).
They enter as the classes `Crypto` and `Json`, with no law assumed of either.
-/

namespace Updatedc.Contracts

/-- A byte buffer, `Vec<u8>`. -/
abbrev Bytes := List UInt8

/-- The 256 bits of a SHA-256 digest. -/
abbrev Sha256 := BitVec 256

instance : Std.TransOrd Sha256 := inferInstance

/-- Exactly 64 lowercase ASCII hexadecimal characters (`is_canonical_sha256`). -/
def isCanonicalSha256 (value : String) : Bool :=
  value.utf8ByteSize == 64 &&
    value.toList.all fun c => c.isDigit || ('a' ≤ c && c ≤ 'f')

/-- The canonical spelling of a digest. -/
def Sha256.hex (digest : Sha256) : String :=
  let digit (n : Nat) : Char := Char.ofNat (if n < 10 then 48 + n else 87 + n)
  String.ofList ((List.range 64).map fun i => digit (digest.toNat >>> (4 * (63 - i)) % 16))

/-- A string field that should hold a digest: either the canonical spelling of one, or some
other text. -/
inductive DigestText where
  | canonical (digest : Sha256)
  | other (text : String) (malformed : isCanonicalSha256 text = false)
  deriving DecidableEq

namespace DigestText

/-- The empty string, which several documents use for "not yet". -/
def empty : DigestText := .other "" (by decide)

instance : Inhabited DigestText := ⟨empty⟩

def isCanonical : DigestText → Bool
  | canonical _ => true
  | other _ _ => false

/-- The digest a canonical text spells. -/
def digest? : DigestText → Option Sha256
  | canonical digest => some digest
  | other _ _ => none

/-- The field as it is written. -/
def text : DigestText → String
  | canonical digest => digest.hex
  | other text _ => text

@[simp] theorem digest?_canonical (digest : Sha256) :
    (canonical digest).digest? = some digest := rfl

def isEmpty : DigestText → Bool
  | canonical _ => false
  | other text _ => text.isEmpty

end DigestText

/-- Whether two digest fields name the same content: both canonical, and equal. -/
def digestsMatch (got expected : DigestText) : Bool :=
  got.isCanonical && expected.isCanonical && got == expected

/-- The cryptographic provider (`aws_lc_rs`): SHA-256, HMAC-SHA-256 and the one ECDSA
verification. -/
class Crypto where
  sha256 : Bytes → Sha256
  hmacSha256 : (key message : Bytes) → Sha256
  verifyAsn1 : (publicKey message signature : Bytes) → Bool

export Crypto (sha256 hmacSha256 verifyAsn1)

/-- `serde_json` for one document type. Every document here has string keys only, so
serialization cannot fail. -/
class Json (α : Type) where
  toVec : α → Bytes
  fromSlice : Bytes → Except String α

/-- The `base64` crate's standard engine. -/
class Base64 where
  encode : Bytes → String
  decode : String → Option Bytes

/-! ## The byte bound every document meets (`bounded.rs`) -/

namespace Bounded

def check (length : Nat) (what : String) (limit : Nat) : Except String Unit :=
  if length > limit then
    .error s!"{what} is {length} bytes, past the {limit}-byte limit"
  else
    .ok ()

/-- Serialize `value`, refusing a document past `limit`. -/
def encode {α : Type} [Json α] (value : α) (what : String) (limit : Nat) :
    Except String Bytes := do
  let bytes := Json.toVec value
  check bytes.length what limit
  return bytes

/-- Refuse `bytes` past `limit`, then deserialize. -/
def decode {α : Type} [Json α] (bytes : Bytes) (what : String) (limit : Nat) :
    Except String α := do
  check bytes.length what limit
  match Json.fromSlice bytes with
  | .ok value => return value
  | .error error => throw s!"decoding {what}: {error}"

end Bounded

end Updatedc.Contracts
