import Updatedc.Contracts.Telemetry

/-!
# The bytes a report's signature commits to (`updated-contracts/src/telemetry.rs`)

A report is signed through its pre-authentication encoding,
`DSSEv1 <len(type)> <type> <len(payload)> <payload>`. The lengths are decimal and end at the next
space, and what they count follows verbatim, spaces and digits included. **The encoding is
injective**: a length is all the bytes before the first space, since no digit is a space, and it
says where its field ends.
-/

namespace Updatedc.Contracts

/-- The bytes of a text. -/
theorem utf8_toList (text : String) :
    text.toUTF8.data.toList = text.toList.flatMap String.utf8EncodeChar := by
  have encoded : text.toUTF8 = text.toList.utf8Encode := by
    rw [String.toUTF8, ← String.toByteArray_ofList, String.ofList_toList]
  rw [encoded, List.utf8Encode]
  simp

theorem utf8_injective {a b : String} (same : a.toUTF8.data.toList = b.toUTF8.data.toList) :
    a = b := by
  rw [← String.toByteArray_inj]
  exact ByteArray.ext (Array.toList_inj.mp same)

theorem utf8_length (text : String) : text.toUTF8.data.toList.length = text.utf8ByteSize := rfl

/-! ## Decimal fields -/

/-- `b' '`. -/
def space : UInt8 := 32

/-- A decimal number, as its bytes. -/
def decimal (n : Nat) : Bytes := (toString n).toUTF8.data.toList

theorem decimal_injective {m n : Nat} (same : decimal m = decimal n) : m = n :=
  Nat.repr_injective (utf8_injective same)

theorem utf8EncodeChar_isDigit {c : Char} (digit : c.isDigit = true) :
    space ∉ String.utf8EncodeChar c := by
  simp only [Char.isDigit, ge_iff_le, Bool.and_eq_true, decide_eq_true_eq,
    UInt32.le_iff_toNat_le] at digit
  have low : 48 ≤ c.val.toNat := digit.1
  have high : c.val.toNat ≤ 57 := digit.2
  have small : c.utf8Size = 1 := by
    rw [Char.utf8Size_eq_one_iff, UInt32.le_iff_toNat_le]
    show c.val.toNat ≤ 127
    omega
  rw [String.utf8EncodeChar_eq_singleton small, List.mem_singleton]
  intro same
  have value : 32 = c.val.toNat % 256 := congrArg UInt8.toNat same
  omega

/-- No digit is a space. -/
theorem space_notMem_decimal (n : Nat) : space ∉ decimal n := by
  rw [decimal, utf8_toList, List.mem_flatMap]
  rintro ⟨c, member, here⟩
  have digits : (toString n).toList = Nat.toDigits 10 n := by
    rw [Nat.toString_eq_repr, Nat.toList_repr]
  rw [digits] at member
  exact utf8EncodeChar_isDigit (Nat.isDigit_of_mem_toDigits (by decide) (by decide) member) here

/-- Two texts in front of a separator that neither contains. -/
theorem append_separator_inj {α : Type} {separator : α} {a b x y : List α} (inA : separator ∉ a)
    (inB : separator ∉ b) (same : a ++ separator :: x = b ++ separator :: y) : a = b ∧ x = y := by
  induction a generalizing b with
  | nil =>
    cases b with
    | nil => exact ⟨rfl, (List.cons.inj same).2⟩
    | cons head tail => exact absurd ((List.cons.inj same).1 ▸ List.mem_cons_self) inB
  | cons head tail ih =>
    cases b with
    | nil => exact absurd ((List.cons.inj same).1 ▸ List.mem_cons_self) inA
    | cons other rest =>
      obtain ⟨heads, tails⟩ := List.cons.inj same
      obtain ⟨equal, after⟩ := ih (List.not_mem_of_not_mem_cons inA)
        (List.not_mem_of_not_mem_cons inB) tails
      exact ⟨by rw [heads, equal], after⟩

/-- A field in front of the rest: its length, a space and its bytes. -/
def field (body rest : Bytes) : Bytes := decimal body.length ++ space :: (body ++ rest)

/-- **A field ends where its length says**, whatever its bytes are. -/
theorem field_injective {a b x y : Bytes} (same : field a x = field b y) : a = b ∧ x = y := by
  obtain ⟨lengths, after⟩ :=
    append_separator_inj (space_notMem_decimal _) (space_notMem_decimal _) same
  exact List.append_inj after (decimal_injective lengths)

/-! ## The encoding -/

theorem pae_eq_fields (payload : Bytes) (payloadType : String) :
    pae payload payloadType = "DSSEv1 ".toUTF8.data.toList ++
      field payloadType.toUTF8.data.toList (space :: field payload []) := by
  have blank : " ".toUTF8.data.toList = [space] := by decide
  simp only [pae, field, decimal, utf8_length, blank, List.append_assoc, List.append_nil,
    List.cons_append, List.nil_append]

/-- **Signed bytes are unambiguous**: a payload and its type are determined by their
pre-authentication encoding. -/
theorem pae_injective :
    Function.Injective fun signed : Bytes × String => pae signed.1 signed.2 := by
  rintro ⟨payloadA, typeA⟩ ⟨payloadB, typeB⟩ same
  simp only [pae_eq_fields] at same
  obtain ⟨types, payloads⟩ := field_injective (List.append_cancel_left same)
  obtain ⟨bodies, -⟩ := field_injective (List.cons.inj payloads).2
  rw [bodies, utf8_injective types]

end Updatedc.Contracts
