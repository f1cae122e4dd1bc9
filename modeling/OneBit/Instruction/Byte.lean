/-
# Instructions as bytes

An instruction fits into a byte: the code of the header in the upper four bits, the operand in
the lower four.  A tag ID above 15 loses its upper bits on the way.  A byte below 128 has no
header and is no instruction; any other byte is the byte of exactly one instruction with an
operand of four bits (`decode_encode`, `encode_of_decode`).
-/
import OneBit.Instruction.Basic
import OneBit.Text.Numeral

namespace OneBit

/-- Why a byte is no instruction. -/
inductive DecodeError
  | undefinedHeader (byte : UInt8)
deriving DecidableEq, Repr

/-- The wording of a decode error. -/
def DecodeError.message : DecodeError → String
  | undefinedHeader byte => "undefined header in instruction byte 0x" ++ Text.hexByte byte

namespace Instruction

/-- The byte of an instruction. -/
def encode (i : Instruction) : UInt8 := (i.header.code <<< 4) ||| (i.operand &&& 0x0F)

/-- The instruction of a byte. -/
def decode (byte : UInt8) : Except DecodeError Instruction :=
  match (Header.ofCode? (byte >>> 4)).bind (ofParts? · (byte &&& 0x0F)) with
  | some i => .ok i
  | none => .error (.undefinedHeader byte)

/-- Two four-bit numbers, put side by side in a byte, can be taken out of it again. -/
theorem nibbles (c o : Fin 16) :
    (UInt8.ofNat c <<< 4 ||| UInt8.ofNat o &&& 0x0F) &&& 0x0F = UInt8.ofNat o ∧
      (UInt8.ofNat c <<< 4 ||| UInt8.ofNat o &&& 0x0F) >>> 4 = UInt8.ofNat c := by
  revert c o
  decide

/-- **Decoding undoes encoding**, if the operand has four bits. -/
theorem decode_encode {i : Instruction} (h : i.operand ≤ 15) : decode i.encode = .ok i := by
  have hc : i.header.code.toNat < 16 := UInt8.lt_iff_toNat_lt.mp i.header.code_lt
  have ho : i.operand.toNat < 16 := Nat.lt_succ_of_le (UInt8.le_iff_toNat_le.mp h)
  obtain ⟨hlow, hhigh⟩ := nibbles ⟨_, hc⟩ ⟨_, ho⟩
  simp only [UInt8.ofNat_toNat] at hlow hhigh
  rw [decode, encode, hlow, hhigh, Header.ofCode?_code, Option.bind_some,
    ofParts?_header_operand h]

set_option maxRecDepth 4096 in
/-- The two halves of a byte, put side by side, are the byte. -/
theorem halves (n : Fin 256) :
    UInt8.ofNat n >>> 4 <<< 4 ||| UInt8.ofNat n &&& 0x0F &&& 0x0F = UInt8.ofNat n := by
  revert n
  decide

/-- **Encoding undoes decoding.** -/
theorem encode_of_decode {b : UInt8} {i : Instruction} (h : decode b = .ok i) :
    i.encode = b := by
  unfold decode at h
  split at h
  · rename_i j hj
    cases h
    obtain ⟨hdr, hhdr, hparts⟩ := Option.bind_eq_some_iff.mp hj
    obtain ⟨h1, h2⟩ := parts_of_ofParts? hparts
    have hb := halves ⟨b.toNat, b.toNat_lt⟩
    simp only [UInt8.ofNat_toNat] at hb
    rw [encode, h1, h2, Header.code_of_ofCode? hhdr, hb]
  · exact absurd h (by simp)

end Instruction

end OneBit
