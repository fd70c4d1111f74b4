import Mathlib.Data.List.Basic
import Mathlib.Tactic.IntervalCases
import MpcNetwork.Lib.Fallible

/-! # Texts as bytes and bytes as texts

A text has its UTF-8 bytes, which determine it.  Bytes are written as lower-case
hexadecimal digits; reading accepts both cases and reports the first byte that is no
digit.  What was written reads back as the same bytes.
-/

namespace MpcNetwork.Hex

open Fallible List

def utf8 (text : String) : List UInt8 := text.toUTF8.data.toList

theorem utf8_injective (same : utf8 s = utf8 t) : s = t :=
  String.toByteArray_inj.mp (ByteArray.ext (Array.toList_inj.mp same))

@[simp] theorem utf8_append (s t : String) : utf8 (s ++ t) = utf8 s ++ utf8 t := by
  simp [utf8]

theorem utf8_ofList (chars : List Char) :
    utf8 (String.ofList chars) = chars.flatMap String.utf8EncodeChar := by
  simp [utf8, utf8Encode]

inductive FromHexError where
  | invalidHexCharacter (c : Char) (index : Nat)
  | oddLength
  deriving Repr, DecidableEq

/-- The value of the digit at an index, in either case. -/
def digitValue (c : UInt8) (index : Nat) : Except FromHexError UInt8 :=
  if 65 ≤ c ∧ c ≤ 70 then .ok (c - 65 + 10)
  else if 97 ≤ c ∧ c ≤ 102 then .ok (c - 97 + 10)
  else if 48 ≤ c ∧ c ≤ 57 then .ok (c - 48)
  else .error (.invalidHexCharacter (Char.ofNat c.toNat) index)

/-- Two digits a byte; the index counts the digits already read. -/
def decodePairs : Nat → List UInt8 → Except FromHexError (List UInt8)
  | index, high :: low :: rest => do
    let upper ← digitValue high index
    let lower ← digitValue low (index + 1)
    let tail ← decodePairs (index + 2) rest
    .ok ((upper <<< 4 ||| lower) :: tail)
  | _, _ => .ok []

def decode (text : String) : Except FromHexError (List UInt8) :=
  if (utf8 text).length % 2 ≠ 0 then .error .oddLength else decodePairs 0 (utf8 text)

/-- The lower-case digit of a value below sixteen. -/
def digit (value : Nat) : Char :=
  if value < 10 then Char.ofNat (48 + value) else Char.ofNat (87 + value)

def byteDigits (b : UInt8) : List Char := [digit (b.toNat / 16), digit (b.toNat % 16)]

def encode (bytes : List UInt8) : String := String.ofList (bytes.flatMap byteDigits)

private theorem digit_reads (small : value < 16) (index : Nat) :
    ∃ c, String.utf8EncodeChar (digit value) = [c] ∧
      digitValue c index = .ok (UInt8.ofNat value) := by
  interval_cases value <;> exact ⟨_, rfl, rfl⟩

private theorem halves (b : UInt8) :
    UInt8.ofNat (b.toNat / 16) <<< 4 ||| UInt8.ofNat (b.toNat % 16) = b := by
  have every : ∀ n : Fin 256, UInt8.ofNat (n / 16) <<< 4 ||| UInt8.ofNat (n % 16) =
      UInt8.ofNat n := by
    decide +kernel
  simpa using every ⟨b.toNat, b.toNat_lt⟩

private theorem byteDigits_read (b : UInt8) (index : Nat) :
    ∃ high low, (byteDigits b).flatMap String.utf8EncodeChar = [high, low] ∧
      digitValue high index = .ok (UInt8.ofNat (b.toNat / 16)) ∧
      digitValue low (index + 1) = .ok (UInt8.ofNat (b.toNat % 16)) := by
  have range := b.toNat_lt
  have upper : b.toNat / 16 < 16 := by omega
  have lower : b.toNat % 16 < 16 := by omega
  obtain ⟨high, highText, highReads⟩ := digit_reads upper index
  obtain ⟨low, lowText, lowReads⟩ := digit_reads lower (index + 1)
  exact ⟨high, low, by simp [byteDigits, highText, lowText], highReads, lowReads⟩

private theorem decodePairs_digits (bytes : List UInt8) (index : Nat) :
    ((bytes.flatMap byteDigits).flatMap String.utf8EncodeChar).length = 2 * bytes.length ∧
      decodePairs index ((bytes.flatMap byteDigits).flatMap String.utf8EncodeChar) =
        .ok bytes := by
  induction bytes generalizing index with
  | nil => exact ⟨rfl, rfl⟩
  | cons b bytes ih =>
    obtain ⟨high, low, text, highReads, lowReads⟩ := byteDigits_read b index
    obtain ⟨length, rest⟩ := ih (index + 2)
    rw [flatMap_cons, flatMap_append, text]
    refine ⟨by simp only [length_append, length_cons, length_nil, length]; omega, ?_⟩
    simp only [cons_append, nil_append, decodePairs, highReads, lowReads, rest,
      bind_ok_iff, Except.ok.injEq, exists_eq_left']
    rw [halves]

theorem decode_encode (bytes : List UInt8) : decode (encode bytes) = .ok bytes := by
  obtain ⟨length, reads⟩ := decodePairs_digits bytes 0
  rw [decode, encode, utf8_ofList, if_neg (by omega), reads]

end MpcNetwork.Hex
