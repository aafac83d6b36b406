/-
# Percent-encoded text

A percent-encoded text stands for bytes: `%` with two hexadecimal digits is one
byte, a `%` without them is itself, and everything else is its UTF-8 encoding.
Decoding a text is reading these bytes as UTF-8, which can fail.

A text without `%` is its own decoding.  With `%` the same bytes have many
spellings, so decoding is far from injective.
-/

import Mathlib.Data.List.Basic

namespace GitEventsRunner.Lib

namespace Percent

/-- The value of a hexadecimal digit, of either case. -/
def hexValue (c : Char) : Option Nat :=
  if '0' ≤ c ∧ c ≤ '9' then some (c.toNat - '0'.toNat)
  else if 'a' ≤ c ∧ c ≤ 'f' then some (c.toNat - 'a'.toNat + 10)
  else if 'A' ≤ c ∧ c ≤ 'F' then some (c.toNat - 'A'.toNat + 10)
  else none

/-- The bytes a percent-encoded text stands for. -/
def bytes : List Char → List UInt8
  | [] => []
  | '%' :: hi :: lo :: rest =>
      match hexValue hi, hexValue lo with
      | some h, some l => UInt8.ofNat (16 * h + l) :: bytes rest
      -- not an escape: the `%` stands for itself
      | _, _ => String.utf8EncodeChar '%' ++ bytes (hi :: lo :: rest)
  | c :: rest => String.utf8EncodeChar c ++ bytes rest

/-- The text a percent-encoded text stands for, if its bytes are UTF-8. -/
def decode (text : List Char) : Option String :=
  String.fromUTF8? (bytes text).toByteArray

theorem bytes_of_percent_notMem {text : List Char} (h : '%' ∉ text) :
    bytes text = text.flatMap String.utf8EncodeChar := by
  induction text with
  | nil => rfl
  | cons c rest ih =>
      have hc : c ≠ '%' := fun heq => h (heq ▸ List.mem_cons_self)
      have hrest : '%' ∉ rest := fun hmem => h (List.mem_cons_of_mem c hmem)
      rw [List.flatMap_cons, ← ih hrest, bytes]
      rintro hi lo rest' heq -
      exact hc heq

/-- A text without `%` stands for itself. -/
theorem decode_of_percent_notMem {text : List Char} (h : '%' ∉ text) :
    decode text = some (String.ofList text) := by
  have hvalid : (List.utf8Encode text).IsValidUTF8 := ⟨text, rfl⟩
  rw [decode, bytes_of_percent_notMem h]
  show String.fromUTF8? (List.utf8Encode text) = _
  rw [String.fromUTF8?, dif_pos hvalid]
  rfl

/-- Two spellings of one text, an escape that is not UTF-8, and no escape. -/
example : decode "n%73".toList = some "ns" ∧ decode "%6E%73".toList = some "ns" ∧
    decode "n%ff".toList = none ∧ decode "100%".toList = some "100%" := by
  decide +kernel

end Percent

end GitEventsRunner.Lib
