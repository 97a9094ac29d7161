namespace TableQuery.Text

abbrev Bytes := List UInt8

def bytes (s : String) : Bytes :=
  s.toUTF8.data.toList

theorem bytes_eq_flatMap (s : String) : bytes s = s.toList.flatMap String.utf8EncodeChar := by
  rw [bytes, String.toUTF8, ← String.utf8Encode_toList, List.utf8Encode, List.data_toByteArray]

theorem fromUTF8?_bytes (s : String) : String.fromUTF8? (bytes s).toByteArray = some s := by
  rw [bytes_eq_flatMap, ← List.utf8Encode, String.utf8Encode_toList]
  exact dif_pos s.isValidUTF8

theorem bytes_inj {s t : String} : bytes s = bytes t ↔ s = t := by
  refine ⟨fun h => Option.some.inj ?_, fun h => h ▸ rfl⟩
  rw [← fromUTF8?_bytes, h, fromUTF8?_bytes]

/-- Bytes that are no UTF-8. -/
structure Garbled where
  bytes : Bytes
  noText : String.fromUTF8? bytes.toByteArray = none
deriving DecidableEq, Repr

theorem Garbled.bytes_ne (t : Garbled) (s : String) : t.bytes ≠ Text.bytes s := by
  intro h
  have hnone := t.noText
  rw [h, fromUTF8?_bytes] at hnone
  cases hnone

/-- The bits that the first byte of a character of several bytes gives to it. -/
def leadingBits (b : Nat) : Nat :=
  if b < 0xE0 then b % 32
  else if b < 0xF0 then b % 16
  else if b < 0xF8 then b % 8
  else if b < 0xFC then b % 4
  else if b < 0xFE then b % 2
  else 0

/-- The character that several bytes are taken for. A short number, a surrogate and the last two of
the first plane are replaced. -/
def looseCharacter (n : Nat) : Char :=
  let n := n % 0x100000000
  if n < 0x80 || n / 0x800 = 0x1B || n / 2 = 0x7FFF then Char.ofNat 0xFFFD else Char.ofNat n

/-- The characters that bytes are taken for, whether they are UTF-8 or not. The number is the one
that the bytes before have begun. -/
def looseCharacters : Option Nat → List Nat → List Char
  | none, [] => []
  | some n, [] => [looseCharacter n]
  | begun, b :: rest =>
    match begun, decide (b / 64 = 2) with
    | some n, true => looseCharacters (some (n * 64 + b % 64)) rest
    | begun, _ =>
      let before := (begun.map looseCharacter).toList
      if b < 0xC0 then before ++ Char.ofNat b :: looseCharacters none rest
      else before ++ looseCharacters (some (leadingBits b)) rest

example : looseCharacters none [0x61, 0xC3, 0xA9, 0xFF] = ['a', 'é', Char.ofNat 0xFFFD] := by
  decide

end TableQuery.Text
