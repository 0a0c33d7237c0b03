/-
  File:      Nsql/Text/Decode.lean
  Subject:   Bytes as text.

  Bytes that are not UTF-8 are no reason to give up: every maximal beginning of a character that
  the next byte breaks off, and every byte that can begin none, becomes one replacement character.
  The machine takes one byte at a time and holds the beginning of a character that it has seen
  (`Partial`).
-/
import Nsql.Text.Basic

namespace Nsql.Text

/-- The character that stands for bytes that are no text. -/
def replacement : Char := '�'

/-- The beginning of a character: the bits so far, how many bytes are owed, and the bounds of the
    next one. -/
structure Partial where
  bits : Nat
  owed : Nat
  least : Nat
  greatest : Nat
  deriving DecidableEq, Repr

/-- What the first byte of a character says. -/
inductive Lead where
  | whole (c : Char)
  | opens (p : Partial)
  | wrong
  deriving DecidableEq, Repr

/-- The first byte of a character. The bounds of the second byte keep out overlong forms,
    surrogates and numbers above U+10FFFF. -/
def lead (b : Nat) : Lead :=
  if b < 0x80 then .whole (Char.ofNat b)
  else if 0xC2 ≤ b ∧ b ≤ 0xDF then .opens ⟨b - 0xC0, 1, 0x80, 0xBF⟩
  else if b = 0xE0 then .opens ⟨0, 2, 0xA0, 0xBF⟩
  else if b = 0xED then .opens ⟨0xD, 2, 0x80, 0x9F⟩
  else if 0xE1 ≤ b ∧ b ≤ 0xEF then .opens ⟨b - 0xE0, 2, 0x80, 0xBF⟩
  else if b = 0xF0 then .opens ⟨0, 3, 0x90, 0xBF⟩
  else if 0xF1 ≤ b ∧ b ≤ 0xF3 then .opens ⟨b - 0xF0, 3, 0x80, 0xBF⟩
  else if b = 0xF4 then .opens ⟨4, 3, 0x80, 0x8F⟩
  else .wrong

/-- Decodes bytes, given the beginning of a character seen so far. -/
def decodeFrom : Option Partial → List UInt8 → Text
  | none, [] => []
  | some _, [] => [replacement]
  | none, b :: bs =>
    match lead b.toNat with
    | .whole c => c :: decodeFrom none bs
    | .opens p => decodeFrom (some p) bs
    | .wrong => replacement :: decodeFrom none bs
  | some p, b :: bs =>
    if p.least ≤ b.toNat ∧ b.toNat ≤ p.greatest then
      let bits := p.bits * 0x40 + (b.toNat - 0x80)
      if p.owed ≤ 1 then Char.ofNat bits :: decodeFrom none bs
      else decodeFrom (some ⟨bits, p.owed - 1, 0x80, 0xBF⟩) bs
    else
      match lead b.toNat with
      | .whole c => replacement :: c :: decodeFrom none bs
      | .opens q => replacement :: decodeFrom (some q) bs
      | .wrong => replacement :: replacement :: decodeFrom none bs

/-- Bytes as text. -/
def decode (bytes : List UInt8) : Text := decodeFrom none bytes

/-- The UTF-8 bytes of one character. -/
def encodeChar (c : Char) : List UInt8 :=
  let n := c.toNat
  let byte (k : Nat) : UInt8 := UInt8.ofNat k
  if n < 0x80 then [byte n]
  else if n < 0x800 then [byte (0xC0 + n / 0x40), byte (0x80 + n % 0x40)]
  else if n < 0x10000 then
    [byte (0xE0 + n / 0x1000), byte (0x80 + n / 0x40 % 0x40), byte (0x80 + n % 0x40)]
  else
    [byte (0xF0 + n / 0x40000), byte (0x80 + n / 0x1000 % 0x40), byte (0x80 + n / 0x40 % 0x40),
      byte (0x80 + n % 0x40)]

/-- The UTF-8 bytes of a text. -/
def encode (t : Text) : List UInt8 := t.flatMap encodeChar

end Nsql.Text
