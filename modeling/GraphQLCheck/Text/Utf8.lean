/-
  GraphQLCheck.Text.Utf8
  ──────────────────────
  Decoding of UTF-8, with the place and the length of the first malformed sequence.

  A sequence is malformed as far as its bytes could still have been continued: a byte that can start
  no sequence counts alone, and a sequence that is broken off counts up to the byte that breaks it.
  One that the text ends in the middle of is incomplete.
-/
import GraphQLCheck.Text.Ascii

namespace GraphQLCheck.Text

/-- Why bytes are no text. -/
inductive Utf8Error where
  /-- The malformed sequence has a length and starts at an index. -/
  | malformed (length index : Nat)
  /-- The bytes end in the middle of the sequence that starts at an index. -/
  | incomplete (index : Nat)
  deriving DecidableEq, Repr

/-- The text of a decoding error. -/
def Utf8Error.message : Utf8Error → String
  | .malformed length index =>
    "invalid utf-8 sequence of " ++ showNat length ++ " bytes from index " ++ showNat index
  | .incomplete index => "incomplete utf-8 byte sequence from index " ++ showNat index

namespace Utf8

/-- Whether a byte continues a sequence. -/
def continues (b : UInt8) : Bool := 0x80 ≤ b && b ≤ 0xBF

/-- Whether a byte may be the second one of a sequence that starts with a given byte: no character
has a longer sequence than it needs, and none is a surrogate or beyond U+10FFFF. -/
def continuesFirst (first second : UInt8) : Bool :=
  if first = 0xE0 then 0xA0 ≤ second && second ≤ 0xBF
  else if first = 0xED then 0x80 ≤ second && second ≤ 0x9F
  else if first = 0xF0 then 0x90 ≤ second && second ≤ 0xBF
  else if first = 0xF4 then 0x80 ≤ second && second ≤ 0x8F
  else continues second

/-- The value that the low bits of a byte add to a code point. -/
def low (b : UInt8) (modulus : Nat) : Nat := b.toNat % modulus

/-- The characters of some bytes that start at an index. -/
def decodeFrom (index : Nat) : List UInt8 → Except Utf8Error (List Char)
  | [] => .ok []
  | a :: rest =>
    if a < 0x80 then
      (decodeFrom (index + 1) rest).map (Char.ofNat a.toNat :: ·)
    else if 0xC2 ≤ a && a ≤ 0xDF then
      match rest with
      | [] => .error (.incomplete index)
      | b :: rest =>
        if !continues b then .error (.malformed 1 index)
        else (decodeFrom (index + 2) rest).map (Char.ofNat (low a 32 * 64 + low b 64) :: ·)
    else if 0xE0 ≤ a && a ≤ 0xEF then
      match rest with
      | [] => .error (.incomplete index)
      | b :: rest =>
        if !continuesFirst a b then .error (.malformed 1 index)
        else
          match rest with
          | [] => .error (.incomplete index)
          | c :: rest =>
            if !continues c then .error (.malformed 2 index)
            else (decodeFrom (index + 3) rest).map
              (Char.ofNat (low a 16 * 4096 + low b 64 * 64 + low c 64) :: ·)
    else if 0xF0 ≤ a && a ≤ 0xF4 then
      match rest with
      | [] => .error (.incomplete index)
      | b :: rest =>
        if !continuesFirst a b then .error (.malformed 1 index)
        else
          match rest with
          | [] => .error (.incomplete index)
          | c :: rest =>
            if !continues c then .error (.malformed 2 index)
            else
              match rest with
              | [] => .error (.incomplete index)
              | d :: rest =>
                if !continues d then .error (.malformed 3 index)
                else (decodeFrom (index + 4) rest).map
                  (Char.ofNat (low a 8 * 262144 + low b 64 * 4096 + low c 64 * 64 + low d 64) :: ·)
    else .error (.malformed 1 index)

/-- The text of some bytes. -/
def decode (bytes : List UInt8) : Except Utf8Error String :=
  (decodeFrom 0 bytes).map String.ofList

end Utf8

end GraphQLCheck.Text
