import Mathlib.Data.UInt

/-!
# The bytes of an image

The signatures of the accepted image formats and the base64 text of a buffer.
-/

namespace TaroTria

/-- The bytes of a Node buffer. -/
abbrev Buffer := List UInt8

inductive PalmImageMimeType
  | jpeg | png | webp
  deriving DecidableEq, Repr

def PalmImageMimeType.toString : PalmImageMimeType → String
  | jpeg => "image/jpeg"
  | png => "image/png"
  | webp => "image/webp"

namespace Buffer

/-- `buffer.toString('ascii', start, stop)`, which clears the highest bit of each byte. -/
def asciiSlice (buffer : Buffer) (start stop : Nat) : List UInt8 :=
  ((buffer.drop start).take (stop - start)).map (· &&& 0x7f)

/-- The 64 digits of base64. -/
def base64Digit (n : Nat) : Char :=
  if n < 26 then Char.ofNat (65 + n)
  else if n < 52 then Char.ofNat (97 + (n - 26))
  else if n < 62 then Char.ofNat (48 + (n - 52))
  else if n = 62 then '+' else '/'

/-- Three bytes give four digits; a shorter end is padded. -/
def base64Digits : Buffer → List Char
  | [] => []
  | [a] => [base64Digit (a.toNat / 4), base64Digit (a.toNat % 4 * 16), '=', '=']
  | [a, b] =>
      [base64Digit (a.toNat / 4), base64Digit (a.toNat % 4 * 16 + b.toNat / 16),
        base64Digit (b.toNat % 16 * 4), '=']
  | a :: b :: c :: rest =>
      base64Digit (a.toNat / 4) :: base64Digit (a.toNat % 4 * 16 + b.toNat / 16) ::
        base64Digit (b.toNat % 16 * 4 + c.toNat / 64) :: base64Digit (c.toNat % 64) ::
        base64Digits rest

/-- `buffer.toString('base64')`. -/
def toBase64 (buffer : Buffer) : String := String.ofList (base64Digits buffer)

end Buffer

def sniffImageMimeType (buffer : Buffer) : Option PalmImageMimeType :=
  if 3 ≤ buffer.length ∧ buffer[0]? = some 0xff ∧ buffer[1]? = some 0xd8 ∧
      buffer[2]? = some 0xff then
    some .jpeg
  else if 8 ≤ buffer.length ∧ buffer[0]? = some 0x89 ∧ buffer[1]? = some 0x50 ∧
      buffer[2]? = some 0x4e ∧ buffer[3]? = some 0x47 ∧ buffer[4]? = some 0x0d ∧
      buffer[5]? = some 0x0a ∧ buffer[6]? = some 0x1a ∧ buffer[7]? = some 0x0a then
    some .png
  else if 12 ≤ buffer.length ∧ Buffer.asciiSlice buffer 0 4 = [0x52, 0x49, 0x46, 0x46] ∧
      Buffer.asciiSlice buffer 8 12 = [0x57, 0x45, 0x42, 0x50] then
    some .webp
  else none

end TaroTria
