/-!
# Base 64 for addresses

Bytes are written with 64 characters that addresses may hold, six bits to a character: three bytes
in four characters, two in three and one in two, without padding. Only what writing produces can be
read back: no other character, no length that leaves one character over, no bit set beyond the last
byte.
-/

namespace Folio.Text.Base64Url

/-- The 64 digits in the order of their values. -/
def alphabet : List Char :=
  "ABCDEFGHIJKLMNOPQRSTUVWXYZabcdefghijklmnopqrstuvwxyz0123456789-_".toList

/-- The digit with a value below 64. -/
def digit (value : Nat) : Char := alphabet.getD value 'A'

/-- The value of a digit. -/
def value? (c : Char) : Option Nat := alphabet.idxOf? c

/-- The values of the digits of bytes. -/
def values : List UInt8 → List Nat
  | a :: b :: c :: rest =>
    a.toNat / 4 :: (a.toNat % 4 * 16 + b.toNat / 16) :: (b.toNat % 16 * 4 + c.toNat / 64) ::
      (c.toNat % 64) :: values rest
  | [a, b] => [a.toNat / 4, a.toNat % 4 * 16 + b.toNat / 16, b.toNat % 16 * 4]
  | [a] => [a.toNat / 4, a.toNat % 4 * 16]
  | [] => []

/-- The bytes with these values of digits. -/
def bytesOf? : List Nat → Option (List UInt8)
  | w :: x :: y :: z :: rest =>
    (bytesOf? rest).map fun bytes =>
      UInt8.ofNat (w * 4 + x / 16) :: UInt8.ofNat (x % 16 * 16 + y / 4) ::
        UInt8.ofNat (y % 4 * 64 + z) :: bytes
  | [w, x, y] =>
    if y % 4 = 0 then some [UInt8.ofNat (w * 4 + x / 16), UInt8.ofNat (x % 16 * 16 + y / 4)]
    else none
  | [w, x] => if x % 16 = 0 then some [UInt8.ofNat (w * 4 + x / 16)] else none
  | [_] => none
  | [] => some []

/-- The text of bytes. -/
def encode (bytes : List UInt8) : String := String.ofList ((values bytes).map digit)

/-- The bytes that a text stands for. -/
def decode? (text : String) : Option (List UInt8) := do
  let digits ← text.toList.mapM value?
  bytesOf? digits

end Folio.Text.Base64Url
