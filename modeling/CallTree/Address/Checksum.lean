import CallTree.Keccak
import CallTree.Text.Hex

/-!
# Addresses in mixed case

In messages an address is written with a checksum in the case of its letters: the digits are
hashed as text, and a letter is in upper case where the hash has a digit of at least eight at the
same place.
-/

namespace CallTree

namespace Address

/-- The digits of a byte string as numbers, the high half of each byte first. -/
def halves (bytes : Bytes) : List UInt8 :=
  bytes.flatMap fun b => [b / 16, b % 16]

/-- The forty digits of an address, their case being a checksum. -/
def checksummed (address : Address) : List Char :=
  let digits := Hex.digits 40 address.toNat
  let hash := halves (Keccak.digest (digits.map fun c => UInt8.ofNat c.toNat))
  List.zipWith (fun c h => if 8 ≤ h then c.toUpper else c) digits hash

/-- The text of an address in messages. -/
def checksumText (address : Address) : String :=
  String.ofList (Hex.marked (checksummed address))

end Address

end CallTree
