import MetaTx.Bytes.Bech32
import MetaTx.Error

/-!
# Texts of chain addresses

What stands behind the alias of a chain address is read under the name of a network. A text that stands
for no bytes there is refused as no text of a key. A wrong checksum is told apart from all else.
-/

namespace MetaTx.Bech32

/-- What the refusal of a text means for an address. -/
def Refusal.error : Refusal → Error
  | malformed => .keyText .bech32
  | checksum => .fault .bech32Checksum

/-- The bytes of an address under a human-readable part. -/
def read (hrp address : String) : Except Error Bytes :=
  (decode hrp address).mapError Refusal.error

end MetaTx.Bech32
