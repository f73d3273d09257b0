import NodeAttestation.Bytes

/-! Identifiers of requests. They are minted one after the other and never twice. -/

namespace NodeAttestation

structure Id where
  serial : Nat
deriving DecidableEq

namespace Id

def groups : List Nat → List Char → List (List Char)
  | [], _ => []
  | width :: widths, digits => digits.take width :: groups widths (digits.drop width)

/-- Sixteen bytes in hexadecimal, in five groups. -/
def text (id : Id) : String :=
  let digits := (Bytes.bigEndian 16 id.serial).toHex.toList
  "-".intercalate ((groups [8, 4, 4, 4, 12] digits).map String.ofList)

end Id

end NodeAttestation
