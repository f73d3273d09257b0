import NodeAttestation.Wire.Field

/-! Messages as bytes: the fields in the order of their numbers, defaults left out. -/

namespace NodeAttestation

namespace Attestation

def encode (a : Attestation) : Bytes :=
  Wire.textField 1 a.node ++ Wire.bytesField 2 a.bundle ++ Wire.textField 3 a.osVersion ++
    Wire.textField 4 a.releaseType ++ Wire.optionalText 5 a.unvalidatedCell ++
    Wire.optionalText 6 a.ensemble

end Attestation

namespace PushedLimit

def encodeTag (tag : String × String) : Bytes :=
  Wire.delimited 4 (Wire.textField 1 tag.1 ++ Wire.textField 2 tag.2)

/-- The limit with its tags written in a given order. -/
def encodeWith (tags : List (String × String)) (l : PushedLimit) : Bytes :=
  Wire.optionalText 1 l.bundle ++ Wire.optionalText 2 l.feature ++
    Wire.optionalText 3 l.workloadType ++ tags.flatMap encodeTag ++
    Wire.numberField 5 l.requestCount.toNat ++ Wire.doubleField 6 l.windowSeconds ++
    Wire.doubleField 7 l.lifetimeSeconds ++ Wire.doubleField 8 l.jitter

def encode (l : PushedLimit) : Bytes := l.encodeWith l.workloadTags.entries

def encodeList (entries : List PushedLimit) : Bytes :=
  entries.flatMap fun l => Wire.delimited 1 l.encode

end PushedLimit

namespace Response

def encode : Response → Bytes
  | empty => []
  | attestation a => Wire.delimited 1 a.encode
  | limits entries => Wire.delimited 2 (PushedLimit.encodeList entries)

end Response

namespace AttestationRequest

def encodeStreaming : Option Bool → Bytes
  | none => []
  | some streaming => Wire.delimited 1 (Wire.numberField 1 streaming.toNat)

def encode (r : AttestationRequest) : Bytes :=
  encodeStreaming r.streaming ++ Wire.numberField 2 r.count.toNat

end AttestationRequest

end NodeAttestation
