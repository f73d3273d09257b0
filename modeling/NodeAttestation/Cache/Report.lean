import NodeAttestation.Cache.Basic
import NodeAttestation.Text.Quoted

/-! A report on the cache for the reader, one entry a node. -/

namespace NodeAttestation

def NodeRecord.report (node : String) (r : NodeRecord) : String :=
  node ++ "\n    publicKey: " ++ r.publicKey.toHex ++
    "\n    attestationExpiry: " ++ r.expiry.stampWithOffset ++
    "\n    cloudOSVersion: " ++ r.attestation.osVersion ++
    ", cloudOSReleaseType: " ++ r.attestation.releaseType ++
    ", unvalidatedCellID: " ++ Text.quoteOption r.attestation.unvalidatedCell ++
    "\n    validatedCellID: " ++ Text.quoteOption r.validatedCell ++
    "\n    ensembleID: " ++ Text.quoteOption r.attestation.ensemble

def Cache.report (c : Cache) : List String :=
  c.records.entries.map fun entry => entry.2.report entry.1

end NodeAttestation
