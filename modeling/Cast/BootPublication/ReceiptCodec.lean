import Cast.BootPublication.ReceiptBody
import Cast.TransitionJournal.Codec

/-! The canonical bytes of a receipt body and its identity. The serializer is
spelled out as the derived one writes it, field by field in declaration order; the
digest and the JSON reader belong to other crates and are parameters. -/

namespace Cast.BootPublication

open Foundation TransitionJournal

def Root.name : Root → String
  | .esp => "esp"
  | .boot => "boot"

def PublicationPhase.name : PublicationPhase → String
  | .payload => "payload"
  | .entry => "entry"
  | .loaderControl => "loader-control"
  | .bootloader => "bootloader"

def OutputRole.name : OutputRole → String
  | .payload => "payload"
  | .entry => "entry"
  | .loaderControl => "loader-control"
  | .fallbackBootloader => "fallback-bootloader"
  | .systemdBootloader => "systemd-bootloader"

def OutputProvenanceClaim.name : OutputProvenanceClaim → String
  | .borrowedFirstAdoption => "borrowed-first-adoption"
  | .unclaimedAbsent => "unclaimed-absent"
  | .claimedPublishedByCast => "claimed-published-by-cast"

def encodeLowerHex (bytes : List UInt8) : List UInt8 :=
  bytes.flatMap fun (byte : UInt8) => [hexDigit (byte >>> 4), hexDigit (byte &&& 0x0f)]

def Sha256.toJson (digest : Sha256) : List UInt8 := jsonString (encodeLowerHex digest.bytes.toList)

def Xxh3.toJson (digest : Xxh3) : List UInt8 := jsonString (encodeLowerHex digest.bytes.toList)

def HistoricalRuntimeWitness.toJson (witness : HistoricalRuntimeWitness) : List UInt8 :=
  jsonObject [ (utf8 "destination_device", jsonNatural witness.destinationDevice.toNat),
    (utf8 "destination_inode", jsonNatural witness.destinationInode.toNat),
    (utf8 "mount_id", jsonNatural witness.mountId.toNat),
    (utf8 "partition_device_major", jsonNatural witness.partitionDeviceMajor.toNat),
    (utf8 "partition_device_minor", jsonNatural witness.partitionDeviceMinor.toNat),
    (utf8 "disk_sequence", jsonOption (fun sequence => jsonNatural sequence.toNat) witness.diskSequence)]

def Destination.toJson (destination : Destination) : List UInt8 :=
  jsonObject [ (utf8 "partuuid", jsonText destination.partuuid),
    (utf8 "partition_number", jsonNatural destination.partitionNumber.toNat),
    (utf8 "historical_runtime_witness", destination.historicalRuntimeWitness.toJson)]

/-- The layout's name comes first, as the tag beside the fields. -/
def Destinations.toJson : Destinations → List UInt8
  | bootAliasesEsp esp =>
    jsonObject [ (utf8 "layout", jsonText "boot-aliases-esp"), (utf8 "esp", esp.toJson)]
  | distinctXbootldr esp xbootldr =>
    jsonObject [ (utf8 "layout", jsonText "distinct-xbootldr"), (utf8 "esp", esp.toJson),
      (utf8 "xbootldr", xbootldr.toJson)]

def Output.toJson (output : Output) : List UInt8 :=
  jsonObject [ (utf8 "root", jsonText output.root.name), (utf8 "phase", jsonText output.phase.name),
    (utf8 "role", jsonText output.role.name),
    (utf8 "relative_path", jsonText output.relativePath),
    (utf8 "mode", jsonNatural output.mode.toNat),
    (utf8 "xxh3", output.xxh3.toJson),
    (utf8 "length", jsonNatural output.length.toNat),
    (utf8 "content_sha256", output.contentSha256.toJson),
    (utf8 "provenance_claim", jsonText output.provenanceClaim.name)]

/-- `serde_json::to_vec`. -/
def ReceiptBody.toVec (body : ReceiptBody) : List UInt8 :=
  jsonObject [ (utf8 "format", jsonText body.format), (utf8 "version", jsonNatural body.version.toNat),
    (utf8 "transition_id", jsonText body.transitionId.text),
    (utf8 "committed_predecessor", jsonOption ReceiptFingerprint.toJson body.committedPredecessor),
    (utf8 "predecessor_journal_sha256", body.predecessorJournalSha256.toJson),
    (utf8 "desired_inventory_sha256", body.desiredInventorySha256.toJson),
    (utf8 "destinations", body.destinations.toJson),
    (utf8 "outputs", jsonArray (body.outputs.map Output.toJson))]

def receiptFingerprintDomain : List UInt8 := utf8 "os-tools/forge/boot-publication-receipt-body/v1\x00"

def maxCanonicalReceiptBodyBytes : Nat := 16 * 1024 * 1024

/-- One validated body with its exact canonical bytes and identity. -/
structure CanonicalReceipt where
  body : ReceiptBody
  canonicalBody : List UInt8
  fingerprint : ReceiptFingerprint
deriving DecidableEq

inductive ReceiptCodecError where
  | bodyTooLarge (actual : Nat)
  | json (error : String)
  | body (error : ReceiptBodyError)
  | nonCanonicalBody

section Codec

variable (device : DeviceNumbers) (sha256 : List UInt8 → Vector UInt8 32)

def enforceBodySize (size : Nat) : Except ReceiptCodecError Unit :=
  refuse (size > maxCanonicalReceiptBodyBytes) (.bodyTooLarge size)

def fingerprint (canonicalBody : List UInt8) : ReceiptFingerprint :=
  ⟨sha256 (receiptFingerprintDomain ++ toBigEndian 8 canonicalBody.length ++ canonicalBody)⟩

def canonicalReceipt (body : ReceiptBody) (canonicalBody : List UInt8) : CanonicalReceipt :=
  ⟨body, canonicalBody, fingerprint sha256 canonicalBody⟩

def prepareReceipt (body : ReceiptBody) : Except ReceiptCodecError CanonicalReceipt := do
  (body.validate device).mapError .body
  let canonicalBody := body.toVec
  enforceBodySize canonicalBody.length
  return canonicalReceipt sha256 body canonicalBody

variable (fromSlice : List UInt8 → Except String ReceiptBody)

def decodeReceipt (canonicalBody : List UInt8) : Except ReceiptCodecError CanonicalReceipt := do
  enforceBodySize canonicalBody.length
  let body ← (fromSlice canonicalBody).mapError .json
  (body.validate device).mapError .body
  let reencoded := body.toVec
  refuse (reencoded ≠ canonicalBody) .nonCanonicalBody
  return canonicalReceipt sha256 body reencoded

end Codec

end Cast.BootPublication
