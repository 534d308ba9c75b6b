import Cast.Foundation.BigEndian
import Cast.Foundation.Checks
import Cast.TransitionJournal.Model

/-! The two fixed headers of a stone archive, 32 bytes each: the container's,
which counts the payloads, and each payload's, which declares its sizes. -/

namespace Cast.Stone

open Foundation

def stoneHeaderMagic : List UInt8 := [0x00, 0x6d, 0x6f, 0x73]

/-- Simple corruption check in the header. -/
def integrityCheck : List UInt8 := [0, 0, 1, 0, 0, 2, 0, 0, 3, 0, 0, 4, 0, 0, 5, 0, 0, 6, 0, 0, 7]

inductive FileType where
  | binary
  | delta
  | repository
  | buildManifest
  | unknown
deriving DecidableEq

def FileType.toByte : FileType → UInt8
  | binary => 1
  | delta => 2
  | repository => 3
  | buildManifest => 4
  | unknown => 255

def FileType.ofByte (byte : UInt8) : FileType :=
  if byte = 1 then .binary
  else if byte = 2 then .delta
  else if byte = 3 then .repository
  else if byte = 4 then .buildManifest
  else .unknown

/-- The container header; only version 1 exists. -/
structure StoneHeader where
  numPayloads : Nat
  fileType : FileType
deriving DecidableEq

def stoneHeaderSize : Nat := 32
def stoneHeaderVersion : Nat := 1

inductive HeaderDecodeError where
  | notEnoughBytes
  | invalidMagic
  | unknownVersion (version : Nat)
  | corrupt
deriving DecidableEq

def StoneHeader.encode (header : StoneHeader) : List UInt8 :=
  stoneHeaderMagic ++ (toBigEndian 2 header.numPayloads ++ integrityCheck ++ [header.fileType.toByte]) ++
    toBigEndian 4 stoneHeaderVersion

def StoneHeader.decode (archive : List UInt8) : Except HeaderDecodeError StoneHeader := do
  refuse (archive.length < stoneHeaderSize) .notEnoughBytes
  let data := (archive.drop 4).take 24
  let version := fromBigEndian ((archive.drop 28).take 4)
  refuse (archive.take 4 ≠ stoneHeaderMagic) .invalidMagic
  refuse (version ≠ stoneHeaderVersion) (.unknownVersion version)
  refuse ((data.drop 2).take 21 ≠ integrityCheck) .corrupt
  return ⟨fromBigEndian (data.take 2), .ofByte ((data.drop 23).headD 0)⟩

inductive PayloadKind where
  | metadata
  | content
  | layout
  | index
  | attributes
  | unknown
deriving DecidableEq

def PayloadKind.toByte : PayloadKind → UInt8
  | .metadata => 1
  | .content => 2
  | .layout => 3
  | .index => 4
  | .attributes => 5
  | .unknown => 255

def PayloadKind.ofByte (byte : UInt8) : PayloadKind :=
  if byte = 1 then .metadata
  else if byte = 2 then .content
  else if byte = 3 then .layout
  else if byte = 4 then .index
  else if byte = 5 then .attributes
  else .unknown

inductive Compression where
  | none
  | zstd
  | unknown
deriving DecidableEq

def Compression.toByte : Compression → UInt8
  | .none => 1
  | .zstd => 2
  | .unknown => 255

def Compression.ofByte (byte : UInt8) : Compression :=
  if byte = 1 then .none else if byte = 2 then .zstd else .unknown

structure PayloadHeader where
  storedSize : Nat
  plainSize : Nat
  checksum : List UInt8
  numRecords : Nat
  version : Nat
  kind : PayloadKind
  compression : Compression
deriving DecidableEq

def payloadHeaderSize : Nat := 32

/-- Each number is cut to its field's width. -/
def PayloadHeader.encode (header : PayloadHeader) : List UInt8 :=
  toBigEndian 8 header.storedSize ++ toBigEndian 8 header.plainSize ++ header.checksum ++
    toBigEndian 4 header.numRecords ++ toBigEndian 2 header.version ++
    [header.kind.toByte, header.compression.toByte]

/-- Reads a payload header from the front of what is left; `none` is an
unexpected end. -/
def PayloadHeader.decode (input : List UInt8) : Option PayloadHeader :=
  if input.length < payloadHeaderSize then none
  else some {
    storedSize := fromBigEndian (input.take 8)
    plainSize := fromBigEndian ((input.drop 8).take 8)
    checksum := (input.drop 16).take 8
    numRecords := fromBigEndian ((input.drop 24).take 4)
    version := fromBigEndian ((input.drop 28).take 2)
    kind := .ofByte ((input.drop 30).headD 0)
    compression := .ofByte ((input.drop 31).headD 0) }

end Cast.Stone
