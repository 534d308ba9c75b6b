import Cast.Stone.Relation

/-! Package metadata and its record form, as `forge/src/package/meta.rs` reads and writes them.
A binary package may lack the fields of a repository; an index entry has each singleton field
exactly once and only relations of known kinds. -/

namespace Cast.Package

open Foundation Stone

structure Meta where
  name : String
  versionIdentifier : String
  sourceRelease : UInt64
  buildRelease : UInt64
  architecture : String
  summary : String
  description : String
  sourceId : String
  homepage : String
  licenses : List String
  dependencies : SortedSet Dependency
  providers : SortedSet Provider
  conflicts : SortedSet Provider
  uri : Option String
  hash : Option String
  downloadSize : Option UInt64

structure MissingMetaFieldError where
  tag : MetaTag

/-! ### Records of a binary package -/

/-- Integers are cast, so that a negative one wraps around. -/
def castU64 : MetaPrimitive → Option UInt64
  | .int8 value => some value.toInt64.toUInt64
  | .uint8 value => some value.toUInt64
  | .int16 value => some value.toInt64.toUInt64
  | .uint16 value => some value.toUInt64
  | .int32 value => some value.toInt64.toUInt64
  | .uint32 value => some value.toUInt64
  | .int64 value => some value.toUInt64
  | .uint64 value => some value
  | _ => none

def metaU64 (tag : MetaTag) (record : MetaRecord) : Option UInt64 :=
  if record.tag = tag then castU64 record.primitive else none

def metaString (tag : MetaTag) (record : MetaRecord) : Option String :=
  match record.primitive with
  | .string value => if record.tag = tag then some value else none
  | _ => none

/-- A dependency is taken whatever its tag is. -/
def metaDependency (record : MetaRecord) : Option Dependency :=
  match record.primitive with
  | .dependency kind name => (Kind.fromStoneDependency kind).map fun kind => ⟨kind, name⟩
  | _ => none

/-- What providers and conflicts share: the tag tells them apart. -/
def metaRelation (tag : MetaTag) (record : MetaRecord) : Option Provider :=
  match record.primitive with
  | .provider kind name =>
    if record.tag = tag then (Kind.fromStoneDependency kind).map fun kind => ⟨kind, name⟩
    else none
  | _ => none

def metaProvider (record : MetaRecord) : Option Provider := metaRelation .provides record

def metaConflict (record : MetaRecord) : Option Provider := metaRelation .conflicts record

def findMetaString (payload : List MetaRecord) (tag : MetaTag) : Except MissingMetaFieldError String :=
  okOr (payload.findSome? (metaString tag)) ⟨tag⟩

def findMetaU64 (payload : List MetaRecord) (tag : MetaTag) : Except MissingMetaFieldError UInt64 :=
  okOr (payload.findSome? (metaU64 tag)) ⟨tag⟩

def ownName (name : String) : Provider := ⟨.packageName, name⟩

namespace Meta

def fromStonePayload (payload : List MetaRecord) : Except MissingMetaFieldError Meta := do
  let name ← findMetaString payload .name
  let versionIdentifier ← findMetaString payload .version
  let sourceRelease ← findMetaU64 payload .release
  let buildRelease ← findMetaU64 payload .buildRelease
  let architecture ← findMetaString payload .architecture
  let summary ← findMetaString payload .summary
  let description ← findMetaString payload .description
  let sourceId ← findMetaString payload .sourceID
  let homepage ← findMetaString payload .homepage
  return {
    name, versionIdentifier, sourceRelease, buildRelease, architecture, summary, description,
    sourceId, homepage
    licenses := payload.filterMap (metaString .license)
    dependencies := .ofList (payload.filterMap metaDependency)
    providers := .ofList (payload.filterMap metaProvider ++ [ownName name])
    conflicts := .ofList (payload.filterMap metaConflict)
    uri := payload.findSome? (metaString .packageURI)
    hash := payload.findSome? (metaString .packageHash)
    downloadSize := payload.findSome? (metaU64 .packageSize) }

end Meta

/-! ### Records of a repository index -/

inductive RepositoryMetaError where
  | missingField (tag : MetaTag)
  | duplicateField (tag : MetaTag) (count : Nat)
  | wrongPrimitive (tag : MetaTag) (expected : String)
  | negativeInteger (tag : MetaTag)
  | emptyField (tag : MetaTag)
  | integerOutOfRange (tag : MetaTag) (value : UInt64)
  | packageSizeExceedsPolicy (limit : UInt64)
  | invalidPackageHash
  | unknownRelationKind (tag : MetaTag)
  | invalidRelation (tag : MetaTag)
  | unsupportedTag (tag : MetaTag)

def repositoryRecord (payload : List MetaRecord) (tag : MetaTag) : Except RepositoryMetaError MetaRecord :=
  match payload.filter fun record => record.tag = tag with
  | [] => .error (.missingField tag)
  | [record] => .ok record
  | _ :: additional => .error (.duplicateField tag (additional.length + 1))

def repositoryString (payload : List MetaRecord) (tag : MetaTag) :
    Except RepositoryMetaError String := do
  let record ← repositoryRecord payload tag
  match record.primitive with
  | .string value => return value
  | _ => .error (.wrongPrimitive tag "string")

def repositoryNonemptyString (payload : List MetaRecord) (tag : MetaTag) :
    Except RepositoryMetaError String := do
  let value ← repositoryString payload tag
  refuse (value.isEmpty = true) (.emptyField tag)
  return value

def nonNegative (tag : MetaTag) (value : Int64) : Except RepositoryMetaError UInt64 := do
  refuse (value < 0) (.negativeInteger tag)
  return value.toUInt64

def repositoryU64 (payload : List MetaRecord) (tag : MetaTag) :
    Except RepositoryMetaError UInt64 := do
  let record ← repositoryRecord payload tag
  match record.primitive with
  | .int8 value => nonNegative tag value.toInt64
  | .uint8 value => return value.toUInt64
  | .int16 value => nonNegative tag value.toInt64
  | .uint16 value => return value.toUInt64
  | .int32 value => nonNegative tag value.toInt64
  | .uint32 value => return value.toUInt64
  | .int64 value => nonNegative tag value
  | .uint64 value => return value
  | _ => .error (.wrongPrimitive tag "non-negative integer")

def maxDownloadBytes : UInt64 := 8 * 1024 * 1024 * 1024

structure Gathered where
  licenses : List String
  dependencies : SortedSet Dependency
  providers : SortedSet Provider
  conflicts : SortedSet Provider

def repositoryRelation (tag : MetaTag) (kind : MetaDependency) (value : String) :
    Except RepositoryMetaError Relation := do
  let kind ← okOr (Kind.fromStoneDependency kind) (.unknownRelationKind tag)
  (Relation.new kind value).mapError fun _ => .invalidRelation tag

def gather (gathered : Gathered) (record : MetaRecord) : Except RepositoryMetaError Gathered :=
  match record.tag with
  | .name | .architecture | .version | .summary | .description | .homepage | .sourceID | .release
  | .buildRelease | .packageURI | .packageHash | .packageSize => .ok gathered
  | .license =>
    match record.primitive with
    | .string license => .ok { gathered with licenses := gathered.licenses ++ [license] }
    | _ => .error (.wrongPrimitive record.tag "string")
  | .depends =>
    match record.primitive with
    | .dependency kind value => do
      let dependency ← repositoryRelation record.tag kind value
      return { gathered with dependencies := gathered.dependencies.insert dependency }
    | _ => .error (.wrongPrimitive record.tag "dependency")
  | .provides =>
    match record.primitive with
    | .provider kind value => do
      let provider ← repositoryRelation record.tag kind value
      return { gathered with providers := gathered.providers.insert provider }
    | _ => .error (.wrongPrimitive record.tag "provider")
  | .conflicts =>
    match record.primitive with
    | .provider kind value => do
      let provider ← repositoryRelation record.tag kind value
      return { gathered with conflicts := gathered.conflicts.insert provider }
    | _ => .error (.wrongPrimitive record.tag "provider")
  | unsupported => .error (.unsupportedTag unsupported)

namespace Meta

def fromRepositoryIndexPayload (payload : List MetaRecord) : Except RepositoryMetaError Meta := do
  let name ← repositoryNonemptyString payload .name
  let versionIdentifier ← repositoryNonemptyString payload .version
  let sourceRelease ← repositoryU64 payload .release
  let buildRelease ← repositoryU64 payload .buildRelease
  let architecture ← repositoryNonemptyString payload .architecture
  let summary ← repositoryString payload .summary
  let description ← repositoryString payload .description
  let sourceId ← repositoryNonemptyString payload .sourceID
  let homepage ← repositoryString payload .homepage
  let uri ← repositoryNonemptyString payload .packageURI
  let hash ← repositoryString payload .packageHash
  let downloadSize ← repositoryU64 payload .packageSize
  refuse (2 ^ 31 ≤ sourceRelease.toNat) (.integerOutOfRange .release sourceRelease)
  refuse (2 ^ 31 ≤ buildRelease.toNat) (.integerOutOfRange .buildRelease buildRelease)
  refuse (2 ^ 63 ≤ downloadSize.toNat) (.integerOutOfRange .packageSize downloadSize)
  refuse (maxDownloadBytes < downloadSize) (.packageSizeExceedsPolicy maxDownloadBytes)
  refuse ((utf8 hash).length ≠ 64 ∨ (utf8 hash).all isLowerHex = false) .invalidPackageHash
  let gathered ← payload.foldlM gather ⟨[], .empty, .empty, .empty⟩
  let own ← (Relation.new .packageName name).mapError fun _ => .invalidRelation .name
  return {
    name, versionIdentifier, sourceRelease, buildRelease, architecture, summary, description,
    sourceId, homepage
    licenses := gathered.licenses
    dependencies := gathered.dependencies
    providers := gathered.providers.insert own
    conflicts := gathered.conflicts
    uri := some uri
    hash := some hash
    downloadSize := some downloadSize }

/-! ### The record form -/

def requiredRecords (self : Meta) : List MetaRecord :=
  [⟨.name, .string self.name⟩, ⟨.version, .string self.versionIdentifier⟩,
    ⟨.release, .uint64 self.sourceRelease⟩, ⟨.buildRelease, .uint64 self.buildRelease⟩,
    ⟨.architecture, .string self.architecture⟩, ⟨.summary, .string self.summary⟩,
    ⟨.description, .string self.description⟩, ⟨.sourceID, .string self.sourceId⟩,
    ⟨.homepage, .string self.homepage⟩]

/-- Providers of the package-name kind are left out: the decoder adds the package's own. -/
def toStonePayload (self : Meta) : List MetaRecord :=
  self.requiredRecords ++
  self.uri.toList.map (fun uri => ⟨.packageURI, .string uri⟩) ++
  self.hash.toList.map (fun hash => ⟨.packageHash, .string hash⟩) ++
  self.downloadSize.toList.map (fun size => ⟨.packageSize, .uint64 size⟩) ++
  self.licenses.map (fun license => ⟨.license, .string license⟩) ++
  self.dependencies.elements.map (fun dependency =>
    ⟨.depends, .dependency dependency.kind.toStoneDependency dependency.name⟩) ++
  (self.providers.elements.filter fun provider => provider.kind ≠ .packageName).map (fun provider =>
    ⟨.provides, .provider provider.kind.toStoneDependency provider.name⟩) ++
  self.conflicts.elements.map (fun conflict =>
    ⟨.conflicts, .provider conflict.kind.toStoneDependency conflict.name⟩)

end Meta

end Cast.Package
