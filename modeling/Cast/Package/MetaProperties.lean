import Cast.Package.Meta

/-! Re-encoding package metadata. Everything comes back except providers of the package-name
kind, of which only the package's own is added again. -/

namespace Cast.Package

open Foundation Stone List Meta

variable {value : String}

section Reencoding

variable (self : Meta)

def reencodedProviders : SortedSet Provider :=
  .ofList ((self.providers.elements.filter fun provider => provider.kind ≠ .packageName) ++ [ownName self.name])

theorem findSome?_const_none {α β : Type} (list : List α) : list.findSome? (fun _ => (none : Option β)) = none := by
  rw [findSome?_eq_none_iff]
  intros
  rfl

theorem findSome?_toList {α : Type} (value : Option α) :
    value.toList.findSome? some = value := by
  cases value with
  | none | some _ => rfl

theorem options_toStonePayload : self.toStonePayload.findSome? (metaString .packageURI) = self.uri ∧
    self.toStonePayload.findSome? (metaString .packageHash) = self.hash ∧
    self.toStonePayload.findSome? (metaU64 .packageSize) = self.downloadSize := by
  simp [toStonePayload, requiredRecords, metaString, metaU64, castU64, findSome?_append, findSome?_cons, findSome?_map,
    Function.comp_def, findSome?_const_none, findSome?_toList]

theorem licenses_toStonePayload : self.toStonePayload.filterMap (metaString .license) = self.licenses := by
  have required : self.requiredRecords.filterMap (metaString .license) = [] := rfl
  simp [toStonePayload, required, metaString, filterMap_map, Function.comp_def]

theorem dependencies_toStonePayload :
    self.toStonePayload.filterMap metaDependency = self.dependencies.elements := by
  have required : self.requiredRecords.filterMap metaDependency = [] := rfl
  simp [toStonePayload, required, metaDependency, filterMap_map, Function.comp_def]

theorem providers_toStonePayload : self.toStonePayload.filterMap metaProvider =
    self.providers.elements.filter fun provider => provider.kind ≠ .packageName := by
  have required : self.requiredRecords.filterMap metaProvider = [] := rfl
  simp [toStonePayload, required, metaProvider, metaRelation, filterMap_map, Function.comp_def]

theorem conflicts_toStonePayload :
    self.toStonePayload.filterMap metaConflict = self.conflicts.elements := by
  have required : self.requiredRecords.filterMap metaConflict = [] := rfl
  simp [toStonePayload, required, metaConflict, metaRelation, filterMap_map, Function.comp_def]

/-- Decoding the record form of any metadata gives it back, up to its providers. -/
theorem fromStonePayload_toStonePayload :
    fromStonePayload self.toStonePayload = .ok { self with providers := reencodedProviders self } := by
  -- The required records come first, in the order in which they are looked for.
  have required : fromStonePayload self.toStonePayload = .ok { self with
      licenses := self.toStonePayload.filterMap (metaString .license)
      dependencies := .ofList (self.toStonePayload.filterMap metaDependency)
      providers := .ofList (self.toStonePayload.filterMap metaProvider ++ [ownName self.name])
      conflicts := .ofList (self.toStonePayload.filterMap metaConflict)
      uri := self.toStonePayload.findSome? (metaString .packageURI)
      hash := self.toStonePayload.findSome? (metaString .packageHash)
      downloadSize := self.toStonePayload.findSome? (metaU64 .packageSize) } := rfl
  obtain ⟨uri, hash, downloadSize⟩ := options_toStonePayload self
  rw [required, licenses_toStonePayload, dependencies_toStonePayload, providers_toStonePayload,
    conflicts_toStonePayload, uri, hash, downloadSize, SortedSet.ofList_elements, SortedSet.ofList_elements]
  rfl

variable {self}

/-- Re-encoding loses the providers that only look like the package's own name. -/
theorem reencodes_iff (own : ownName self.name ∈ self.providers.elements) :
    fromStonePayload self.toStonePayload = .ok self ↔
      ∀ provider ∈ self.providers.elements, provider.kind = .packageName → provider = ownName self.name := by
  have members : ∀ provider, provider ∈ (reencodedProviders self).elements ↔
      (provider ∈ self.providers.elements ∧ provider.kind ≠ .packageName) ∨ provider = ownName self.name := by
    intro provider
    simp [reencodedProviders]
  rw [fromStonePayload_toStonePayload]
  constructor
  · intro same provider member isName
    have unchanged : reencodedProviders self = self.providers := congrArg Meta.providers (Except.ok.inj same)
    rw [← unchanged, members] at member
    exact member.resolve_left fun held => held.2 isName
  · intro onlyOwn
    have unchanged : reencodedProviders self = self.providers := by
      refine SortedSet.ext fun provider => ?_
      rw [members]
      constructor
      · intro held
        rcases held with ⟨member, _⟩ | isOwn
        · exact member
        · exact isOwn ▸ own
      · intro member
        by_cases isName : provider.kind = .packageName
        · exact .inr (onlyOwn provider member isName)
        · exact .inl ⟨member, isName⟩
    rw [unchanged]

end Reencoding

variable {payload : List MetaRecord} {found : Meta} {provider : Provider}

/-- What either decoder says about the name and the providers. -/
structure DecodedFrom (payload : List MetaRecord) (found : Meta) : Prop where
  name : payload.findSome? (metaString .name) = some found.name
  mem_providers : ∀ provider, provider ∈ found.providers.elements ↔
    (∃ record ∈ payload, metaProvider record = some provider) ∨ provider = ownName found.name

theorem decodedFrom_stone (decoded : fromStonePayload payload = .ok found) :
    DecodedFrom payload found := by
  simp only [fromStonePayload, bind_eq_ok] at decoded
  obtain ⟨name, isName, _, _, _, _, _, _, _, _, _, _, _, _, _, _, _, _, made⟩ := decoded
  cases made
  refine ⟨okOr_eq_ok.mp isName, ?_⟩
  intro provider
  simp only [SortedSet.mem_ofList, mem_append, mem_filterMap, mem_singleton]

variable {tag : MetaTag} {record : MetaRecord}

theorem metaString_of_ne (other : record.tag ≠ tag) : metaString tag record = none := by
  unfold metaString
  split
  · exact if_neg other
  · rfl

theorem metaRelation_of_ne (other : record.tag ≠ tag) : metaRelation tag record = none := by
  unfold metaRelation
  split
  · exact if_neg other
  · rfl

/-- The record that a reader for the tag finds is the one that the repository demands. -/
theorem findSome?_of_repositoryRecord {β : Type} {read : MetaRecord → Option β}
    (success : repositoryRecord payload tag = .ok record)
    (untagged : ∀ record, record.tag ≠ tag → read record = none) :
    record.tag = tag ∧ payload.findSome? read = read record ∧ ∀ other ∈ payload, other.tag = tag → other = record := by
  unfold repositoryRecord at success
  split at success
  · cases success
  · next single =>
    cases success
    have member {other : MetaRecord} : other ∈ payload ∧ other.tag = tag ↔ other = record := by
      simpa only [mem_filter, mem_singleton, decide_eq_true_iff] using iff_of_eq (congrArg (other ∈ ·) single)
    have tagged : payload.filterMap read = (payload.filter fun record => record.tag = tag).filterMap read := by
      rw [filterMap_filter]
      refine filterMap_congr fun record _ => ?_
      by_cases same : record.tag = tag
      · simp [same]
      · simp [same, untagged record same]
    refine ⟨(member.mpr rfl).2, ?_, fun other inside same => member.mp ⟨inside, same⟩⟩
    rw [← head?_filterMap, tagged, single]
    cases value : read record <;> simp [value]
  · cases success

def Plain (payload : List MetaRecord) (tag : MetaTag) : Prop :=
  ∀ record ∈ payload, record.tag = tag → metaDependency record = none

theorem repositoryString_eq_ok (success : repositoryString payload tag = .ok value) :
    payload.findSome? (metaString tag) = some value ∧ Plain payload tag := by
  unfold repositoryString at success
  obtain ⟨⟨recordTag, primitive⟩, isRecord, matched⟩ := bind_eq_ok.mp success
  obtain ⟨rfl, reads, only⟩ := findSome?_of_repositoryRecord isRecord fun _ => metaString_of_ne
  cases primitive with
  | string text =>
    cases matched
    refine ⟨reads.trans (by simp [metaString]), ?_⟩
    intro record member same
    rw [only record member same, metaDependency]
  | _ => cases matched

theorem repositoryNonemptyString_eq_ok (success : repositoryNonemptyString payload tag = .ok value) :
    payload.findSome? (metaString tag) = some value ∧ Plain payload tag := by
  simp only [repositoryNonemptyString, bind_eq_ok] at success
  obtain ⟨read, isRead, _, _, same⟩ := success
  cases same
  exact repositoryString_eq_ok isRead

theorem nonNegative_eq_ok {value : Int64} {result : UInt64} (success : nonNegative tag value = .ok result) :
    value.toUInt64 = result := by
  obtain ⟨_, _, same⟩ := bind_eq_ok.mp success
  exact Except.ok.inj same

theorem repositoryU64_eq_ok {value : UInt64} (success : repositoryU64 payload tag = .ok value) :
    payload.findSome? (metaU64 tag) = some value ∧ Plain payload tag := by
  unfold repositoryU64 at success
  obtain ⟨⟨recordTag, primitive⟩, isRecord, matched⟩ := bind_eq_ok.mp success
  obtain ⟨rfl, reads, only⟩ := findSome?_of_repositoryRecord isRecord fun record other =>
    (if_neg other : metaU64 tag record = none)
  have cast : castU64 primitive = some value := by
    cases primitive with
    | int8 | int16 | int32 | int64 => exact congrArg some (nonNegative_eq_ok matched)
    | uint8 | uint16 | uint32 | uint64 => exact congrArg some (Except.ok.inj matched)
    | _ => cases matched
  refine ⟨reads.trans ((if_pos rfl).trans cast), ?_⟩
  intro record member same
  rw [only record member same]
  cases primitive with
  | dependency => cases cast
  | _ => rfl

theorem repositoryRelation_eq_ok {kind : MetaDependency}
    {relation : Relation} (made : repositoryRelation tag kind value = .ok relation) :
    (Kind.fromStoneDependency kind).map (fun kind => (⟨kind, value⟩ : Relation)) = some relation := by
  unfold repositoryRelation at made
  obtain ⟨known, isKnown, mapped⟩ := bind_eq_ok.mp made
  rw [okOr_eq_ok.mp isKnown, (Relation.new_eq_ok.mp (mapError_eq_ok.mp mapped)).1]
  rfl

/-- What the other decoder collects of the records. -/
def gatheredFrom (payload : List MetaRecord) : Gathered where
  licenses := payload.filterMap (metaString .license)
  dependencies := .ofList (payload.filterMap metaDependency)
  providers := .ofList (payload.filterMap metaProvider)
  conflicts := .ofList (payload.filterMap metaConflict)

/-- The tags whose one record is read before the loop. -/
def singletonTags : List MetaTag :=
  [.name, .version, .release, .buildRelease, .architecture, .summary, .description, .sourceID, .homepage,
    .packageURI, .packageHash, .packageSize]

theorem gather_eq {before : List MetaRecord} {next : Gathered}
    (plain : record.tag ∈ singletonTags → metaDependency record = none)
    (gathers : gather (gatheredFrom before) record = .ok next) : next = gatheredFrom (before ++ [record]) := by
  obtain ⟨tag, primitive⟩ := record
  have extended : gatheredFrom (before ++ [⟨tag, primitive⟩]) =
      ⟨(gatheredFrom before).licenses ++ (metaString .license ⟨tag, primitive⟩).toList,
        (metaDependency ⟨tag, primitive⟩).toList.foldl .insert (gatheredFrom before).dependencies,
        (metaProvider ⟨tag, primitive⟩).toList.foldl .insert (gatheredFrom before).providers,
        (metaConflict ⟨tag, primitive⟩).toList.foldl .insert (gatheredFrom before).conflicts⟩ := by
    simp [gatheredFrom, SortedSet.ofList, filterMap_append, filterMap_cons]
    grind
  rw [extended]
  unfold gather at gathers
  cases tag with
  | provides | conflicts | depends =>
    cases primitive with
    | provider kind value | dependency kind value =>
      -- the other of the two primitives is refused
      first
      | cases gathers
      | obtain ⟨relation, isRelation, same⟩ := bind_eq_ok.mp gathers
        cases same
        simp [metaString, metaDependency, metaProvider, metaConflict, metaRelation, repositoryRelation_eq_ok isRelation]
    | _ => cases gathers
  | license =>
    cases primitive with
    | string text =>
      cases gathers
      rfl
    | _ => cases gathers
  | buildDepends | sourceURI | sourcePath | sourceRef | unknown => cases gathers
  | _ =>
    cases gathers
    rw [plain (by simp [singletonTags]), metaString_of_ne (by simp), metaProvider, metaRelation_of_ne (by simp),
      metaConflict, metaRelation_of_ne (by simp), Option.toList_none, append_nil]
    rfl

/-- What the strict decoder accepts the lenient one reads in the same way. -/
theorem fromStonePayload_of_repository (decoded : fromRepositoryIndexPayload payload = .ok found) :
    fromStonePayload payload = .ok found := by
  simp only [fromRepositoryIndexPayload, bind_eq_ok, exists_check] at decoded
  obtain ⟨name, isName, version, isVersion, release, isRelease, build, isBuild, architecture, isArchitecture,
    summary, isSummary, description, isDescription, source, isSource, homepage, isHomepage, uri, isUri,
    hash, isHash, size, isSize, _, _, _, _, _, gathered, gathers, own, isOwn, made⟩ := decoded
  obtain ⟨name, plainName⟩ := repositoryNonemptyString_eq_ok isName
  obtain ⟨version, plainVersion⟩ := repositoryNonemptyString_eq_ok isVersion
  obtain ⟨release, plainRelease⟩ := repositoryU64_eq_ok isRelease
  obtain ⟨build, plainBuild⟩ := repositoryU64_eq_ok isBuild
  obtain ⟨architecture, plainArchitecture⟩ := repositoryNonemptyString_eq_ok isArchitecture
  obtain ⟨summary, plainSummary⟩ := repositoryString_eq_ok isSummary
  obtain ⟨description, plainDescription⟩ := repositoryString_eq_ok isDescription
  obtain ⟨source, plainSource⟩ := repositoryNonemptyString_eq_ok isSource
  obtain ⟨homepage, plainHomepage⟩ := repositoryString_eq_ok isHomepage
  obtain ⟨uri, plainUri⟩ := repositoryNonemptyString_eq_ok isUri
  obtain ⟨hash, plainHash⟩ := repositoryString_eq_ok isHash
  obtain ⟨size, plainSize⟩ := repositoryU64_eq_ok isSize
  have plain : ∀ tag ∈ singletonTags, Plain payload tag := by
    simp only [singletonTags, forall_mem_cons]
    exact ⟨plainName, plainVersion, plainRelease, plainBuild, plainArchitecture, plainSummary, plainDescription,
      plainSource, plainHomepage, plainUri, plainHash, plainSize, forall_mem_nil _⟩
  have all : gathered = gatheredFrom payload := by
    refine foldlM_processed (fun done (state : Gathered) => state = gatheredFrom done) rfl ?_ gathers
    rintro before record after state next same rfl stepped
    exact gather_eq (fun isSingle => plain _ isSingle record (by simp [same]) rfl) stepped
  cases made
  subst all
  rw [(Relation.new_eq_ok.mp (mapError_eq_ok.mp isOwn)).1]
  simp [fromStonePayload, findMetaString, findMetaU64, okOr, gatheredFrom, ownName, SortedSet.ofList, *]

/-- Every provider record of the package-name kind names the package itself. -/
def OnlyOwnName (payload : List MetaRecord) : Prop :=
  ∀ text, (⟨.provides, .provider .packageName text⟩ : MetaRecord) ∈ payload →
    payload.findSome? (metaString .name) = some text

theorem metaRelation_eq_some : metaRelation tag record = some provider ↔
    record = ⟨tag, .provider provider.kind.toStoneDependency provider.name⟩ := by
  obtain ⟨recordTag, primitive⟩ := record
  obtain ⟨kind, name⟩ := provider
  cases primitive with
  | provider stored value => simp [metaRelation, Kind.fromStoneDependency_eq_some]
  | _ => simp [metaRelation]

theorem metaDependency_eq_some {dependency : Dependency} : metaDependency record = some dependency ↔
    record.primitive = .dependency dependency.kind.toStoneDependency dependency.name := by
  obtain ⟨recordTag, primitive⟩ := record
  obtain ⟨kind, name⟩ := dependency
  cases primitive with
  | dependency stored value => simp [metaDependency, Kind.fromStoneDependency_eq_some]
  | _ => simp [metaDependency]

theorem DecodedFrom.reencodes_iff (decoded : DecodedFrom payload found) :
    fromStonePayload found.toStonePayload = .ok found ↔ OnlyOwnName payload := by
  rw [Package.reencodes_iff ((decoded.mem_providers _).mpr (.inr rfl))]
  constructor
  · intro onlyOwn text member
    have isProvider := (decoded.mem_providers ⟨.packageName, text⟩).mpr (.inl ⟨_, member, metaRelation_eq_some.mpr rfl⟩)
    have own := onlyOwn _ isProvider rfl
    have named : text = found.name := congrArg Relation.name own
    rw [decoded.name, named]
  · intro onlyOwn provider member isName
    obtain ⟨kind, text⟩ := provider
    subst isName
    rcases (decoded.mem_providers _).mp member with ⟨record, isRecord, holds⟩ | isOwn
    · cases metaRelation_eq_some.mp holds
      have named := onlyOwn text isRecord
      rw [decoded.name, Option.some.injEq] at named
      rw [ownName, named]
    · exact isOwn

/-- Decoded metadata survives re-encoding, also with the fields of a repository set, exactly
when every provider record of the package-name kind names the package itself. -/
theorem decoded_meta_reencodes_iff
    (decoded : fromStonePayload payload = .ok found ∨ fromRepositoryIndexPayload payload = .ok found) :
    (fromStonePayload found.toStonePayload = .ok found ↔ OnlyOwnName payload) ∧ ∀ uri hash downloadSize,
        let indexed := { found with uri := some uri, hash := some hash, downloadSize := some downloadSize }
        fromStonePayload indexed.toStonePayload = .ok indexed ↔ OnlyOwnName payload := by
  have decodedFrom : DecodedFrom payload found := by
    rcases decoded with stone | repository
    · exact decodedFrom_stone stone
    · exact decodedFrom_stone (fromStonePayload_of_repository repository)
  refine ⟨decodedFrom.reencodes_iff, ?_⟩
  intro uri hash downloadSize
  exact DecodedFrom.reencodes_iff ⟨decodedFrom.name, decodedFrom.mem_providers⟩

/-- The strict decoder refines the lenient one. -/
theorem repository_decoder_refines (accepted : fromRepositoryIndexPayload payload = .ok found) :
    ∃ lenient, fromStonePayload payload = .ok lenient ∧ lenient = found :=
  ⟨found, fromStonePayload_of_repository accepted, rfl⟩

/-- The relations of a decoded package. Providers and conflicts are told apart by their tags; a
dependency is one under any tag, so that what a package is built with is flattened in. -/
theorem decoded_relations (accepted : fromStonePayload payload = .ok found) :
    (∀ dependency, dependency ∈ found.dependencies.elements ↔
      ∃ tag, ⟨tag, .dependency dependency.kind.toStoneDependency dependency.name⟩ ∈ payload) ∧
    (∀ provider, provider ∈ found.providers.elements ↔
      ⟨.provides, .provider provider.kind.toStoneDependency provider.name⟩ ∈ payload ∨
        provider = ownName found.name) ∧
    ∀ conflict, conflict ∈ found.conflicts.elements ↔
      ⟨.conflicts, .provider conflict.kind.toStoneDependency conflict.name⟩ ∈ payload := by
  simp only [fromStonePayload, bind_eq_ok] at accepted
  obtain ⟨_, _, _, _, _, _, _, _, _, _, _, _, _, _, _, _, _, _, made⟩ := accepted
  cases made
  refine ⟨?_, ?_, ?_⟩
  · intro dependency
    simp only [SortedSet.mem_ofList, mem_filterMap, metaDependency_eq_some]
    constructor
    · rintro ⟨⟨tag, primitive⟩, member, rfl⟩
      exact ⟨tag, member⟩
    · rintro ⟨tag, member⟩
      exact ⟨_, member, rfl⟩
  · simp [metaProvider, metaRelation_eq_some]
  · simp [metaConflict, metaRelation_eq_some]

def samplePayload (provided : MetaPrimitive) : List MetaRecord :=
  [⟨.name, .string "nano"⟩, ⟨.version, .string "8.2"⟩, ⟨.release, .uint64 3⟩,
    ⟨.buildRelease, .uint64 1⟩, ⟨.architecture, .string "x86_64"⟩, ⟨.summary, .string "editor"⟩,
    ⟨.description, .string "a small editor"⟩, ⟨.sourceID, .string "nano"⟩,
    ⟨.homepage, .string "https://nano.example"⟩, ⟨.license, .string "GPL-3.0"⟩,
    ⟨.depends, .dependency .sharedLibrary "libncursesw.so.6"⟩, ⟨.provides, provided⟩]

theorem binary_provider_reencodes : ∃ found,
    fromStonePayload (samplePayload (.provider .binary "nano")) = .ok found ∧
      fromStonePayload found.toStonePayload = .ok found := by
  refine ⟨_, rfl, (@decoded_meta_reencodes_iff (samplePayload _) _ (.inl rfl)).1.mpr ?_⟩
  intro text member
  simp [samplePayload] at member

theorem second_name_is_lost : ∃ found,
    fromStonePayload (samplePayload (.provider .packageName "editor")) = .ok found ∧
      fromStonePayload found.toStonePayload ≠ .ok found := by
  refine ⟨_, rfl, ?_⟩
  intro same
  have onlyOwn := (@decodedFrom_stone (samplePayload _) _ rfl).reencodes_iff.mp same
  have named := onlyOwn "editor" (by simp [samplePayload])
  revert named
  decide

def sampleEntry : List MetaRecord :=
  samplePayload (.provider .binary "nano") ++ [⟨.packageURI, .string "n/nano.stone"⟩,
    ⟨.packageHash, .string (.ofList (replicate 64 'a'))⟩, ⟨.packageSize, .int32 4096⟩]

theorem sample_entry_refines : ∃ strict lenient, fromRepositoryIndexPayload sampleEntry = .ok strict ∧
    fromStonePayload sampleEntry = .ok lenient ∧ lenient = strict := by
  obtain ⟨lenient, accepted, same⟩ := @repository_decoder_refines sampleEntry _ rfl
  exact ⟨_, lenient, rfl, accepted, same⟩

theorem sample_provider_is_decoded : ∃ found,
    fromStonePayload (samplePayload (.provider .binary "nano")) = .ok found ∧
      ⟨.binary, "nano"⟩ ∈ found.providers.elements := by
  refine ⟨_, rfl, ((@decoded_relations (samplePayload _) _ rfl).2.1 _).mpr (.inl ?_)⟩
  simp [samplePayload, Kind.toStoneDependency]

theorem build_dependency_is_flattened :
    let payload := ⟨.buildDepends, .dependency .binary "meson"⟩ :: samplePayload (.provider .binary "nano")
    (∀ record ∈ payload, record.tag = .depends → record ≠ ⟨.depends, .dependency .binary "meson"⟩) ∧
      ∃ found, fromStonePayload payload = .ok found ∧ ⟨.binary, "meson"⟩ ∈ found.dependencies.elements := by
  refine ⟨by decide, _, rfl, ?_⟩
  rw [SortedSet.mem_ofList]
  decide

end Cast.Package
