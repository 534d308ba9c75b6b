import Cast.DeclarativeConfig.ModuleGraphProperties
import Cast.LuaConfig.Engine

/-! Which evaluated texts are fingerprinted. A text is evaluated under an alias and its digest is
recorded under an identity, and the two are filled on different paths: a file registers its text
under its alias even where its identity is already known, and a catalog name of a known identity
registers nothing. So the texts are covered exactly when no identity is met twice with different
contents or names. -/

namespace Cast.DeclarativeConfig

open Foundation List

variable {aliasName text identity : Text} {explored : List PendingSource}

/-- The bytes whose digest is recorded for an import of a new identity. -/
def Import.evidence (found : Import) : List UInt8 :=
  match found.content with
  | .external _ evidence => evidence
  | .source _ source => utf8Bytes source.text

def Import.IsFile (found : Import) : Prop := ∃ source, found.content = .source .relative source

/-- Every text that is evaluated is the one whose digest is recorded, and every name that a module
asked for may be imported. -/
structure Fingerprinted (inputs : Inputs) (explored : List PendingSource) (graph : PreparedGraph) :
    Prop where
  digests : ∀ aliasName text, (aliasName, text) ∈ graph.sourceModules →
    ∃ identity entry, graph.sourceAliases.find? aliasName = some (identity, text) ∧
      entry ∈ graph.modules ∧ entry.identity = identity ∧
      entry.fingerprint.sha256 = inputs.sha256 (utf8Bytes text)
  oneText : ∀ aliasName other identity text again, graph.sourceAliases.find? aliasName = some (identity, text) →
    graph.sourceAliases.find? other = some (identity, again) → text = again
  allowed : ∀ parent found, Discovers inputs explored parent found → found.aliasName ∈ graph.allowedModules

/-- The text is the one that is recorded for an import of a new identity, or has its digest. -/
def Import.Vouches (inputs : Inputs) (found : Import) (text : Text) : Prop :=
  match found.content with
  | .external _ evidence => inputs.sha256 evidence = inputs.sha256 (utf8Bytes text)
  | .source _ source => source.text = text

/-- What is asked for under an alias, the first time, is the file at a path of the source root. -/
def FileUnder (inputs : Inputs) (log : List Event) (aliasName : Text) (path : List Text) (text : Text) : Prop :=
  (log.find? fun event => event.2.aliasName = aliasName).map Prod.snd =
      some ⟨relativeIdentity (logicalNameOf path), aliasName, .source .relative ⟨logicalNameOf path, text⟩⟩ ∧
    ∃ root, inputs.sourceRoot = some root ∧ root.files.find? path = some text

/-- No identity stands for two contents. The catalog names that are asked for have identities of
their own. One that is the identity of a file was met under its catalog name first, and the file has
what the catalog has. Files at different paths with one logical name have one text. -/
structure Unambiguous (inputs : Inputs) (log : List Event) : Prop where
  names : ∀ event ∈ log, ∀ other ∈ log, ¬ event.2.IsFile → ¬ other.2.IsFile →
    event.2.identity = other.2.identity → event.2.aliasName = other.2.aliasName
  order : ∀ event ∈ log, ¬ event.2.IsFile → ∀ first, firstImport log event.2.identity = some first → ¬ first.IsFile
  catalog : ∀ event ∈ log, ¬ event.2.IsFile → ∀ aliasName path text, FileUnder inputs log aliasName path text →
    event.2.identity = relativeIdentity (logicalNameOf path) → event.2.Vouches inputs text
  files : ∀ aliasName other path otherPath text again, FileUnder inputs log aliasName path text →
    FileUnder inputs log other otherPath again → path ≠ otherPath →
    logicalNameOf path = logicalNameOf otherPath → text = again

variable {inputs : Inputs} {log : List Event} {queue : List PendingSource} {graph : ModuleGraph} {found first : Import}

theorem Import.prepared_sha256 : (found.prepared inputs).fingerprint.sha256 = inputs.sha256 found.evidence := by
  unfold Import.prepared Import.evidence
  cases found.content <;> rfl

theorem Import.evidence_of_source (isSource : found.queued ≠ []) :
    found.evidence = utf8Bytes found.text := by
  unfold Import.evidence Import.text
  cases content : found.content with
  | external name evidence => exact absurd (by simp [Import.queued, content]) isSource
  | source moduleClass source => rfl

/-- Two searches of which each finds what the other accepts find the same. -/
theorem find?_eq_of_mutual {α : Type} {list : List α} {first second : α → Bool} {one other : α}
    (firstFound : list.find? first = some one) (secondFound : list.find? second = some other)
    (crossed : second one = true) (back : first other = true) : one = other := by
  obtain ⟨-, position, inList, rfl, before⟩ := find?_eq_some_iff_getElem.mp firstFound
  obtain ⟨-, place, otherInList, rfl, otherBefore⟩ := find?_eq_some_iff_getElem.mp secondFound
  rcases Nat.lt_trichotomy position place with earlier | rfl | later
  · have refused := otherBefore position earlier
    simp [crossed] at refused
  · rfl
  · have refused := before place later
    simp [back] at refused

theorem SourceRoot.loadImport_ok {root : SourceRoot} {relative : List Component} {maxBytes : Nat} {source : Source}
    (loaded : root.loadImport relative maxBytes = .ok source) :
    ∃ path, root.files.find? path = some source.text ∧ source.logicalName = logicalNameOf path := by
  simp only [loadImport, loadInner, bind_eq_ok, mapError_eq_ok] at loaded
  obtain ⟨path, -, node, opened, read⟩ := loaded
  refine ⟨path, ?_⟩
  cases node with
  | directory => cases read
  | file text =>
    simp only [bind_eq_ok, exists_check, pure_eq_ok] at read
    obtain ⟨-, rfl⟩ := read
    refine ⟨?_, rfl⟩
    unfold openFile at opened
    split at opened
    · cases opened
    · split at opened
      · rename_i present
        cases opened
        exact present
      · split at opened
        · cases opened
        · split at opened <;> cases opened

theorem mem_sourceModules_iff {graph : PreparedGraph} : (aliasName, text) ∈ graph.sourceModules ↔
      ∃ identity, graph.sourceAliases.find? aliasName = some (identity, text) := by
  simp [PreparedGraph.sourceModules, SortedMap.find?_eq_some_iff]

theorem Import.Vouches.digest (vouches : found.Vouches inputs text) :
    inputs.sha256 found.evidence = inputs.sha256 (utf8Bytes text) := by
  unfold Import.Vouches at vouches
  unfold Import.evidence
  cases content : found.content <;> simp_all

theorem Import.Vouches.text_eq (vouches : found.Vouches inputs text) (isSource : found.queued ≠ []) :
    found.text = text := by
  unfold Import.Vouches at vouches
  unfold Import.queued at isSource
  unfold Import.text
  cases content : found.content <;> simp_all

theorem FileUnder.isLoaded {path : List Text} (under : FileUnder inputs log aliasName path text) :
    aliasImport log aliasName = some ⟨relativeIdentity (logicalNameOf path), aliasName,
      .source .relative ⟨logicalNameOf path, text⟩⟩ := by
  obtain ⟨event, picked, same⟩ := Option.map_eq_some_iff.mp under.1
  obtain ⟨named, before, behind, split, others⟩ := find?_eq_some_iff_append.mp picked
  refine Option.map_eq_some_iff.mpr ⟨event, find?_eq_some_iff_append.mpr ⟨?_, before, behind, split, ?_⟩, same⟩
  · simp [same, registersIn]
  · intro other member
    have elsewhere : other.2.aliasName ≠ aliasName := by simpa using others other member
    simp [elsewhere]

/-- Files with one logical name have one text: they are the same file, or two that agree. -/
theorem Unambiguous.text_of_files (unambiguous : Unambiguous inputs log) {other again : Text}
    {path otherPath : List Text} (under : FileUnder inputs log aliasName path text) (alsoUnder : FileUnder inputs log other otherPath again)
    (same : relativeIdentity (logicalNameOf path) = relativeIdentity (logicalNameOf otherPath)) : text = again := by
  by_cases onePath : path = otherPath
  · obtain ⟨-, root, rooted, there⟩ := under
    obtain ⟨-, otherRoot, otherRooted, alsoThere⟩ := alsoUnder
    cases rooted.symm.trans otherRooted
    rw [onePath, alsoThere] at there
    exact (Option.some.inj there).symm
  · exact unambiguous.files _ _ _ _ _ _ under alsoUnder onePath (append_cancel_left same)

namespace Recorded

section

variable (recorded : Recorded inputs log queue graph)
include recorded

/-- The first import of an identity, when it is a source, is the one loaded under its alias. -/
theorem aliasImport_of_first (isFirst : firstImport log identity = some first) (isSource : first.queued ≠ []) :
    aliasImport log first.aliasName = some first := by
  obtain ⟨rfl, parent, member⟩ := mem_of_firstImport isFirst
  have registers := registersIn_of_first isFirst isSource
  obtain ⟨loaded, isLoaded⟩ := aliasImport_isSome member registers
  obtain ⟨sameAlias, -, asker, loadedMember⟩ := mem_of_aliasImport isLoaded
  have sameIdentity : loaded.identity = first.identity := recorded.agree _ loadedMember _ member sameAlias
  obtain ⟨firstEvent, foundFirst, rfl⟩ := Option.map_eq_some_iff.mp isFirst
  obtain ⟨loadedEvent, foundLoaded, rfl⟩ := Option.map_eq_some_iff.mp isLoaded
  rw [isLoaded, find?_eq_of_mutual foundFirst foundLoaded (by simp [registers]) (by simpa using sameIdentity)]

theorem find?_alias_iff :
    graph.prepared.sourceAliases.find? aliasName = some (identity, text) ↔
      ∃ found, aliasImport log aliasName = some found ∧ found.identity = identity ∧ found.text = text := by
  unfold ModuleGraph.prepared
  rw [recorded.aliases, Option.map_eq_some_iff]
  simp only [Prod.mk.injEq]

theorem mem_sourceModules : (aliasName, text) ∈ graph.prepared.sourceModules ↔
      ∃ found, aliasImport log aliasName = some found ∧ found.text = text := by
  simp only [mem_sourceModules_iff, recorded.find?_alias_iff, existsAndEq, true_and]

theorem mem_allowedModules {name : Text} :
    name ∈ graph.prepared.allowedModules ↔ (∃ found, aliasImport log name = some found) ∨
      ∃ event ∈ log, event.2.queued = [] ∧ event.2.aliasName = name ∧
        firstImport log event.2.identity = some event.2 := by
  unfold PreparedGraph.allowedModules
  rw [mem_append]
  refine or_congr ?_ (recorded.externals name)
  simp only [← SortedMap.isSome_find?, Option.isSome_iff_exists, Prod.exists, recorded.find?_alias_iff,
    existsAndEq, and_true]

theorem digest_iff {digest : Text} (isFirst : firstImport log found.identity = some first) :
    (∃ entry ∈ graph.prepared.modules, entry.identity = found.identity ∧
        entry.fingerprint.sha256 = digest) ↔
      inputs.sha256 first.evidence = digest := by
  constructor
  · rintro ⟨entry, listed, sameIdentity, sameDigest⟩
    obtain ⟨other, isOther, rfl⟩ := recorded.mem_modules.mp listed
    rw [sameIdentity, isFirst] at isOther
    cases isOther
    rw [← sameDigest, Import.prepared_sha256]
  · intro sameDigest
    have identified : (first.prepared inputs).identity = found.identity := by
      rw [Import.prepared_identity]
      exact (mem_of_firstImport isFirst).1
    refine ⟨first.prepared inputs, recorded.mem_modules.mpr ⟨first, ?_, rfl⟩, identified, ?_⟩
    · rw [identified]
      exact isFirst
    · rw [Import.prepared_sha256, sameDigest]

/-- Whatever is asked for under the alias of a file is a file. -/
theorem registersIn_of_file (event : Event) (logged : event ∈ log) (isFile : event.2.IsFile) (other : Event)
    (alsoLogged : other ∈ log) (sameAlias : other.2.aliasName = event.2.aliasName) :
    registersIn log other.2 = true := by
  obtain ⟨request, resolves⟩ := recorded.resolved event logged
  obtain ⟨again, alsoResolves⟩ := recorded.resolved other alsoLogged
  by_cases alsoFile : other.2.IsFile
  · obtain ⟨source, content⟩ := alsoFile
    simp [registersIn, content]
  · rw [alsoResolves.same_identity resolves sameAlias fun source content => alsoFile ⟨source, content⟩] at alsoFile
    exact absurd isFile alsoFile

/-- What is loaded under an alias is a file, or a catalog source whose identity was new. -/
theorem cases_of_loaded (isLoaded : aliasImport log aliasName = some found) :
    (∃ path, FileUnder inputs log aliasName path found.text ∧ found.identity = relativeIdentity (logicalNameOf path)) ∨
      ¬ found.IsFile ∧ firstImport log found.identity = some found ∧ found.queued ≠ [] := by
  obtain ⟨rfl, registers, asker, logged⟩ := mem_of_aliasImport isLoaded
  obtain ⟨request, resolves⟩ := recorded.resolved _ logged
  have files := recorded.registersIn_of_file _ logged
  cases resolves with
  | external => cases registers
  | embedded =>
    refine .inr ⟨?_, by simpa [registersIn] using registers, by simp [Import.queued]⟩
    rintro ⟨source, same⟩
    cases same
  | relative _ rooted _ _ _ loaded =>
    obtain ⟨path, there, named⟩ := SourceRoot.loadImport_ok loaded
    refine .inl ⟨path, ⟨?_, _, rooted, there⟩, by rw [named]⟩
    rw [← named]
    refine Eq.trans ?_ isLoaded
    refine congrArg (Option.map Prod.snd) (find?_congr ?_)
    intro other member
    refine Bool.eq_iff_iff.mpr ?_
    rw [Bool.and_eq_true, decide_eq_true_iff]
    exact ⟨fun here => ⟨here, files ⟨_, rfl⟩ other member here⟩, fun both => both.1⟩

/-- The first import of an identity has the digest of every text that is loaded with it. -/
theorem digest_of_unambiguous (unambiguous : Unambiguous inputs log) (isLoaded : aliasImport log aliasName = some found)
    (isFirst : firstImport log found.identity = some first) :
    inputs.sha256 first.evidence = inputs.sha256 (utf8Bytes found.text) := by
  obtain ⟨sameIdentity, parent, logged⟩ := mem_of_firstImport isFirst
  obtain ⟨path, under, identified⟩ | ⟨-, foundFirst, isSource⟩ := recorded.cases_of_loaded isLoaded
  · by_cases isFile : first.IsFile
    · obtain ⟨source, content⟩ := isFile
      have isSource : first.queued ≠ [] := by simp [Import.queued, content]
      obtain ⟨otherPath, alsoUnder, alsoIdentified⟩ | ⟨notFile, -⟩ :=
        recorded.cases_of_loaded (recorded.aliasImport_of_first isFirst isSource)
      · have oneName := alsoIdentified.symm.trans (sameIdentity.trans identified)
        have sameText := unambiguous.text_of_files alsoUnder under oneName
        rw [Import.evidence_of_source isSource, sameText]
      · exact absurd ⟨source, content⟩ notFile
    · exact (unambiguous.catalog _ logged isFile _ _ _ under (sameIdentity.trans identified)).digest
  · cases foundFirst.symm.trans isFirst
    rw [Import.evidence_of_source isSource]

theorem fingerprinted_of_unambiguous (discovered : Discovered inputs explored log)
    (unambiguous : Unambiguous inputs log) : Fingerprinted inputs explored graph.prepared where
  digests := by
    intro aliasName text member
    obtain ⟨found, isLoaded, rfl⟩ := recorded.mem_sourceModules.mp member
    obtain ⟨-, -, parent, logged⟩ := mem_of_aliasImport isLoaded
    obtain ⟨first, isFirst⟩ := firstImport_isSome logged
    obtain ⟨entry, listed, identified, digest⟩ :=
      (recorded.digest_iff isFirst).mpr (recorded.digest_of_unambiguous unambiguous isLoaded isFirst)
    exact ⟨found.identity, entry, recorded.find?_alias_iff.mpr ⟨found, isLoaded, rfl, rfl⟩, listed, identified, digest⟩
  oneText := by
    intro aliasName other identity text again registered alsoRegistered
    obtain ⟨found, isLoaded, rfl, rfl⟩ := recorded.find?_alias_iff.mp registered
    obtain ⟨second, alsoLoaded, same, rfl⟩ := recorded.find?_alias_iff.mp alsoRegistered
    obtain ⟨path, under, identified⟩ | ⟨notFile, isFirst, isSource⟩ := recorded.cases_of_loaded isLoaded <;>
      obtain ⟨otherPath, alsoUnder, alsoIdentified⟩ | ⟨alsoNotFile, alsoFirst, alsoSource⟩ :=
        recorded.cases_of_loaded alsoLoaded
    · exact unambiguous.text_of_files under alsoUnder (by rw [← identified, ← same, alsoIdentified])
    · obtain ⟨-, parent, logged⟩ := mem_of_firstImport alsoFirst
      have vouches := unambiguous.catalog _ logged alsoNotFile _ _ _ under (same.trans identified)
      exact (vouches.text_eq alsoSource).symm
    · obtain ⟨-, parent, logged⟩ := mem_of_firstImport isFirst
      have vouches := unambiguous.catalog _ logged notFile _ _ _ alsoUnder (same.symm.trans alsoIdentified)
      exact vouches.text_eq isSource
    · rw [same, isFirst] at alsoFirst
      rw [Option.some.inj alsoFirst]
  allowed := by
    intro parent found discovers
    have logged : (parent, found) ∈ log := discovered.mem_log.mpr discovers
    refine recorded.mem_allowedModules.mpr ?_
    by_cases isFile : found.IsFile
    · obtain ⟨source, content⟩ := isFile
      exact .inl (aliasImport_isSome logged (by simp [registersIn, content]))
    · -- the first import of the identity is a catalog name too, so it is this one
      obtain ⟨first, isFirst⟩ := firstImport_isSome logged
      obtain ⟨sameIdentity, asker, firstLogged⟩ := mem_of_firstImport isFirst
      have firstNotFile := unambiguous.order _ logged isFile first isFirst
      have sameName := unambiguous.names _ logged _ firstLogged isFile firstNotFile sameIdentity.symm
      obtain ⟨request, resolves⟩ := recorded.resolved _ logged
      obtain ⟨again, firstResolves⟩ := recorded.resolved _ firstLogged
      obtain rfl : found = first :=
        resolves.same_identity firstResolves sameName fun source content => isFile ⟨source, content⟩
      by_cases external : found.queued = []
      · exact .inr ⟨(parent, found), logged, external, rfl, isFirst⟩
      · exact .inl ⟨found, recorded.aliasImport_of_first isFirst external⟩

/-- A name that is not a file's and may be imported is the first one of its identity. -/
theorem first_of_allowed {parent : PendingSource} (logged : (parent, found) ∈ log) (notFile : ¬ found.IsFile)
    (allowed : found.aliasName ∈ graph.prepared.allowedModules) :
    firstImport log found.identity = some found := by
  obtain ⟨request, resolves⟩ := recorded.resolved _ logged
  have named : ∀ source, found.content ≠ .source .relative source := fun source content => notFile ⟨source, content⟩
  obtain ⟨loaded, isLoaded⟩ | ⟨other, otherLogged, -, sameName, isFirst⟩ := recorded.mem_allowedModules.mp allowed
  · obtain ⟨sameName, registers, asker, loadedLogged⟩ := mem_of_aliasImport isLoaded
    obtain ⟨again, alsoResolves⟩ := recorded.resolved _ loadedLogged
    obtain rfl : found = loaded := resolves.same_identity alsoResolves sameName.symm named
    unfold registersIn at registers
    cases resolves with
    | external => cases registers
    | embedded => simpa using registers
    | relative => exact absurd rfl (named _)
  · obtain ⟨again, alsoResolves⟩ := recorded.resolved _ otherLogged
    have same : found = other.2 := resolves.same_identity alsoResolves sameName.symm named
    rw [same]
    exact isFirst

theorem unambiguous_of_fingerprinted (discovered : Discovered inputs explored log)
    (fingerprinted : Fingerprinted inputs explored graph.prepared) : Unambiguous inputs log := by
  have isFirst : ∀ event ∈ log, ¬ event.2.IsFile → firstImport log event.2.identity = some event.2 := by
    intro event logged notFile
    exact recorded.first_of_allowed logged notFile
      (fingerprinted.allowed event.1 event.2 (discovered.mem_log.mp logged))
  have oneText : ∀ aliasName other found again, aliasImport log aliasName = some found →
      aliasImport log other = some again → found.identity = again.identity → found.text = again.text := by
    intro aliasName other found again isLoaded alsoLoaded same
    exact fingerprinted.oneText aliasName other found.identity found.text again.text
      (recorded.find?_alias_iff.mpr ⟨found, isLoaded, rfl, rfl⟩)
      (recorded.find?_alias_iff.mpr ⟨again, alsoLoaded, same.symm, rfl⟩)
  constructor
  case names =>
    intro event logged other alsoLogged notFile alsoNotFile same
    have first := isFirst event logged notFile
    rw [same, isFirst other alsoLogged alsoNotFile] at first
    rw [Option.some.inj first]
  case order =>
    intro event logged notFile first found
    rw [isFirst event logged notFile] at found
    cases found
    exact notFile
  case catalog =>
    intro event logged notFile aliasName path text under same
    have isLoaded := under.isLoaded
    have catalogFirst := isFirst event logged notFile
    unfold Import.Vouches
    cases content : event.2.content with
    | external name evidence =>
      obtain ⟨identity, entry, registered, listed, identified, digest⟩ :=
        fingerprinted.digests aliasName text (recorded.mem_sourceModules.mpr ⟨_, isLoaded, rfl⟩)
      obtain ⟨again, alsoLoaded, rfl, -⟩ := recorded.find?_alias_iff.mp registered
      cases isLoaded.symm.trans alsoLoaded
      rw [same] at catalogFirst
      have digested := (recorded.digest_iff catalogFirst).mp ⟨entry, listed, identified, digest⟩
      simpa [Import.evidence, content] using digested
    | source moduleClass source =>
      have alsoLoaded := recorded.aliasImport_of_first catalogFirst (by simp [Import.queued, content])
      simpa [Import.text, content] using oneText _ _ _ _ alsoLoaded isLoaded same
  case files =>
    intro aliasName other path otherPath text again under alsoUnder _ same
    exact oneText _ _ _ _ under.isLoaded alsoUnder.isLoaded (by simp [same])

end

end Recorded

section Backslash

open LuaConfig

def backslashRoot : Source :=
  ⟨"root.lua".toList, "return \x7bcast.import(\"a/b.lua\"), cast.import [[a\\b.lua]]\x7d".toList⟩

/-- The calls of the root; the two files have none. -/
def backslashParser : Parser := fun text =>
  if text = backslashRoot.text then
    .ok [⟨some "cast".toList, [.dot "import".toList, .anonymousCall (.parentheses [.string "a/b.lua".toList])]⟩,
      ⟨some "cast".toList, [.dot "import".toList, .anonymousCall (.string "a\\b.lua".toList)]⟩]
  else .ok []

def sampleDigests : List (Text × Text) :=
  [("return 1".toList, "486d9affb60dbb0063b03d8e23a6ccf6364ce203dc3a9f56f20e750eb41ecade".toList),
    ("return 2".toList, "8373f7e086bb27784827ef8f2f4ae118e05d58b67f513f82c2316dc57b0d896c".toList),
    ("return \x7b\x7d".toList, "7df8f0cd9e1cd0b204a760783671c0ccca4a3258dc7c51f59e9e2295c6c25315".toList),
    ("return \x7bcast.import(\"x.lua\")\x7d".toList,
      "959e8e9c3fdcbf6aea7d3831495da83dcbe12250e501cb2ba4a30fc454de868f".toList),
    ("return \x7bcast.import(\"z.lua\")\x7d".toList,
      "fb1a97c5e146ad635cda0f78a1d4a78554ae670f9171978080549adf21522768".toList)]

def sampleSha256 (bytes : List UInt8) : Text :=
  ((sampleDigests.find? fun sample => utf8Bytes sample.1 = bytes).map (·.2)).getD []

def sampleLimits : Limits := ⟨256 * 1024, 64, 2 * 1024 * 1024⟩

def sampleRoot (files : List (List Text × Text)) : SourceRoot :=
  ⟨files.foldl (fun map file => map.insert file.1 file.2) .empty⟩

def backslashInputs (files : List (List Text × Text)) : Inputs :=
  engineInputs backslashParser ⟨.empty, .empty⟩ (some (sampleRoot files)) sampleLimits backslashRoot sampleSha256

def differentFiles : Inputs := backslashInputs
  [(["a".toList, "b.lua".toList], "return 1".toList), (["a\\b.lua".toList], "return 2".toList)]

def equalFiles : Inputs := backslashInputs
  [(["a".toList, "b.lua".toList], "return 1".toList), (["a\\b.lua".toList], "return 1".toList)]

def viewed {β : Type} (view : PreparedGraph → β) (outcome : Option (Except Diagnostic PreparedGraph)) :
    Option (Option β) :=
  outcome.map fun result => result.toOption.map view

theorem exists_of_viewed {β : Type} {view : PreparedGraph → β} {value : β}
    {outcome : Option (Except Diagnostic PreparedGraph)}
    (seen : viewed view outcome = some (some value)) :
    ∃ graph, outcome = some (.ok graph) ∧ view graph = value := by
  cases outcome with
  | none => cases seen
  | some result =>
    cases result with
    | error error => cases seen
    | ok graph => exact ⟨graph, rfl, Option.some.inj (Option.some.inj seen)⟩

/-- The catalog is empty and the files have one text. -/
theorem equalFiles_unambiguous {explored : List PendingSource} {log : List Event}
    (discovered : Discovered equalFiles explored log) : Unambiguous equalFiles log := by
  have isFile : ∀ event ∈ log, event.2.IsFile := by
    rintro ⟨parent, found⟩ logged
    obtain ⟨-, _, _, -, -, resolves⟩ := discovered.mem_log.mp logged
    cases resolves with
    | external found | embedded _ found => cases found
    | relative => exact ⟨_, rfl⟩
  have oneText : ∀ aliasName path text, FileUnder equalFiles log aliasName path text → text = "return 1".toList := by
    rintro aliasName path text ⟨-, root, rooted, there⟩
    cases rooted
    have texts : ∀ file ∈ (sampleRoot
        [(["a".toList, "b.lua".toList], "return 1".toList), (["a\\b.lua".toList], "return 1".toList)]).files.entries,
        file.2 = "return 1".toList := by
      decide +kernel
    exact texts _ (SortedMap.find?_eq_some_iff.mp there)
  constructor
  case names => exact fun event logged _ _ notFile => absurd (isFile event logged) notFile
  case order | catalog => exact fun event logged notFile => absurd (isFile event logged) notFile
  case files =>
    intro aliasName other path otherPath text again under alsoUnder _ _
    rw [oneText _ _ _ under, oneText _ _ _ alsoUnder]

end Backslash

end Cast.DeclarativeConfig
