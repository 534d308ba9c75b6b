import Cast.DeclarativeConfig.ModuleGraph

/-! What one request does to the graph. A request resolves to an import or is refused, and one that
is accepted changes the graph in one way: its edge is added, an identity that is met for the first
time is recorded and queued, and its alias is registered unless a catalog name stands for an
identity that is already known. -/

namespace Cast.DeclarativeConfig

open Foundation

/-! ### Imports -/

inductive Content where
  | external (fingerprintName : Text) (evidence : List UInt8)
  | source (moduleClass : ModuleClass) (source : Source)
deriving DecidableEq

structure Import where
  identity : Text
  aliasName : Text
  content : Content
deriving DecidableEq

def relativePath (parent : PendingSource) (normalized : NormalizedRelative) : List Component :=
  joinPath ((parentPath (pathComponents parent.source.logicalName)).getD []) (pathComponents normalized.path)

inductive Resolves (inputs : Inputs) (parent : PendingSource) : ImportRequest → Import → Prop where
  | external {name : Text} {external : CatalogExternal} (found : inputs.catalog.externals.find? name = some external) :
      Resolves inputs parent (.embedded name)
        ⟨external.identity, name, .external external.fingerprintName external.fingerprintSource⟩
  | embedded {name : Text} {source : CatalogSource} (notExternal : inputs.catalog.externals.find? name = none)
      (found : inputs.catalog.sources.find? name = some source) :
      Resolves inputs parent (.embedded name) ⟨source.identity, name, .source .embedded source.source⟩
  | relative {requested : Text} {root : SourceRoot} {normalized : NormalizedRelative} {source : Source}
      (parentClass : parent.moduleClass ≠ .embedded)
      (rooted : inputs.sourceRoot = some root)
      (accepted : inputs.normalizeRelative requested = .ok normalized)
      (notSource : inputs.catalog.sources.find? normalized.aliasName = none)
      (notExternal : inputs.catalog.externals.find? normalized.aliasName = none)
      (loaded : root.loadImport (relativePath parent normalized) inputs.limits.maxImportedFileBytes = .ok source) :
      Resolves inputs parent (.relative requested)
        ⟨relativeIdentity source.logicalName, normalized.aliasName, .source .relative source⟩

namespace Import

/-- The module that is recorded for an import of a new identity. -/
def prepared (inputs : Inputs) (found : Import) : PreparedModule :=
  match found.content with
  | .external name evidence => ⟨found.identity, .external, fingerprint inputs name evidence⟩
  | .source moduleClass source =>
    ⟨found.identity, moduleClass, fingerprint inputs source.logicalName (utf8Bytes source.text)⟩

/-- The source that an import of a new identity puts on the worklist. -/
def queued (found : Import) : List PendingSource :=
  match found.content with
  | .external _ _ => []
  | .source moduleClass source => [⟨found.identity, moduleClass, source⟩]

def bytes (found : Import) : Nat := (found.queued.map fun pending => byteLength pending.source.text).sum

/-- An import registers its alias unless it names an external module, or a catalog source of an
identity that is already known. -/
def Registers (found : Import) (identities : List Text) (text : Text) : Prop :=
  ∃ moduleClass source, found.content = .source moduleClass source ∧ source.text = text ∧
    (moduleClass = .embedded → found.identity ∉ identities)

end Import

/-- What an accepted import does to the graph. -/
structure Registered (inputs : Inputs) (graph : ModuleGraph) (parent : PendingSource)
    (found : Import) (next : ModuleGraph) : Prop where
  dependencies : next.dependencies = graph.dependencies.insert ⟨parent.identity, found.identity, found.aliasName⟩
  known : found.identity ∈ graph.identities.elements →
    next.identities = graph.identities ∧ next.modules = graph.modules ∧
      next.externalModules = graph.externalModules ∧ next.totalBytes = graph.totalBytes ∧
      next.pending = graph.pending
  fresh : found.identity ∉ graph.identities.elements →
    next.identities = graph.identities.insert found.identity ∧
      next.modules = graph.modules.insert found.identity (found.prepared inputs) ∧
      next.totalBytes = graph.totalBytes + found.bytes ∧
      next.pending = graph.pending ++ found.queued
  freshExternal : found.identity ∉ graph.identities.elements →
    next.externalModules = (if found.queued = [] then graph.externalModules.insert found.aliasName
      else graph.externalModules)
  limited : found.identity ∉ graph.identities.elements → next.identities.elements.length ≤ inputs.limits.maxImports ∧
      ∀ pending ∈ found.queued, byteLength pending.source.text ≤ inputs.limits.maxImportedFileBytes ∧
          next.totalBytes ≤ inputs.limits.maxImportGraphBytes
  unregistered : (∀ text, ¬ found.Registers graph.identities.elements text) → next.aliases = graph.aliases
  registered : ∀ text, found.Registers graph.identities.elements text → (next.aliases = graph.aliases ∧
        ∃ earlier, graph.aliases.find? found.aliasName = some (found.identity, earlier)) ∨
      graph.aliases.find? found.aliasName = none ∧
        next.aliases = graph.aliases.insert found.aliasName (found.identity, text)

namespace ModuleGraph

variable {inputs : Inputs} {graph next : ModuleGraph} {parent : PendingSource}

theorem registerAlias_ok {aliasName identity text : Text}
    (accepted : graph.registerAlias parent aliasName identity text = .ok next) :
    (next = graph ∧ ∃ earlier, graph.aliases.find? aliasName = some (identity, earlier)) ∨
      graph.aliases.find? aliasName = none ∧
        next = { graph with aliases := graph.aliases.insert aliasName (identity, text) } := by
  unfold registerAlias at accepted
  split at accepted
  · rename_i entry found
    split at accepted
    · cases accepted
    · rename_i same
      cases accepted
      refine .inl ⟨rfl, entry.2, ?_⟩
      rw [found, ← not_not.mp same]
  · rename_i absent
    cases accepted
    exact .inr ⟨absent, rfl⟩

theorem registerImport_ok {identity name : Text} {moduleClass : ModuleClass} {source : Source}
    (accepted : graph.registerImport inputs identity moduleClass source name = .ok next) :
    (identity ∈ graph.identities.elements ∧ next = graph) ∨ identity ∉ graph.identities.elements ∧
        (graph.identities.insert identity).elements.length ≤ inputs.limits.maxImports ∧
        byteLength source.text ≤ inputs.limits.maxImportedFileBytes ∧
        graph.totalBytes + byteLength source.text ≤ inputs.limits.maxImportGraphBytes ∧
        next = { graph with
          totalBytes := graph.totalBytes + byteLength source.text
          identities := graph.identities.insert identity
          modules := graph.modules.insert identity
            ⟨identity, moduleClass, fingerprint inputs name (utf8Bytes source.text)⟩
          pending := graph.pending ++ [⟨identity, moduleClass, source⟩] } := by
  unfold registerImport at accepted
  split at accepted
  · rename_i known
    cases accepted
    exact .inl ⟨known, rfl⟩
  · rename_i fresh
    simp only [checkGraphBytes, bind_eq_ok, exists_check, refuse_eq_ok, pure_eq_ok, not_lt] at accepted
    obtain ⟨count, size, -, total, rfl⟩ := accepted
    exact .inr ⟨fresh, count, size, total, rfl⟩

theorem registerExternal_ok {name : Text} {external : CatalogExternal}
    (accepted : graph.registerExternal inputs parent name external = .ok next) :
    Registered inputs graph parent ⟨external.identity, name,
      .external external.fingerprintName external.fingerprintSource⟩ next := by
  by_cases known : external.identity ∈ graph.identities.elements
  · simp only [registerExternal, registerDependency, known, if_true, Except.ok.injEq] at accepted
    subst accepted
    refine ⟨rfl, fun _ => ⟨rfl, rfl, rfl, rfl, rfl⟩, absurd known, absurd known, absurd known, fun _ => rfl, ?_⟩
    · rintro text ⟨moduleClass, source, external, -⟩
      cases external
  · simp only [registerExternal, registerDependency, known, if_false, bind_eq_ok, exists_check, pure_eq_ok] at accepted
    obtain ⟨count, rfl⟩ := accepted
    refine ⟨rfl, ?_, fun _ => ⟨rfl, rfl, rfl, ?_⟩, fun _ => rfl, ?_, fun _ => rfl, ?_⟩
    · exact fun present => absurd present known
    · simp [Import.queued]
    · exact fun _ => ⟨not_lt.mp (refuse_eq_ok.mp count), by simp [Import.queued]⟩
    · rintro text ⟨moduleClass, source, external, -⟩
      cases external

/-- A source whose alias is registered before its edge is added and it is queued. -/
theorem registered_of_source {found : Import} {moduleClass : ModuleClass} {source : Source}
    {aliased : ModuleGraph} (content : found.content = .source moduleClass source)
    (wantsAlias : moduleClass = .embedded → found.identity ∉ graph.identities.elements)
    (aliasing : graph.registerAlias parent found.aliasName found.identity source.text = .ok aliased)
    (importing : (aliased.registerDependency parent found.identity found.aliasName).registerImport
      inputs found.identity moduleClass source source.logicalName = .ok next) :
    Registered inputs graph parent found next := by
  have queued : found.queued = [⟨found.identity, moduleClass, source⟩] := by simp [Import.queued, content]
  have bytes : found.bytes = byteLength source.text := by simp [Import.bytes, queued]
  have prepared : found.prepared inputs =
      ⟨found.identity, moduleClass, fingerprint inputs source.logicalName (utf8Bytes source.text)⟩ := by
    simp [Import.prepared, content]
  have sameText : ∀ text, found.Registers graph.identities.elements text → text = source.text := by
    rintro text ⟨otherClass, other, same, rfl, -⟩
    rw [content] at same
    cases same
    rfl
  have registers : found.Registers graph.identities.elements source.text :=
    ⟨moduleClass, source, content, rfl, wantsAlias⟩
  -- apart from the aliases, the aliased graph is the graph
  obtain ⟨aliases, rest⟩ : (∀ text, found.Registers graph.identities.elements text → (aliased.aliases = graph.aliases ∧
          ∃ earlier, graph.aliases.find? found.aliasName = some (found.identity, earlier)) ∨
        graph.aliases.find? found.aliasName = none ∧
          aliased.aliases = graph.aliases.insert found.aliasName (found.identity, text)) ∧
      aliased = { graph with aliases := aliased.aliases } := by
    obtain ⟨rfl, earlier⟩ | ⟨absent, rfl⟩ := registerAlias_ok aliasing
    · exact ⟨fun _ _ => .inl ⟨rfl, earlier⟩, rfl⟩
    · refine ⟨?_, rfl⟩
      intro text registering
      exact .inr ⟨absent, by rw [sameText text registering]⟩
  generalize aliased.aliases = registeredAliases at aliases rest
  subst rest
  simp only [registerDependency] at importing
  obtain ⟨known, rfl⟩ | ⟨fresh, count, size, total, rfl⟩ := registerImport_ok importing
  · refine ⟨rfl, fun _ => ⟨rfl, rfl, rfl, rfl, rfl⟩, absurd known, absurd known, absurd known, ?_, aliases⟩
    · exact fun none => absurd registers (none source.text)
  · refine ⟨rfl, ?_, fun _ => ⟨rfl, ?_, ?_, ?_⟩, fun _ => ?_, ?_, ?_, aliases⟩
    · exact fun known => absurd known fresh
    · rw [prepared]
    · rw [bytes]
    · rw [queued]
    · simp [queued]
    · refine fun _ => ⟨count, ?_⟩
      rw [queued]
      intro pending member
      obtain rfl := List.mem_singleton.mp member
      exact ⟨size, total⟩
    · exact fun none => absurd registers (none source.text)

theorem addEmbedded_ok {name : Text} (accepted : graph.addEmbedded inputs parent name = .ok next) :
    ∃ found, Resolves inputs parent (.embedded name) found ∧ Registered inputs graph parent found next := by
  unfold addEmbedded at accepted
  split at accepted
  · rename_i external found
    exact ⟨_, .external found, registerExternal_ok accepted⟩
  · rename_i notExternal
    simp only [bind_eq_ok, okOr_eq_ok] at accepted
    obtain ⟨source, found, accepted⟩ := accepted
    refine ⟨_, .embedded notExternal found, ?_⟩
    split at accepted
    · rename_i known
      cases accepted
      refine ⟨rfl, fun _ => ⟨rfl, rfl, rfl, rfl, rfl⟩, absurd known, absurd known, absurd known, fun _ => rfl, ?_⟩
      · rintro text ⟨moduleClass, other, content, -, wanted⟩
        cases content
        exact absurd known (wanted rfl)
    · rename_i fresh
      simp only [bind_eq_ok, exists_check] at accepted
      obtain ⟨-, aliased, aliasing, importing⟩ := accepted
      exact registered_of_source rfl (fun _ => fresh) aliasing importing

theorem addRelative_ok {requested : Text} (accepted : graph.addRelative inputs parent requested = .ok next) :
    ∃ found, Resolves inputs parent (.relative requested) found ∧ Registered inputs graph parent found next := by
  unfold addRelative at accepted
  simp only [bind_eq_ok, exists_check, refuse_eq_ok, okOr_eq_ok, mapError_eq_ok,
    Bool.not_eq_true, Option.isSome_eq_false_iff, Option.isNone_iff_eq_none] at accepted
  obtain ⟨parentClass, root, rooted, normalized, normalizes, notSource, notExternal, source, loaded,
    aliased, aliasing, importing⟩ := accepted
  refine ⟨_, .relative parentClass rooted normalizes notSource notExternal loaded, ?_⟩
  exact registered_of_source rfl (by simp) aliasing importing

theorem addRequest_ok {request : ImportRequest} (accepted : graph.addRequest inputs parent request = .ok next) :
    ∃ found, Resolves inputs parent request found ∧ Registered inputs graph parent found next := by
  cases request with
  | embedded name => exact addEmbedded_ok accepted
  | relative requested => exact addRelative_ok accepted
  | denied _ _ | invalid _ => cases accepted

end ModuleGraph

end Cast.DeclarativeConfig
