import Cast.DeclarativeConfig.Source

/-! The module graph, as `declarative_config/src/module_graph.rs` prepares it: a worklist of
sources whose imports are resolved against a catalog and a source root, and a three-colour search
for cycles over the edges it has observed. The deadline is left out, and the SHA-256 of a byte
string is a parameter. -/

namespace Cast.DeclarativeConfig

open Foundation

/-! ### Requests, catalogs and prepared graphs -/

inductive ModuleClass where
  | root
  | embedded
  | relative
  | external
deriving DecidableEq

inductive ImportRequest where
  | embedded (name : Text)
  | relative (requested : Text)
  | denied (requested reason : Text)
  | invalid (message : Text)
deriving DecidableEq

structure NormalizedRelative where
  path : Text
  aliasName : Text

structure CatalogSource where
  identity : Text
  source : Source

structure CatalogExternal where
  identity : Text
  fingerprintName : Text
  fingerprintSource : List UInt8

structure AbiCatalog where
  sources : SortedMap Text CatalogSource
  externals : SortedMap Text CatalogExternal

structure PreparedModuleFingerprint where
  logicalName : Text
  sha256 : Text

structure PreparedModule where
  identity : Text
  moduleClass : ModuleClass
  fingerprint : PreparedModuleFingerprint

structure PreparedDependency where
  parentIdentity : Text
  targetIdentity : Text
  aliasName : Text
deriving DecidableEq

def PreparedDependency.fields (dependency : PreparedDependency) : List Text :=
  [dependency.parentIdentity, dependency.targetIdentity, dependency.aliasName]

/-- Field by field, as derived. -/
instance : Ord PreparedDependency := ⟨compareOn PreparedDependency.fields⟩

instance : Std.TransOrd PreparedDependency := inferInstanceAs (Std.TransCmp (compareOn PreparedDependency.fields))

instance : Std.LawfulEqOrd PreparedDependency where
  eq_of_compare {first second} same := by
    have fields : first.fields = second.fields := Std.LawfulEqOrd.eq_of_compare same
    cases first
    cases second
    simpa [PreparedDependency.fields] using fields

structure PreparedGraph where
  sourceAliases : SortedMap Text (Text × Text)
  externalModules : SortedSet Text
  modules : List PreparedModule
  dependencies : List PreparedDependency

namespace PreparedGraph

def sourceModules (graph : PreparedGraph) : List (Text × Text) :=
  graph.sourceAliases.entries.map fun entry => (entry.1, entry.2.2)

def allowedModules (graph : PreparedGraph) : List Text :=
  graph.sourceAliases.entries.map Prod.fst ++ graph.externalModules.elements

end PreparedGraph

/-! ### The graph under preparation -/

structure Limits where
  maxImportedFileBytes : Nat
  maxImports : Nat
  maxImportGraphBytes : Nat

structure PendingSource where
  identity : Text
  moduleClass : ModuleClass
  source : Source

/-- A module as it is shown to import discovery. -/
abbrev ModuleView := PendingSource

/-- What `prepare_module_graph` is called with. -/
structure Inputs where
  catalog : AbiCatalog
  sourceRoot : Option SourceRoot
  limits : Limits
  rootSource : Source
  discover : ModuleView → Except Diagnostic (List ImportRequest)
  normalizeRelative : Text → Except Text NormalizedRelative
  sha256 : List UInt8 → Text

structure ModuleGraph where
  totalBytes : Nat
  identities : SortedSet Text
  aliases : SortedMap Text (Text × Text)
  modules : SortedMap Text PreparedModule
  externalModules : SortedSet Text
  dependencies : SortedSet PreparedDependency
  pending : List PendingSource

def utf8Bytes (text : Text) : List UInt8 := text.flatMap String.utf8EncodeChar

def rootIdentity : Text := "root".toList

def relativeIdentity (logicalName : Text) : Text := "relative:".toList ++ logicalName

def denied (parent : PendingSource) (requested reason : Text) : Diagnostic :=
  .ofImport (some parent.source.logicalName)
    ("configuration import denied in ".toList ++ parent.identity ++ ": ".toList ++ requested ++
      " (".toList ++ reason ++ ")".toList)

def tooManyImports (limits : Limits) (sourceName : Text) : Diagnostic :=
  .ofLimit .importCount (some sourceName)
    ("import graph exceeds the ".toList ++ numeral limits.maxImports ++ "-module limit".toList)

def importTooLarge (limits : Limits) (sourceName : Text) : Diagnostic :=
  .ofLimit .importedFileSize (some sourceName)
    ("imported module exceeds the ".toList ++ numeral limits.maxImportedFileBytes ++ "-byte limit".toList)

def byteCountOverflowed (sourceName : Text) : Diagnostic :=
  .ofLimit .importGraphSize (some sourceName) "import graph byte count overflowed".toList

def graphTooLarge (limits : Limits) (sourceName : Text) : Diagnostic :=
  .ofLimit .importGraphSize (some sourceName)
    ("source and import graph exceeds the ".toList ++ numeral limits.maxImportGraphBytes ++ "-byte limit".toList)

def checkGraphBytes (limits : Limits) (totalBytes : Nat) (sourceName : Text) : Except Diagnostic Unit :=
  refuse (limits.maxImportGraphBytes < totalBytes) (graphTooLarge limits sourceName)

def fingerprint (inputs : Inputs) (logicalName : Text) (bytes : List UInt8) : PreparedModuleFingerprint :=
  ⟨logicalName, inputs.sha256 bytes⟩

namespace ModuleGraph

def registerDependency (graph : ModuleGraph) (parent : PendingSource) (targetIdentity aliasName : Text) : ModuleGraph :=
  { graph with dependencies := graph.dependencies.insert ⟨parent.identity, targetIdentity, aliasName⟩ }

def registerAlias (graph : ModuleGraph) (parent : PendingSource) (aliasName identity source : Text) :
    Except Diagnostic ModuleGraph :=
  match graph.aliases.find? aliasName with
  | some registered =>
    if registered.1 ≠ identity then
      .error (denied parent aliasName "module alias resolves to more than one source".toList)
    else .ok graph
  | none => .ok { graph with aliases := graph.aliases.insert aliasName (identity, source) }

def checkNewImportLimits (graph : ModuleGraph) (limits : Limits) (sourceName : Text)
    (sourceBytes : Nat) : Except Diagnostic Unit := do
  refuse (limits.maxImports ≤ graph.identities.elements.length) (tooManyImports limits sourceName)
  refuse (limits.maxImportedFileBytes < sourceBytes) (importTooLarge limits sourceName)
  refuse (usizeMax < graph.totalBytes + sourceBytes) (byteCountOverflowed sourceName)
  refuse (limits.maxImportGraphBytes < graph.totalBytes + sourceBytes) (graphTooLarge limits sourceName)

def registerImport (graph : ModuleGraph) (inputs : Inputs) (identity : Text)
    (moduleClass : ModuleClass) (source : Source) (fingerprintName : Text) :
    Except Diagnostic ModuleGraph :=
  if identity ∈ graph.identities.elements then .ok graph
  else do
    let identities := graph.identities.insert identity
    refuse (inputs.limits.maxImports < identities.elements.length) (tooManyImports inputs.limits source.logicalName)
    refuse (inputs.limits.maxImportedFileBytes < byteLength source.text)
      (importTooLarge inputs.limits source.logicalName)
    let totalBytes := graph.totalBytes + byteLength source.text
    refuse (usizeMax < totalBytes) (byteCountOverflowed source.logicalName)
    checkGraphBytes inputs.limits totalBytes source.logicalName
    let entry := ⟨identity, moduleClass, fingerprint inputs fingerprintName (utf8Bytes source.text)⟩
    pure { graph with
      totalBytes
      identities
      modules := graph.modules.insert identity entry
      pending := graph.pending ++ [⟨identity, moduleClass, source⟩] }

def registerExternal (graph : ModuleGraph) (inputs : Inputs) (parent : PendingSource)
    (requestName : Text) (external : CatalogExternal) : Except Diagnostic ModuleGraph :=
  let graph := graph.registerDependency parent external.identity requestName
  if external.identity ∈ graph.identities.elements then .ok graph
  else do
    let identities := graph.identities.insert external.identity
    refuse (inputs.limits.maxImports < identities.elements.length) (tooManyImports inputs.limits requestName)
    let entry := ⟨external.identity, .external, fingerprint inputs external.fingerprintName external.fingerprintSource⟩
    pure { graph with
      identities
      externalModules := graph.externalModules.insert requestName
      modules := graph.modules.insert external.identity entry }

def addEmbedded (graph : ModuleGraph) (inputs : Inputs) (parent : PendingSource) (name : Text) :
    Except Diagnostic ModuleGraph :=
  match inputs.catalog.externals.find? name with
  | some external => graph.registerExternal inputs parent name external
  | none => do
    let source ← okOr (inputs.catalog.sources.find? name)
      (denied parent name "module is not explicitly embedded".toList)
    if source.identity ∈ graph.identities.elements then
      .ok (graph.registerDependency parent source.identity name)
    else do
      graph.checkNewImportLimits inputs.limits name (byteLength source.source.text)
      let graph ← graph.registerAlias parent name source.identity source.source.text
      let graph := graph.registerDependency parent source.identity name
      graph.registerImport inputs source.identity .embedded source.source source.source.logicalName

def addRelative (graph : ModuleGraph) (inputs : Inputs) (parent : PendingSource)
    (requested : Text) : Except Diagnostic ModuleGraph := do
  refuse (parent.moduleClass = .embedded)
    (denied parent requested "embedded modules cannot import source-root files".toList)
  let sourceRoot ← okOr inputs.sourceRoot
    (denied parent requested "relative imports require an explicit SourceRoot".toList)
  let normalized ← (inputs.normalizeRelative requested).mapError (denied parent requested)
  refuse ((inputs.catalog.sources.find? normalized.aliasName).isSome)
    (denied parent requested "relative import aliases a catalog source name".toList)
  refuse ((inputs.catalog.externals.find? normalized.aliasName).isSome)
    (denied parent requested "relative import aliases an external module name".toList)
  let base := (parentPath (pathComponents parent.source.logicalName)).getD []
  let relativePath := joinPath base (pathComponents normalized.path)
  let source ← sourceRoot.loadImport relativePath inputs.limits.maxImportedFileBytes
  let identity := relativeIdentity source.logicalName
  let graph ← graph.registerAlias parent normalized.aliasName identity source.text
  let graph := graph.registerDependency parent identity normalized.aliasName
  graph.registerImport inputs identity .relative source source.logicalName

/-! ### Exploration -/

def addRequest (inputs : Inputs) (pending : PendingSource) (graph : ModuleGraph) :
    ImportRequest → Except Diagnostic ModuleGraph
  | .embedded name => graph.addEmbedded inputs pending name
  | .relative requested => graph.addRelative inputs pending requested
  | .denied requested reason => .error (denied pending requested reason)
  | .invalid message => .error (.ofImport (some pending.source.logicalName) message)

def explorePending (inputs : Inputs) (graph : ModuleGraph) (pending : PendingSource) :
    Except Diagnostic ModuleGraph := do
  let requests ← inputs.discover pending
  requests.foldlM (addRequest inputs pending) graph

def exploreRound (inputs : Inputs) (graph : ModuleGraph) : Round ModuleGraph (Except Diagnostic ModuleGraph) :=
  match graph.pending with
  | [] => .leave (.ok graph)
  | pending :: rest =>
    match explorePending inputs { graph with pending := rest } pending with
    | .error error => .leave (.error error)
    | .ok graph => .again graph

def prepared (graph : ModuleGraph) : PreparedGraph where
  sourceAliases := graph.aliases
  externalModules := graph.externalModules
  modules := graph.modules.entries.map Prod.snd
  dependencies := graph.dependencies.elements

end ModuleGraph

def rootPending (inputs : Inputs) : PendingSource := ⟨rootIdentity, .root, inputs.rootSource⟩

def initialGraph (inputs : Inputs) : ModuleGraph where
  totalBytes := byteLength inputs.rootSource.text
  identities := .empty
  aliases := .empty
  modules := .empty
  externalModules := .empty
  dependencies := .empty
  pending := [rootPending inputs]

/-- Everything before the search for cycles. -/
def exploreGraph (inputs : Inputs) (fuel : Nat) : Option (Except Diagnostic ModuleGraph) :=
  match checkGraphBytes inputs.limits (initialGraph inputs).totalBytes inputs.rootSource.logicalName with
  | .error error => some (.error error)
  | .ok () => loop (ModuleGraph.exploreRound inputs) fuel (initialGraph inputs)

/-! ### The search for cycles -/

inductive Color where
  | white
  | gray
  | black
deriving DecidableEq

/-- The targets of a node, one for each of its dependencies and in their order. -/
def neighbors (dependencies : List PreparedDependency) (node : Text) : List Text :=
  (dependencies.filter fun dependency => dependency.parentIdentity = node).map (·.targetIdentity)

def dependencyNodes (dependencies : List PreparedDependency) : SortedSet Text :=
  .ofList (dependencies.flatMap fun dependency =>
    [dependency.parentIdentity, dependency.targetIdentity])

/-- The state of one search; the stack and the path have their last element first. -/
structure Search where
  color : Text → Color
  stack : List (Text × Nat)
  path : List Text

def searchRound (dependencies : List PreparedDependency) (search : Search) :
    Round Search (Except (List Text) (Text → Color)) :=
  match search.stack with
  | [] => .leave (.ok search.color)
  | (node, index) :: below =>
    match (neighbors dependencies node)[index]? with
    | some next =>
      match search.color next with
      | .white => .again
          { color := Function.update search.color next .gray
            stack := (next, 0) :: (node, index + 1) :: below
            path := next :: search.path }
      | .gray => .leave (.error (search.path.reverse.dropWhile (fun entry => entry ≠ next) ++ [next]))
      | .black => .again { search with stack := (node, index + 1) :: below }
    | none => .again
        { color := Function.update search.color node .black
          stack := below
          path := search.path.tail }

/-- A found cycle is the error. -/
def searchFrom (dependencies : List PreparedDependency) (fuel : Nat) (color : Text → Color)
    (start : Text) : Option (Except (List Text) (Text → Color)) :=
  if color start ≠ .white then some (.ok color)
  else loop (searchRound dependencies) fuel
    { color := Function.update color start .gray, stack := [(start, 0)], path := [start] }

def searchAll (dependencies : List PreparedDependency) (fuel : Nat) :
    List Text → (Text → Color) → Option (Option (List Text))
  | [], _ => some none
  | start :: starts, color =>
    match searchFrom dependencies fuel color start with
    | none => none
    | some (.error cycle) => some (some cycle)
    | some (.ok color) => searchAll dependencies fuel starts color

def detectImportCycle (dependencies : List PreparedDependency) (fuel : Nat) : Option (Option (List Text)) :=
  searchAll dependencies fuel (dependencyNodes dependencies).elements fun _ => .white

/-! ### Preparation -/

def cycleDetected (sourceName : Text) (cycle : List Text) : Diagnostic :=
  .ofImport (some sourceName) ("configuration import cycle detected: ".toList ++ " -> ".toList.intercalate cycle)

def prepareModuleGraph (inputs : Inputs) (fuel : Nat) : Option (Except Diagnostic PreparedGraph) :=
  match exploreGraph inputs fuel with
  | none => none
  | some (.error error) => some (.error error)
  | some (.ok graph) =>
    match detectImportCycle graph.prepared.dependencies fuel with
    | none => none
    | some (some cycle) => some (.error (cycleDetected inputs.rootSource.logicalName cycle))
    | some none => some (.ok graph.prepared)

end Cast.DeclarativeConfig
