import Cast.LuaConfig.EvaluatedTexts

/-! The load order of the Lua modules. Edges are recorded between identities but the order is
computed between aliases: every edge of a module is filed under one of its aliases, and the edges
of the root are filed under `root`, which a file may also have for an alias. The order exists
unless the aliases lead from `root` back to it, and it puts an import first wherever the edge is
filed under the alias that is loaded. -/

namespace Cast.LuaConfig

open Foundation DeclarativeConfig Relation List

variable {dependency : PreparedDependency} {ordered targets : List Text} {sources : List (Text × Text)}

/-- The edges that the order is computed from. -/
def AliasEdge (graph : PreparedGraph) (source target : Text) : Prop :=
  ∃ dependency ∈ graph.dependencies, dependency.aliasName = target ∧ (graph.sourceAliases.find? target).isSome = true ∧
    parentAlias graph dependency.parentIdentity = source

def Earlier (first second : Text) : Prop := compare first second = .lt

variable {graph : PreparedGraph} {adjacency : Adjacency} {key node target : Text}

/-! ### Adjacency -/

def targetsOf (adjacency : Adjacency) (node : Text) : List Text := ((adjacency.find? node).getD .empty).elements

theorem mem_targetsOf_extendEntry : target ∈ targetsOf (extendEntry adjacency key targets) node ↔
      node = key ∧ target ∈ targets ∨ target ∈ targetsOf adjacency node := by
  unfold targetsOf extendEntry
  by_cases here : node = key
  · subst here
    rw [SortedMap.find?_insert_self, Option.getD_some, SortedSet.mem_foldl_insert]
    simp
  · rw [SortedMap.find?_insert_of_ne here]
    simp [here]

theorem isSome_extendEntry : ((extendEntry adjacency key targets).find? node).isSome = true ↔
      node = key ∨ (adjacency.find? node).isSome = true := by
  unfold extendEntry
  by_cases here : node = key
  · subst here
    simp [SortedMap.find?_insert_self]
  · rw [SortedMap.find?_insert_of_ne here]
    simp [here]

theorem isSome_sources : ((sources.foldl (fun adjacency source => extendEntry adjacency source.1 [])
      adjacency).find? node).isSome = true ↔
        (∃ source ∈ sources, source.1 = node) ∨ (adjacency.find? node).isSome = true :=
  foldl_iff _ (fun adjacency : Adjacency => (adjacency.find? node).isSome = true)
    (fun source : Text × Text => source.1 = node) fun _ _ =>
      isSome_extendEntry.trans (or_congr_left eq_comm)

theorem targetsOf_sources :
    target ∈ targetsOf (sources.foldl (fun adjacency source => extendEntry adjacency source.1 [])
      adjacency) node ↔ target ∈ targetsOf adjacency node := by
  rw [foldl_iff _ (fun adjacency => target ∈ targetsOf adjacency node) (fun _ => False) fun _ _ => by
    simp [mem_targetsOf_extendEntry]]
  simp

theorem mem_addDependency : target ∈ targetsOf (addDependency graph adjacency dependency) node ↔
      (dependency.aliasName = target ∧ (graph.sourceAliases.find? target).isSome = true ∧
        parentAlias graph dependency.parentIdentity = node) ∨ target ∈ targetsOf adjacency node := by
  unfold addDependency
  by_cases loaded : (graph.sourceAliases.find? dependency.aliasName).isSome = true
  · rw [if_pos loaded, mem_targetsOf_extendEntry, mem_singleton]
    refine or_congr_left ?_
    constructor
    · rintro ⟨rfl, rfl⟩
      exact ⟨rfl, loaded, rfl⟩
    · rintro ⟨rfl, -, rfl⟩
      exact ⟨rfl, rfl⟩
  · rw [if_neg loaded]
    refine ⟨.inr, ?_⟩
    rintro (⟨rfl, present, -⟩ | before)
    · exact absurd present loaded
    · exact before

theorem isSome_addDependency : ((addDependency graph adjacency dependency).find? node).isSome = true ↔
      ((graph.sourceAliases.find? dependency.aliasName).isSome = true ∧
        parentAlias graph dependency.parentIdentity = node) ∨ (adjacency.find? node).isSome = true := by
  unfold addDependency
  by_cases loaded : (graph.sourceAliases.find? dependency.aliasName).isSome = true
  · rw [if_pos loaded, isSome_extendEntry, eq_comm]
    simp [loaded]
  · simp [loaded]

theorem mem_moduleAdjacency : target ∈ targetsOf (moduleAdjacency graph) node ↔ AliasEdge graph node target := by
  unfold moduleAdjacency sourceAdjacency
  rw [foldl_iff (addDependency graph) (fun adjacency => target ∈ targetsOf adjacency node) _ fun _ _ =>
    mem_addDependency, targetsOf_sources]
  simp [AliasEdge, targetsOf, SortedMap.find?, SortedMap.empty]

theorem exists_sourceModule :
    (∃ source ∈ graph.sourceModules, source.1 = node) ↔ (graph.sourceAliases.find? node).isSome = true := by
  simp only [Option.isSome_iff_exists, Prod.exists, mem_sourceModules_iff, existsAndEq, and_true]
  exact exists_comm

theorem isSome_moduleAdjacency : ((moduleAdjacency graph).find? node).isSome = true ↔
    (graph.sourceAliases.find? node).isSome = true ∨ ∃ target, AliasEdge graph node target := by
  unfold moduleAdjacency sourceAdjacency
  rw [foldl_iff (addDependency graph) (fun adjacency => (adjacency.find? node).isSome = true) _ fun _ _ =>
    isSome_addDependency, isSome_sources, exists_sourceModule, or_comm]
  refine or_congr ?_ ?_
  · simp [SortedMap.find?, SortedMap.empty]
  · simp only [AliasEdge, existsAndEq, true_and]

theorem mem_keys : node ∈ (moduleAdjacency graph).entries.map Prod.fst ↔
    (graph.sourceAliases.find? node).isSome = true ∨ ∃ target, AliasEdge graph node target := by
  rw [← SortedMap.isSome_find?, isSome_moduleAdjacency]

/-- A node is ready when all that it imports was emitted: every target is a key. -/
theorem isReady_iff : isReady (moduleAdjacency graph) ordered node = true ↔
    ∀ target, AliasEdge graph node target → target ∈ ordered := by
  have present : ∀ target, AliasEdge graph node target → ((moduleAdjacency graph).find? target).isNone = false := by
    intro target edge
    obtain ⟨dependency, member, rfl, loaded, filed⟩ := edge
    rw [Option.isNone_eq_false_iff]
    exact isSome_moduleAdjacency.mpr (.inl loaded)
  simp only [← mem_moduleAdjacency] at present ⊢
  unfold isReady targetsOf at *
  cases found : (moduleAdjacency graph).find? node with
  | none => simp
  | some targets =>
    rw [found] at present
    simp only [Option.getD_some, all_eq_true, Bool.or_eq_true, decide_eq_true_eq] at present ⊢
    refine forall_congr' fun target => imp_congr_right fun member => ?_
    simp [present target member]

/-! ### Aliases and identities -/

/-- What the preparation of a graph guarantees about its aliases. -/
structure AliasFacts (graph : PreparedGraph) : Prop where
  agree : ∀ first ∈ graph.dependencies, ∀ second ∈ graph.dependencies,
    first.aliasName = second.aliasName → first.targetIdentity = second.targetIdentity
  parents : ∀ dependency ∈ graph.dependencies, dependency.parentIdentity = rootIdentity ∨
    ∃ other ∈ graph.dependencies, other.targetIdentity = dependency.parentIdentity
  free : Acyclic (ImportEdge graph.dependencies)

theorem aliasFacts_of_prepared {inputs : Inputs} {fuel : Nat}
    (returned : prepareModuleGraph inputs fuel = some (.ok graph)) : AliasFacts graph := by
  obtain ⟨explored, finished, rfl, silent⟩ := explored_of_prepared returned
  obtain ⟨queue, log, discovered, recorded, explores⟩ := exploreGraph_ok finished
  refine ⟨?_, ?_, acyclic_of_not_detected silent⟩
  · intro first firstMember second secondMember same
    obtain ⟨event, member, rfl⟩ := (recorded.dependencies first).mp firstMember
    obtain ⟨other, otherMember, rfl⟩ := (recorded.dependencies second).mp secondMember
    exact recorded.agree event member other otherMember same
  · intro dependency member
    obtain ⟨parent, found, discovers, rfl⟩ := (explores.dependencies dependency).mp member
    obtain rfl | queued := mem_cons.mp discovers.1
    · exact .inl rfl
    · obtain ⟨asker, first, asked, isQueued⟩ := explores.imported parent queued
      exact .inr ⟨_, (explores.dependencies _).mpr ⟨asker, first, asked, rfl⟩,
        (Import.identity_of_queued isQueued).symm⟩

def identityOf (graph : PreparedGraph) (aliasName : Text) : Text :=
  match graph.dependencies.find? fun dependency => dependency.aliasName = aliasName with
  | some dependency => dependency.targetIdentity
  | none => aliasName

theorem avoids_or_passes {α : Type} {edge : α → α → Prop} {waypoint first last : α} (path : TransGen edge first last) :
    TransGen (fun source target => edge source target ∧ source ≠ waypoint) first last ∨
      ReflTransGen edge first waypoint ∧ TransGen edge waypoint last := by
  induction path with
  | single step =>
    by_cases here : first = waypoint
    · subst here
      exact .inr ⟨.refl, .single step⟩
    · exact .inl (.single ⟨step, here⟩)
  | @tail middle last before step ih =>
    by_cases here : middle = waypoint
    · subst here
      exact .inr ⟨before.to_reflTransGen, .single step⟩
    · obtain avoids | ⟨reaches, further⟩ := ih
      · exact .inl (avoids.tail ⟨step, here⟩)
      · exact .inr ⟨reaches, further.tail step⟩

def loadedModules (graph : PreparedGraph) (ordered : List Text) : List PreparedLuaModule :=
  ordered.filterMap fun aliasName =>
    (graph.sourceAliases.find? aliasName).map fun registered => ⟨aliasName, registered.2⟩

variable {fuel : Nat}

theorem orderModules_eq : orderModules graph fuel = (loop (rotatingRound (isReady (moduleAdjacency graph))) fuel
      ⟨[], (moduleAdjacency graph).entries.map Prod.fst⟩).map (loadedModules graph) := rfl

section

variable (facts : AliasFacts graph)
include facts

theorem AliasFacts.identityOf_eq (member : dependency ∈ graph.dependencies) :
    identityOf graph dependency.aliasName = dependency.targetIdentity := by
  unfold identityOf
  split
  · rename_i other found
    have same : other.aliasName = dependency.aliasName := by simpa using find?_some found
    exact facts.agree other (mem_of_find?_eq_some found) dependency member same
  · rename_i absent
    simpa using find?_eq_none.mp absent dependency member

theorem AliasFacts.identityOf_parentAlias (member : dependency ∈ graph.dependencies)
    (notRoot : parentAlias graph dependency.parentIdentity ≠ rootIdentity) :
    identityOf graph (parentAlias graph dependency.parentIdentity) = dependency.parentIdentity := by
  have parent : dependency.parentIdentity ≠ rootIdentity := by
    intro isRoot
    exact notRoot (by rw [parentAlias, if_pos isRoot])
  obtain ⟨other, otherMember, target⟩ := (facts.parents dependency member).resolve_left parent
  unfold parentAlias
  rw [if_neg parent]
  split
  · rename_i first found
    have same : first.targetIdentity = dependency.parentIdentity := by simpa using find?_some found
    rw [facts.identityOf_eq (mem_of_find?_eq_some found), same]
  · rename_i absent
    exact absurd target (by simpa using find?_eq_none.mp absent other otherMember)

/-- Away from `root`, an edge between aliases is an edge between their identities. -/
theorem AliasFacts.importEdge (edge : AliasEdge graph node target) (notRoot : node ≠ rootIdentity) :
    ImportEdge graph.dependencies (identityOf graph node) (identityOf graph target) := by
  obtain ⟨dependency, member, rfl, -, rfl⟩ := edge
  exact ⟨dependency, member, (facts.identityOf_parentAlias member notRoot).symm, (facts.identityOf_eq member).symm⟩

variable (rootFree : ¬ TransGen (AliasEdge graph) rootIdentity rootIdentity)
include rootFree

theorem acyclic_aliases : Acyclic (AliasEdge graph) := by
  intro node around
  obtain avoids | ⟨reaches, further⟩ := avoids_or_passes around
  · have mapped : Acyclic fun source target => AliasEdge graph source target ∧ source ≠ rootIdentity :=
      facts.free.of_map (identityOf graph) fun _ _ step => facts.importEdge step.1 step.2
    exact mapped node avoids
  · exact rootFree (further.trans_left reaches)

theorem rotation_of_facts : Rotation (AliasEdge graph) Earlier (isReady (moduleAdjacency graph))
      ((moduleAdjacency graph).entries.map Prod.fst) where
  sorted := pairwise_map.mpr (moduleAdjacency graph).sorted
  asymmetric := by
    intro first second smaller larger
    have flipped := Std.OrientedCmp.gt_of_lt smaller
    rw [larger] at flipped
    cases flipped
  closed := by
    intro node _ target edge
    obtain ⟨dependency, member, rfl, loaded, filed⟩ := edge
    exact mem_keys.mpr (.inl loaded)
  free := acyclic_aliases facts rootFree
  readiness _ _ := isReady_iff

theorem orderModules_returns : ∃ enough, ∀ fuel, enough ≤ fuel → orderModules graph fuel = some (loadedModules graph
      (passes (AliasEdge graph) Earlier ((moduleAdjacency graph).entries.map Prod.fst)
        ((moduleAdjacency graph).entries.map Prod.fst).length)) := by
  obtain ⟨enough, returned⟩ := (rotation_of_facts facts rootFree).returns
  refine ⟨enough, fun fuel more => ?_⟩
  rw [orderModules_eq, returned fuel more]
  rfl

end

/-! ### The order -/

theorem map_loadedModules : (loadedModules graph ordered).map (·.aliasName) =
      ordered.filter fun aliasName => (graph.sourceAliases.find? aliasName).isSome := by
  induction ordered with
  | nil => rfl
  | cons first rest ih =>
    unfold loadedModules at ih ⊢
    cases found : graph.sourceAliases.find? first with
    | none | some _ => simpa [found] using ih

theorem mem_loadedModules {entry : PreparedLuaModule} :
    entry ∈ loadedModules graph ordered ↔ entry.aliasName ∈ ordered ∧
      ∃ identity, graph.sourceAliases.find? entry.aliasName = some (identity, entry.source) := by
  obtain ⟨aliasName, source⟩ := entry
  simp [loadedModules, PreparedLuaModule.mk.injEq]

theorem sourceModules_keys_nodup (graph : PreparedGraph) : (graph.sourceModules.map Prod.fst).Nodup := by
  unfold PreparedGraph.sourceModules
  rw [List.map_map]
  exact graph.sourceAliases.keys_nodup

/-- An order that lists every alias of the graph once, with its text. -/
def ListsSourceModules (graph : PreparedGraph) (modules : List PreparedLuaModule) : Prop :=
  (modules.map fun entry => (entry.aliasName, entry.source)).Perm graph.sourceModules

theorem lists_of_perm (nodup : ordered.Nodup)
    (complete : ∀ node, (graph.sourceAliases.find? node).isSome = true → node ∈ ordered) :
    ListsSourceModules graph (loadedModules graph ordered) := by
  have distinct : ((loadedModules graph ordered).map (·.aliasName)).Nodup := by
    rw [map_loadedModules]
    exact nodup.filter _
  have pairs : ((loadedModules graph ordered).map fun entry => (entry.aliasName, entry.source)).Nodup := by
    refine Nodup.of_map Prod.fst ?_
    rw [List.map_map]
    exact distinct
  refine (perm_ext_iff_of_nodup pairs (sourceModules_keys_nodup graph).of_map).mpr ?_
  rintro ⟨aliasName, text⟩
  rw [mem_sourceModules_iff, mem_map]
  constructor
  · rintro ⟨entry, member, same⟩
    cases same
    exact (mem_loadedModules.mp member).2
  · rintro ⟨identity, found⟩
    refine ⟨⟨aliasName, text⟩, mem_loadedModules.mpr ⟨complete aliasName ?_, identity, found⟩, rfl⟩
    rw [found]
    rfl

theorem orderModules_never (around : TransGen (AliasEdge graph) rootIdentity rootIdentity) :
    orderModules graph fuel = none := by
  obtain ⟨target, edge, -⟩ := TransGen.head'_iff.mp around
  have member : rootIdentity ∈ (moduleAdjacency graph).entries.map Prod.fst := mem_keys.mpr (.inr ⟨target, edge⟩)
  rw [orderModules_eq, rotating_never_returns (fun _ _ ready => isReady_iff.mp ready) member around]
  rfl

variable {modules : List PreparedLuaModule}

theorem rootFree_of_ordered (ordered : orderModules graph fuel = some modules) :
    ¬ TransGen (AliasEdge graph) rootIdentity rootIdentity := by
  intro around
  rw [orderModules_never around] at ordered
  cases ordered

theorem eq_passes_of_ordered (facts : AliasFacts graph) (ordered : orderModules graph fuel = some modules) :
    modules = loadedModules graph (passes (AliasEdge graph) Earlier ((moduleAdjacency graph).entries.map Prod.fst)
      ((moduleAdjacency graph).entries.map Prod.fst).length) := by
  obtain ⟨enough, returns⟩ := orderModules_returns facts (rootFree_of_ordered ordered)
  have later := returns (max enough fuel) (Nat.le_max_left enough fuel)
  rw [orderModules_eq, Option.map_eq_some_iff] at ordered later
  obtain ⟨nodes, ran, rfl⟩ := ordered
  obtain ⟨others, alsoRan, same⟩ := later
  rw [loop_unique ran alsoRan, same]

theorem lists_of_ordered (facts : AliasFacts graph)
    (ordered : orderModules graph fuel = some modules) : ListsSourceModules graph modules := by
  have rotation := rotation_of_facts facts (rootFree_of_ordered ordered)
  rw [eq_passes_of_ordered facts ordered]
  refine lists_of_perm rotation.passes_nodup ?_
  intro node loaded
  exact rotation.passes_perm.mem_iff.mpr (mem_keys.mpr (.inl loaded))

variable {parse : Parser} {catalog : AbiCatalog} {sourceRoot : Option SourceRoot} {limits : Limits}
  {rootSource : Source} {sha256 : List UInt8 → Text} {fuel : Nat}

/-- Ordering the modules of a prepared graph returns, and lists each of them once, exactly when the
aliases do not lead from `root` back to it. -/
theorem orderModules_returns_iff
    (returned : prepareModuleGraph (engineInputs parse catalog sourceRoot limits rootSource sha256)
      fuel = some (.ok graph)) :
    (∃ enough modules, (∀ more, enough ≤ more → orderModules graph more = some modules) ∧
        ListsSourceModules graph modules) ↔
      ¬ TransGen (AliasEdge graph) rootIdentity rootIdentity := by
  have facts := aliasFacts_of_prepared returned
  constructor
  · rintro ⟨enough, modules, ordered, -⟩
    exact rootFree_of_ordered (ordered enough (Nat.le_refl enough))
  · intro rootFree
    obtain ⟨enough, ordered⟩ := orderModules_returns facts rootFree
    exact ⟨enough, _, ordered, lists_of_ordered facts (ordered enough (Nat.le_refl enough))⟩

/-! A file whose alias is `root`. -/

def importCall (literal : Text) : FunctionCall :=
  ⟨some "cast".toList, [.dot "import".toList, .anonymousCall (.parentheses [.string literal])]⟩

/-- A chunk that returns what it imports. -/
def chunkText (literals : List Text) : Text :=
  "return \x7b".toList ++ ", ".toList.intercalate
    (literals.map fun literal => "cast.import(\"".toList ++ literal ++ "\")".toList) ++ "\x7d".toList

/-- A parser that knows such chunks; any other one has no calls. -/
def chunkParser (chunks : List (List Text)) : Parser := fun text =>
  .ok (((chunks.find? fun literals => chunkText literals = text).getD []).map importCall)

def oneImport (file : Text) : Inputs :=
  engineInputs (chunkParser [[file]]) ⟨.empty, .empty⟩ (some (sampleRoot [([file], "return 1".toList)])) sampleLimits
    ⟨"main.lua".toList, chunkText [file]⟩ sampleSha256

def edgesAndTexts (graph : PreparedGraph) : List PreparedDependency × List (Text × Text) :=
  (graph.dependencies, graph.sourceModules)

theorem helper_file_is_ordered : ∃ prepared,
    prepareModuleGraph (oneImport "helper.lua".toList) 20 = some (.ok prepared) ∧
      ∃ enough modules, (∀ more, enough ≤ more → orderModules prepared more = some modules) ∧
        ListsSourceModules prepared modules := by
  have view : viewed edgesAndTexts (prepareModuleGraph (oneImport "helper.lua".toList) 20) = some (some
      ([⟨rootIdentity, "relative:helper.lua".toList, "helper".toList⟩], [("helper".toList, "return 1".toList)])) := by
    decide +kernel
  obtain ⟨prepared, returned, seen⟩ := exists_of_viewed view
  refine ⟨prepared, returned, (orderModules_returns_iff returned).mpr ?_⟩
  intro circle
  obtain ⟨_, -, dependency, member, target, -⟩ := TransGen.tail'_iff.mp circle
  rw [(Prod.mk.inj seen).1, mem_singleton] at member
  subst member
  exact absurd target (by decide)

theorem root_file_is_never_ordered : ∃ prepared,
    prepareModuleGraph (oneImport "root.lua".toList) 20 = some (.ok prepared) ∧
      ∀ more, orderModules prepared more = none := by
  have view : viewed edgesAndTexts (prepareModuleGraph (oneImport "root.lua".toList) 20) = some (some
      ([⟨rootIdentity, "relative:root.lua".toList, rootIdentity⟩], [(rootIdentity, "return 1".toList)])) := by
    decide +kernel
  obtain ⟨prepared, returned, seen⟩ := exists_of_viewed view
  obtain ⟨dependencies, texts⟩ := Prod.mk.inj seen
  refine ⟨prepared, returned, fun more => orderModules_never (.single ?_)⟩
  refine ⟨_, dependencies ▸ mem_singleton.mpr rfl, rfl, ?_, ?_⟩
  · exact exists_sourceModule.mp ⟨_, texts ▸ mem_singleton.mpr rfl, rfl⟩
  · rw [parentAlias, if_pos rfl]

/-! ### Imports before their importers -/

def requestedAlias : ImportRequest → Option Text
  | .embedded name => some name
  | .relative requested => (normalizeRelative requested).toOption.map (·.aliasName)
  | .denied _ _ => none
  | .invalid _ => none

/-- The text that is evaluated for an alias imports a source module under another alias. -/
def TextImports (parse : Parser) (graph : PreparedGraph) (aliasName target : Text) : Prop :=
  ∃ identity text request, graph.sourceAliases.find? aliasName = some (identity, text) ∧
    request ∈ discoverImports parse text ∧ requestedAlias request = some target ∧
    (graph.sourceAliases.find? target).isSome = true

theorem sublist_filter_iff {α : Type} {list : List α} (accepted : α → Bool) {first second : α}
    (firstAccepted : accepted first = true) (secondAccepted : accepted second = true) :
    Sublist [first, second] (list.filter accepted) ↔ Sublist [first, second] list := by
  constructor
  · exact fun sublist => sublist.trans filter_sublist
  · intro sublist
    have filtered := sublist.filter accepted
    rwa [filter_cons_of_pos firstAccepted, filter_cons_of_pos secondAccepted, filter_nil] at filtered

/-- Every import is loaded before the module that asks for it exactly when that is so wherever the
edge is not filed under the alias that is loaded. -/
theorem imports_precede_iff {more : Nat} {modules : List PreparedLuaModule}
    (returned : prepareModuleGraph (engineInputs parse catalog sourceRoot limits rootSource sha256)
      fuel = some (.ok graph))
    (ordered : orderModules graph more = some modules) :
    (∀ aliasName target, TextImports parse graph aliasName target →
        Sublist [target, aliasName] (modules.map (·.aliasName))) ↔
      ∀ aliasName target, TextImports parse graph aliasName target → ¬ AliasEdge graph aliasName target →
        EmittedBefore (AliasEdge graph) Earlier target aliasName := by
  have facts := aliasFacts_of_prepared returned
  have rootFree := rootFree_of_ordered ordered
  have rotation := rotation_of_facts facts rootFree
  have listed := eq_passes_of_ordered facts ordered
  have precedes : ∀ aliasName target, TextImports parse graph aliasName target →
      (Sublist [target, aliasName] (modules.map (·.aliasName)) ↔
        EmittedBefore (AliasEdge graph) Earlier target aliasName) := by
    rintro aliasName target ⟨identity, text, request, registered, -, -, loaded⟩
    have aliasLoaded : (graph.sourceAliases.find? aliasName).isSome = true := by simp [registered]
    rw [listed, map_loadedModules]
    exact (sublist_filter_iff (fun node => (graph.sourceAliases.find? node).isSome) loaded aliasLoaded).trans
      (rotation.precedes_iff (mem_keys.mpr (.inl loaded)) (mem_keys.mpr (.inl aliasLoaded)))
  constructor
  · intro first aliasName target imports _
    exact (precedes aliasName target imports).mp (first aliasName target imports)
  · intro unfiled aliasName target imports
    refine (precedes aliasName target imports).mpr ?_
    by_cases filed : AliasEdge graph aliasName target
    · obtain ⟨identity, text, request, registered, -⟩ := imports
      exact rotation.emittedBefore_of_need (mem_keys.mpr (.inl (by simp [registered]))) filed
    · exact unfiled aliasName target imports filed

/-! A module under two aliases: its edges are filed under `x`, and under `sub.x` it is loaded at
once, before the `z` that it imports. -/

def twoAliasesParser : Parser :=
  chunkParser [["sub/a.lua".toList, "sub/x.lua".toList], ["x.lua".toList], ["z.lua".toList]]

/-- The file `sub/a.lua` imports what is given. -/
def twoAliases (imported : List Text) : Inputs :=
  engineInputs twoAliasesParser ⟨.empty, .empty⟩
    (some (sampleRoot [(["sub".toList, "a.lua".toList], chunkText imported),
      (["sub".toList, "x.lua".toList], chunkText ["z.lua".toList]),
      (["sub".toList, "z.lua".toList], "return 1".toList)])) sampleLimits
    ⟨"main.lua".toList, chunkText ["sub/a.lua".toList, "sub/x.lua".toList]⟩ sampleSha256

def textsAndOrder (graph : PreparedGraph) : List (Text × Text) × Option (List Text) :=
  (graph.sourceModules, (orderModules graph 60).map fun modules => modules.map (·.aliasName))

theorem exists_of_textsAndOrder {outcome : Option (Except Diagnostic PreparedGraph)}
    {texts : List (Text × Text)} {order : List Text}
    (view : viewed textsAndOrder outcome = some (some (texts, some order))) :
    ∃ graph modules, outcome = some (.ok graph) ∧ orderModules graph 60 = some modules ∧
      graph.sourceModules = texts ∧ modules.map (·.aliasName) = order := by
  obtain ⟨graph, returned, seen⟩ := exists_of_viewed view
  obtain ⟨sameTexts, ordered⟩ := Prod.mk.inj seen
  obtain ⟨modules, isOrder, sameOrder⟩ := Option.map_eq_some_iff.mp ordered
  exact ⟨graph, modules, returned, isOrder, sameTexts, sameOrder⟩

theorem textImports_of_listed {graph : PreparedGraph}
    (source : ("sub.x".toList, chunkText ["z.lua".toList]) ∈ graph.sourceModules)
    (target : ("z".toList, "return 1".toList) ∈ graph.sourceModules) :
    TextImports twoAliasesParser graph "sub.x".toList "z".toList := by
  obtain ⟨identity, found⟩ := mem_sourceModules_iff.mp source
  refine ⟨identity, _, .relative "z.lua".toList, found, ?_, ?_, exists_sourceModule.mp ⟨_, target, rfl⟩⟩
  · decide +kernel
  · decide +kernel

theorem one_alias_imports_precede : ∃ prepared modules,
    prepareModuleGraph (twoAliases []) 40 = some (.ok prepared) ∧ orderModules prepared 60 = some modules ∧
      TextImports twoAliasesParser prepared "sub.x".toList "z".toList ∧
      ∀ aliasName target, TextImports twoAliasesParser prepared aliasName target →
        Sublist [target, aliasName] (modules.map (·.aliasName)) := by
  have view : viewed textsAndOrder (prepareModuleGraph (twoAliases []) 40) = some (some
      ([("sub.a".toList, chunkText []), ("sub.x".toList, chunkText ["z.lua".toList]), ("z".toList, "return 1".toList)],
        some ["sub.a".toList, "z".toList, "sub.x".toList])) := by
    decide +kernel
  obtain ⟨prepared, modules, returned, ordered, texts, -⟩ := exists_of_textsAndOrder view
  refine ⟨prepared, modules, returned, ordered, textImports_of_listed ?_ ?_,
    (imports_precede_iff returned ordered).mpr ?_⟩
  · simp [texts]
  · simp [texts]
  · -- the only import of a file is filed under the alias of that file
    rintro aliasName target ⟨identity, text, request, registered, requested, named, loaded⟩ unfiled
    have listed := mem_sourceModules_iff.mpr ⟨identity, registered⟩
    rw [texts] at listed
    have only : ∀ file ∈ [("sub.a".toList, chunkText []), ("sub.x".toList, chunkText ["z.lua".toList]),
        ("z".toList, "return 1".toList)], ∀ request ∈ discoverImports twoAliasesParser file.2,
        file.1 = "sub.x".toList ∧ requestedAlias request = some "z".toList := by decide +kernel
    obtain ⟨rfl, isTarget⟩ := only _ listed _ requested
    cases named.symm.trans isTarget
    have edge : viewed (fun graph => (decide (⟨"relative:sub/x.lua".toList, "relative:sub/z.lua".toList,
        "z".toList⟩ ∈ graph.dependencies), parentAlias graph "relative:sub/x.lua".toList))
        (prepareModuleGraph (twoAliases []) 40) = some (some (true, "sub.x".toList)) := by decide +kernel
    obtain ⟨_, alsoReturned, seen⟩ := exists_of_viewed edge
    cases returned.symm.trans alsoReturned
    obtain ⟨member, parent⟩ := Prod.mk.inj seen
    exact absurd ⟨_, of_decide_eq_true member, rfl, loaded, parent⟩ unfiled

theorem second_alias_is_loaded_too_early : ∃ prepared modules,
    prepareModuleGraph (twoAliases ["x.lua".toList]) 40 = some (.ok prepared) ∧
      orderModules prepared 60 = some modules ∧
      TextImports twoAliasesParser prepared "sub.x".toList "z".toList ∧
      ¬ Sublist ["z".toList, "sub.x".toList] (modules.map (·.aliasName)) := by
  have view : viewed textsAndOrder (prepareModuleGraph (twoAliases ["x.lua".toList]) 40) = some (some
      ([("sub.a".toList, chunkText ["x.lua".toList]), ("sub.x".toList, chunkText ["z.lua".toList]),
        ("x".toList, chunkText ["z.lua".toList]), ("z".toList, "return 1".toList)],
        some ["sub.x".toList, "z".toList, "x".toList, "sub.a".toList])) := by
    decide +kernel
  obtain ⟨prepared, modules, returned, ordered, texts, order⟩ := exists_of_textsAndOrder view
  refine ⟨prepared, modules, returned, ordered, textImports_of_listed ?_ ?_, ?_⟩
  · simp [texts]
  · simp [texts]
  · rw [order]
    decide +kernel

end Cast.LuaConfig
