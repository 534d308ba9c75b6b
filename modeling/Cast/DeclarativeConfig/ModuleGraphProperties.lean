import Cast.DeclarativeConfig.ExplorationProperties
import Cast.DeclarativeConfig.ImportCycles
import Cast.Foundation.Pointwise

/-! The prepared module graph. Exploration visits every source it has queued, so that what it has
recorded is what the imports of the explored modules lead to; it stops because every queued source
uses up one of the admitted imports. The search for cycles then decides between the graph and the
diagnostic. -/

namespace Cast.DeclarativeConfig

open Foundation Relation List ModuleGraph

/-! ### Discovered imports -/

/-- The modules that were explored and, in order, the imports that were discovered in them. -/
inductive Discovered (inputs : Inputs) : List PendingSource → List Event → Prop where
  | nil : Discovered inputs [] []
  | snoc {explored : List PendingSource} {log : List Event} {parent : PendingSource}
      {requests : List ImportRequest} {imports : List Import}
      (before : Discovered inputs explored log)
      (discovers : inputs.discover parent = .ok requests)
      (resolves : Forall₂ (Resolves inputs parent) requests imports) :
      Discovered inputs (explored ++ [parent]) (log ++ imports.map (Prod.mk parent))

/-- An explored module has an import. -/
def Discovers (inputs : Inputs) (explored : List PendingSource) (parent : PendingSource) (found : Import) : Prop :=
  parent ∈ explored ∧ ∃ requests request, inputs.discover parent = .ok requests ∧
    request ∈ requests ∧ Resolves inputs parent request found

/-- The identities that an import leads from and to. -/
def DiscoveredEdge (inputs : Inputs) (explored : List PendingSource) (source target : Text) : Prop :=
  ∃ parent found, Discovers inputs explored parent found ∧ parent.identity = source ∧ found.identity = target

variable {inputs : Inputs} {explored : List PendingSource} {log : List Event}
  {queue rest : List PendingSource} {graph next : ModuleGraph} {parent : PendingSource}
  {fuel : Nat} {request : ImportRequest}

theorem Resolves.unique {first second : Import}
    (one : Resolves inputs parent request first) (other : Resolves inputs parent request second) :
    first = second := by
  cases one with
  | external isExternal =>
    cases other with
    | external alsoExternal => rw [isExternal] at alsoExternal; cases alsoExternal; rfl
    | embedded notExternal _ => rw [isExternal] at notExternal; cases notExternal
  | embedded notExternal isSource =>
    cases other with
    | external isExternal => rw [isExternal] at notExternal; cases notExternal
    | embedded _ alsoSource => rw [isSource] at alsoSource; cases alsoSource; rfl
  | relative _ rooted accepted _ _ loaded =>
    cases other with
    | relative _ alsoRooted alsoAccepted _ _ alsoLoaded =>
      rw [rooted] at alsoRooted
      cases alsoRooted
      rw [accepted] at alsoAccepted
      cases alsoAccepted
      rw [loaded] at alsoLoaded
      cases alsoLoaded
      rfl

theorem Discovered.mem_log (discovered : Discovered inputs explored log) {event : Event} :
    event ∈ log ↔ Discovers inputs explored event.1 event.2 := by
  induction discovered with
  | nil => simp [Discovers]
  | @snoc explored log parent requests imports before discovers resolves ih =>
    rw [mem_append, ih]
    constructor
    · rintro (⟨member, found⟩ | new)
      · exact ⟨mem_append_left _ member, found⟩
      · obtain ⟨found, member, rfl⟩ := mem_map.mp new
        obtain ⟨request, asked, resolved⟩ := exists_left_of_mem resolves member
        exact ⟨by simp, requests, request, discovers, asked, resolved⟩
    · rintro ⟨member, others, request, alsoDiscovers, asked, resolved⟩
      obtain old | new := mem_append.mp member
      · exact .inl ⟨old, others, request, alsoDiscovers, asked, resolved⟩
      · have same := mem_singleton.mp new
        rw [same, discovers] at alsoDiscovers
        cases alsoDiscovers
        obtain ⟨found, listed, alsoResolved⟩ := exists_right_of_mem resolves asked
        rw [same] at resolved
        refine .inr (mem_map.mpr ⟨found, listed, ?_⟩)
        rw [alsoResolved.unique resolved, ← same]

/-! ### The worklist -/

def LogEdge (log : List Event) (source target : Text) : Prop :=
  ∃ event ∈ log, event.1.identity = source ∧ event.2.identity = target

theorem reaches_append {more : List Event} {source target : Text} (path : TransGen (LogEdge log) source target) :
    TransGen (LogEdge (log ++ more)) source target := by
  refine path.lift id ?_
  rintro one other ⟨event, member, ends⟩
  exact ⟨event, mem_append_left more member, ends⟩

/-- A run of the worklist between two rounds. -/
structure Exploring (inputs : Inputs) (explored : List PendingSource) (log : List Event)
    (queue : List PendingSource) (graph : ModuleGraph) : Prop where
  discovered : Discovered inputs explored log
  recorded : Recorded inputs log queue graph
  worklist : explored ++ graph.pending = rootPending inputs :: queue
  reached : ∀ event ∈ log, TransGen (LogEdge log) rootIdentity event.2.identity

theorem recorded_initial (fits : byteLength inputs.rootSource.text ≤ inputs.limits.maxImportGraphBytes) :
    Recorded inputs [] [] (initialGraph inputs) where
  resolved := nofun
  dependencies := by simp [initialGraph]
  identities := by simp [initialGraph]
  modules _ := rfl
  externals := by simp [initialGraph]
  aliases _ := rfl
  agree := nofun
  queued := by simp [firstImport]
  distinct := .nil
  totalBytes := rfl
  count := Nat.zero_le _
  sizes := nofun
  total := fits

section

variable (exploring : Exploring inputs explored log queue graph)
  (waiting : graph.pending = parent :: rest)
include exploring waiting

theorem Exploring.parent_reached :
    parent.identity = rootIdentity ∨ TransGen (LogEdge log) rootIdentity parent.identity := by
  have member : parent ∈ rootPending inputs :: queue := by
    rw [← exploring.worklist, waiting]
    simp
  obtain rfl | queued := mem_cons.mp member
  · exact .inl rfl
  · obtain ⟨first, isFirst, -⟩ := (exploring.recorded.queued parent).mp queued
    obtain ⟨same, asker, logged⟩ := mem_of_firstImport isFirst
    exact .inr (same ▸ exploring.reached _ logged)

theorem Exploring.explore
    (accepted : explorePending inputs { graph with pending := rest } parent = .ok next) :
    ∃ (imports : List Import) (later : List PendingSource),
      Exploring inputs (explored ++ [parent]) (log ++ imports.map (Prod.mk parent)) later next := by
  simp only [explorePending, bind_eq_ok] at accepted
  obtain ⟨requests, discovers, processed⟩ := accepted
  have processedAll := foldlM_processed (fun handled graph => ∃ (imports : List Import) (later : List PendingSource),
      Forall₂ (Resolves inputs parent) handled imports ∧
      Recorded inputs (log ++ imports.map (Prod.mk parent)) later graph ∧
      explored ++ [parent] ++ graph.pending = rootPending inputs :: later) ?_ ?_ processed
  · obtain ⟨imports, later, resolves, recorded, worklist⟩ := processedAll
    refine ⟨imports, later, exploring.discovered.snoc discovers resolves, recorded, worklist, ?_⟩
    intro event member
    obtain old | new := mem_append.mp member
    · exact reaches_append (exploring.reached event old)
    · obtain ⟨found, -, rfl⟩ := mem_map.mp new
      have edge : LogEdge (log ++ imports.map (Prod.mk parent)) parent.identity found.identity := ⟨_, member, rfl, rfl⟩
      obtain atRoot | path := exploring.parent_reached waiting
      · exact .single (atRoot ▸ edge)
      · exact (reaches_append path).tail edge
  · refine ⟨[], queue, .nil, ?_, ?_⟩
    · rw [map_nil, append_nil]
      exact { exploring.recorded with }
    · rw [← exploring.worklist, waiting, append_assoc]
      rfl
  · intro before request after state following _ holding added
    obtain ⟨imports, later, resolves, recorded, worklist⟩ := holding
    obtain ⟨found, resolved, registered⟩ := addRequest_ok added
    refine ⟨imports ++ [found], later ++ newlyQueued state found, rel_append resolves (.cons resolved .nil), ?_, ?_⟩
    · rw [map_append, ← append_assoc]
      exact recorded.register registered resolved
    · rw [Recorded.pending_register registered, ← append_assoc, worklist]
      rfl

end

/-! ### Whole explorations -/

theorem exploreRound_again (goesOn : exploreRound inputs graph = .again next) :
    ∃ parent rest, graph.pending = parent :: rest ∧
      explorePending inputs { graph with pending := rest } parent = .ok next := by
  unfold exploreRound at goesOn
  split at goesOn
  · cases goesOn
  · rename_i parent rest waiting
    split at goesOn
    · cases goesOn
    · rename_i explored
      cases goesOn
      exact ⟨parent, rest, waiting, explored⟩

theorem exploreRound_leave (left : exploreRound inputs graph = .leave (.ok next)) :
    graph.pending = [] ∧ next = graph := by
  unfold exploreRound at left
  split at left
  · rename_i empty
    cases left
    exact ⟨empty, rfl⟩
  · split at left <;> cases left

/-- What the worklist and the imports that are still admitted bound. -/
def explorationCost (inputs : Inputs) (graph : ModuleGraph) : Nat :=
  graph.pending.length + (inputs.limits.maxImports - graph.identities.elements.length)

variable {found : Import}

theorem Registered.cost_le (registered : Registered inputs graph parent found next) :
    explorationCost inputs next ≤ explorationCost inputs graph := by
  unfold explorationCost
  rw [Recorded.pending_register registered, length_append]
  unfold newlyQueued
  by_cases known : found.identity ∈ graph.identities.elements
  · rw [(registered.known known).1, if_pos known]
    exact Nat.le_refl _
  · have count := (registered.limited known).1
    rw [(registered.fresh known).1, SortedSet.length_insert_of_notMem known] at count ⊢
    have one : found.queued.length ≤ 1 := by
      unfold Import.queued
      split <;> simp
    rw [if_neg known]
    omega

theorem explorePending_cost (accepted : explorePending inputs graph parent = .ok next) :
    explorationCost inputs next ≤ explorationCost inputs graph := by
  simp only [explorePending, bind_eq_ok] at accepted
  obtain ⟨requests, -, processed⟩ := accepted
  refine foldlM_processed (fun _ current => explorationCost inputs current ≤ explorationCost inputs graph)
    (Nat.le_refl _) ?_ processed
  intro before request after state following _ soFar added
  obtain ⟨found, -, registered⟩ := addRequest_ok added
  exact registered.cost_le.trans soFar

theorem exploreGraph_returns (enough : inputs.limits.maxImports + 1 < fuel) :
    ∃ outcome, exploreGraph inputs fuel = some outcome := by
  unfold exploreGraph
  split
  · exact ⟨_, rfl⟩
  · refine loop_returns (fun _ => True) (explorationCost inputs) trivial (fun _ _ _ _ => trivial) ?_ ?_
    · intro current next _ goesOn
      obtain ⟨parent, rest, waiting, accepted⟩ := exploreRound_again goesOn
      have cost := explorePending_cost accepted
      unfold explorationCost at cost ⊢
      simp only [waiting, length_cons] at cost ⊢
      omega
    · simp only [explorationCost, initialGraph, SortedSet.elements_empty, length_cons, length_nil]
      omega

theorem exploreGraph_of_le {more : Nat} {outcome : Except Diagnostic ModuleGraph}
    (enough : fuel ≤ more) (returned : exploreGraph inputs fuel = some outcome) :
    exploreGraph inputs more = some outcome := by
  unfold exploreGraph at returned ⊢
  split at returned
  · exact returned
  · exact loop_of_le enough returned

/-! ### Prepared graphs -/

@[simp] theorem Import.prepared_identity : (found.prepared inputs).identity = found.identity := by
  unfold Import.prepared
  split <;> rfl

section

variable {identity : Text} {entry : PreparedModule} (recorded : Recorded inputs log queue graph)
include recorded

theorem Recorded.mem_entries : (identity, entry) ∈ graph.modules.entries ↔
      ∃ first, firstImport log identity = some first ∧ entry = first.prepared inputs := by
  rw [← SortedMap.find?_eq_some_iff, recorded.modules, Option.map_eq_some_iff]
  simp only [eq_comm]

theorem Recorded.identity_of_mem (listed : (identity, entry) ∈ graph.modules.entries) : entry.identity = identity := by
  obtain ⟨first, isFirst, same⟩ := recorded.mem_entries.mp listed
  rw [same, Import.prepared_identity, (mem_of_firstImport isFirst).1]

theorem Recorded.mem_modules : entry ∈ graph.prepared.modules ↔
      ∃ first, firstImport log entry.identity = some first ∧ entry = first.prepared inputs := by
  rw [← recorded.mem_entries]
  constructor
  · intro member
    obtain ⟨⟨identity, other⟩, listed, rfl⟩ := mem_map.mp member
    rwa [recorded.identity_of_mem listed]
  · intro listed
    exact mem_map.mpr ⟨(entry.identity, entry), listed, rfl⟩

theorem Recorded.module_identities :
    graph.prepared.modules.map (·.identity) = graph.modules.entries.map Prod.fst := by
  unfold ModuleGraph.prepared
  rw [List.map_map]
  apply map_congr_left
  intro entry listed
  exact recorded.identity_of_mem listed

end

/-- The evidence that is recorded for an explored source. -/
def PendingSource.prepared (inputs : Inputs) (pending : PendingSource) : PreparedModule :=
  ⟨pending.identity, pending.moduleClass, fingerprint inputs pending.source.logicalName (utf8Bytes pending.source.text)⟩

/-- A graph that records what the imports of the explored modules lead to. -/
structure Explores (inputs : Inputs) (explored : List PendingSource) (graph : PreparedGraph) :
    Prop where
  fromRoot : explored.head? = some (rootPending inputs)
  imported : ∀ pending ∈ explored.tail, ∃ parent found, Discovers inputs explored parent found ∧ pending ∈ found.queued
  exploredOnce : (explored.tail.map (·.identity)).Nodup
  modules : ∀ identity, identity ∈ graph.modules.map (·.identity) ↔
    TransGen (DiscoveredEdge inputs explored) rootIdentity identity
  modulesOnce : (graph.modules.map (·.identity)).Nodup
  sources : ∀ entry, entry ∈ graph.modules ∧ entry.moduleClass ≠ .external ↔
    ∃ pending ∈ explored.tail, entry = pending.prepared inputs
  dependencies : ∀ dependency, dependency ∈ graph.dependencies ↔
    ∃ parent found, Discovers inputs explored parent found ∧
      dependency = ⟨parent.identity, found.identity, found.aliasName⟩
  dependenciesOnce : graph.dependencies.Nodup
  count : graph.modules.length ≤ inputs.limits.maxImports
  sizes : ∀ pending ∈ explored.tail, byteLength pending.source.text ≤ inputs.limits.maxImportedFileBytes
  total : (explored.map fun pending => byteLength pending.source.text).sum ≤ inputs.limits.maxImportGraphBytes
  selfContained : ∀ pending ∈ explored, pending.moduleClass = .embedded →
    ∀ requests, inputs.discover pending = .ok requests → ∀ requested, .relative requested ∉ requests

theorem Discovered.resolves (discovered : Discovered inputs explored log) (member : parent ∈ explored) :
    ∃ requests, inputs.discover parent = .ok requests ∧
      ∀ request ∈ requests, ∃ found, Resolves inputs parent request found := by
  induction discovered with
  | nil => exact absurd member not_mem_nil
  | @snoc explored log last requests imports before discovers resolves ih =>
    obtain old | new := mem_append.mp member
    · exact ih old
    · rw [mem_singleton.mp new]
      refine ⟨requests, discovers, ?_⟩
      intro request asked
      obtain ⟨found, -, resolved⟩ := exists_right_of_mem resolves asked
      exact ⟨found, resolved⟩

theorem Resolves.class_of_queued {pending : PendingSource}
    (resolves : Resolves inputs parent request found) (member : pending ∈ found.queued) :
    pending.moduleClass ≠ .external ∧ found.prepared inputs = pending.prepared inputs := by
  cases resolves with
  | external => exact absurd member not_mem_nil
  | embedded | relative => rw [mem_singleton.mp member]; exact ⟨nofun, rfl⟩

theorem Resolves.queued_of_class (resolves : Resolves inputs parent request found)
    (isSource : (found.prepared inputs).moduleClass ≠ .external) :
    ∃ pending ∈ found.queued, pending.identity = found.identity := by
  cases resolves with
  | external => exact absurd rfl isSource
  | embedded | relative => exact ⟨_, mem_singleton.mpr rfl, rfl⟩

theorem explores_of_recorded (discovered : Discovered inputs (rootPending inputs :: queue) log)
    (recorded : Recorded inputs log queue graph)
    (reached : ∀ event ∈ log, TransGen (LogEdge log) rootIdentity event.2.identity) :
    Explores inputs (rootPending inputs :: queue) graph.prepared where
  fromRoot := rfl
  imported := by
    intro pending member
    obtain ⟨first, isFirst, queued⟩ := (recorded.queued pending).mp member
    obtain ⟨-, asker, logged⟩ := mem_of_firstImport isFirst
    exact ⟨asker, first, discovered.mem_log.mp logged, queued⟩
  exploredOnce := recorded.distinct
  modules := by
    intro identity
    have sameEdges : LogEdge log = DiscoveredEdge inputs (rootPending inputs :: queue) := by
      funext source target
      simp only [LogEdge, DiscoveredEdge, discovered.mem_log, Prod.exists]
    rw [← sameEdges]
    constructor
    · intro member
      obtain ⟨entry, listed, rfl⟩ := mem_map.mp member
      obtain ⟨first, isFirst, -⟩ := recorded.mem_modules.mp listed
      obtain ⟨same, asker, logged⟩ := mem_of_firstImport isFirst
      exact same ▸ reached _ logged
    · intro path
      obtain ⟨-, -, event, member, -, rfl⟩ := TransGen.tail'_iff.mp path
      obtain ⟨first, isFirst⟩ := firstImport_isSome member
      have same : (first.prepared inputs).identity = event.2.identity := by
        rw [Import.prepared_identity]
        exact (mem_of_firstImport isFirst).1
      exact mem_map.mpr ⟨first.prepared inputs, recorded.mem_modules.mpr ⟨first, same ▸ isFirst, rfl⟩, same⟩
  modulesOnce := by
    rw [recorded.module_identities]
    exact graph.modules.keys_nodup
  sources := by
    intro entry
    rw [recorded.mem_modules]
    constructor
    · rintro ⟨⟨first, isFirst, rfl⟩, isSource⟩
      rw [Import.prepared_identity] at isFirst
      obtain ⟨-, asker, logged⟩ := mem_of_firstImport isFirst
      obtain ⟨request, resolves⟩ := recorded.resolved _ logged
      obtain ⟨pending, queued, same⟩ := resolves.queued_of_class isSource
      exact ⟨pending, (recorded.queued pending).mpr ⟨first, same ▸ isFirst, queued⟩,
        (resolves.class_of_queued queued).2⟩
    · rintro ⟨pending, member, rfl⟩
      obtain ⟨first, isFirst, queued⟩ := (recorded.queued pending).mp member
      obtain ⟨-, asker, logged⟩ := mem_of_firstImport isFirst
      obtain ⟨request, resolves⟩ := recorded.resolved _ logged
      obtain ⟨isSource, same⟩ := resolves.class_of_queued queued
      exact ⟨⟨first, isFirst, same.symm⟩, isSource⟩
  dependencies := by
    intro dependency
    unfold ModuleGraph.prepared
    simp only [recorded.dependencies, discovered.mem_log, Prod.exists]
  dependenciesOnce := SortedSet.elements_nodup
  count := by
    have within : graph.modules.entries.map Prod.fst ⊆ graph.identities.elements := by
      intro identity member
      obtain ⟨⟨key, entry⟩, listed, rfl⟩ := mem_map.mp member
      obtain ⟨first, isFirst, -⟩ := recorded.mem_entries.mp listed
      exact recorded.known_iff.mpr ⟨first, isFirst⟩
    have fewer := (subperm_of_subset graph.modules.keys_nodup within).length_le
    rw [length_map] at fewer
    rw [ModuleGraph.prepared, length_map]
    exact fewer.trans recorded.count
  sizes := recorded.sizes
  total := by
    have total := recorded.total
    rw [recorded.totalBytes] at total
    rw [map_cons, sum_cons]
    exact total
  selfContained := by
    intro pending member embedded requests discovers requested asked
    obtain ⟨others, alsoDiscovers, resolve⟩ := discovered.resolves member
    rw [discovers] at alsoDiscovers
    cases alsoDiscovers
    obtain ⟨found, resolved⟩ := resolve _ asked
    cases resolved with
    | relative notEmbedded => exact notEmbedded embedded

/-- A finished exploration has explored the root and everything it has queued. -/
theorem exploreGraph_ok (finished : exploreGraph inputs fuel = some (.ok graph)) :
    ∃ queue log, Discovered inputs (rootPending inputs :: queue) log ∧ Recorded inputs log queue graph ∧
      Explores inputs (rootPending inputs :: queue) graph.prepared := by
  unfold exploreGraph at finished
  split at finished
  · cases finished
  · rename_i checked
    have fits := not_lt.mp (refuse_eq_ok.mp checked)
    refine loop_rule (fun graph => ∃ explored log queue, Exploring inputs explored log queue graph)
      (fun outcome => ∀ graph, outcome = .ok graph → ∃ queue log,
        Discovered inputs (rootPending inputs :: queue) log ∧ Recorded inputs log queue graph ∧
        Explores inputs (rootPending inputs :: queue) graph.prepared)
      ⟨[], [], [], .nil, recorded_initial fits, rfl, nofun⟩ ?_ ?_ finished graph rfl
    · rintro current next ⟨explored, log, queue, exploring⟩ goesOn
      obtain ⟨parent, rest, waiting, accepted⟩ := exploreRound_again goesOn
      obtain ⟨imports, later, still⟩ := exploring.explore waiting accepted
      exact ⟨_, _, later, still⟩
    · rintro current outcome ⟨explored, log, queue, exploring⟩ left result rfl
      obtain ⟨empty, rfl⟩ := exploreRound_leave left
      have worklist := exploring.worklist
      rw [empty, append_nil] at worklist
      have discovered := worklist ▸ exploring.discovered
      exact ⟨queue, log, discovered, exploring.recorded,
        explores_of_recorded discovered exploring.recorded exploring.reached⟩

/-! ### Preparation -/

variable {prepared : PreparedGraph}

theorem Explores.edges (explores : Explores inputs explored prepared) :
    ImportEdge prepared.dependencies = DiscoveredEdge inputs explored := by
  funext source target
  simp only [ImportEdge, DiscoveredEdge, explores.dependencies, existsAndEq, and_true]

/-- The outcome of preparation after an exploration that found nothing to refuse. -/
def Decided (inputs : Inputs) (explored : List PendingSource) (prepared : PreparedGraph)
    (outcome : Except Diagnostic PreparedGraph) : Prop :=
  (Acyclic (DiscoveredEdge inputs explored) ∧ outcome = .ok prepared) ∨ ¬ Acyclic (DiscoveredEdge inputs explored) ∧
      ∃ cycle, IsCycle (DiscoveredEdge inputs explored) cycle ∧
        outcome = .error (cycleDetected inputs.rootSource.logicalName cycle)

theorem prepare_of_explored {outcome : Except Diagnostic PreparedGraph}
    (finished : exploreGraph inputs fuel = some (.ok graph))
    (explores : Explores inputs explored graph.prepared)
    (returned : prepareModuleGraph inputs fuel = some outcome) :
    Decided inputs explored graph.prepared outcome := by
  unfold prepareModuleGraph at returned
  rw [finished] at returned
  unfold Decided
  rw [← explores.edges]
  cases detected : detectImportCycle graph.prepared.dependencies fuel with
  | none => simp [detected] at returned
  | some report =>
    cases report with
    | none =>
      simp only [detected, Option.some.injEq] at returned
      exact .inl ⟨acyclic_of_not_detected detected, returned.symm⟩
    | some cycle =>
      simp only [detected, Option.some.injEq] at returned
      have isCycle := isCycle_of_detected detected
      exact .inr ⟨isCycle.not_acyclic, cycle, isCycle, returned.symm⟩

theorem prepareModuleGraph_returns (inputs : Inputs) :
    ∃ enough outcome, ∀ fuel, enough ≤ fuel → prepareModuleGraph inputs fuel = some outcome := by
  obtain ⟨explored, finished⟩ : ∃ outcome, exploreGraph inputs (inputs.limits.maxImports + 2) = some outcome :=
    exploreGraph_returns (by omega)
  cases explored with
  | error error =>
    refine ⟨inputs.limits.maxImports + 2, .error error, ?_⟩
    intro fuel enough
    simp only [prepareModuleGraph, exploreGraph_of_le enough finished]
  | ok graph =>
    obtain ⟨report, detected⟩ := searchAll_returns (fun _ member => member)
      (Nat.le_refl (searchBound graph.prepared.dependencies))
    obtain ⟨enough, settled⟩ : ∃ enough, ∀ fuel, enough ≤ fuel →
        exploreGraph inputs fuel = some (.ok graph) ∧
          detectImportCycle graph.prepared.dependencies fuel = some report := by
      refine ⟨max (inputs.limits.maxImports + 2) (searchBound graph.prepared.dependencies), ?_⟩
      intro fuel enough
      exact ⟨exploreGraph_of_le (by omega) finished, searchAll_of_le (by omega) detected⟩
    cases report with
    | none =>
      refine ⟨enough, .ok graph.prepared, ?_⟩
      intro fuel enough
      obtain ⟨exploredNow, detectedNow⟩ := settled fuel enough
      simp only [prepareModuleGraph, exploredNow, detectedNow]
    | some cycle =>
      refine ⟨enough, .error (cycleDetected inputs.rootSource.logicalName cycle), ?_⟩
      intro fuel enough
      obtain ⟨exploredNow, detectedNow⟩ := settled fuel enough
      simp only [prepareModuleGraph, exploredNow, detectedNow]

theorem explored_of_prepared (returned : prepareModuleGraph inputs fuel = some (.ok prepared)) :
    ∃ graph, exploreGraph inputs fuel = some (.ok graph) ∧ graph.prepared = prepared ∧
      detectImportCycle prepared.dependencies fuel = some none := by
  unfold prepareModuleGraph at returned
  split at returned
  · cases returned
  · cases returned
  · rename_i graph finished
    split at returned
    · cases returned
    · cases returned
    · rename_i silent
      cases returned
      exact ⟨graph, finished, rfl, silent⟩

/-- Preparation returns. An exploration that refuses nothing has recorded exactly what the imports
of the explored modules lead to, within the limits, and preparation then yields its graph or, when
the modules import each other in a circle, a diagnostic that prints such a circle. -/
theorem prepareModuleGraph_correct (inputs : Inputs) :
    (∃ enough outcome, ∀ fuel, enough ≤ fuel → prepareModuleGraph inputs fuel = some outcome) ∧
      (∀ fuel prepared, prepareModuleGraph inputs fuel = some (.ok prepared) →
        ∃ explored, Explores inputs explored prepared ∧
          Acyclic (DiscoveredEdge inputs explored) ∧ Acyclic (ImportEdge prepared.dependencies)) ∧
      ∀ fuel graph, exploreGraph inputs fuel = some (.ok graph) → ∃ explored, Explores inputs explored graph.prepared ∧
          ∀ more outcome, prepareModuleGraph inputs more = some outcome →
            Decided inputs explored graph.prepared outcome := by
  refine ⟨prepareModuleGraph_returns inputs, ?_, ?_⟩
  · intro fuel prepared returned
    obtain ⟨graph, finished, rfl, silent⟩ := explored_of_prepared returned
    obtain ⟨_, _, -, -, explores⟩ := exploreGraph_ok finished
    have free := acyclic_of_not_detected silent
    exact ⟨_, explores, explores.edges ▸ free, free⟩
  · intro fuel graph finished
    obtain ⟨_, _, -, -, explores⟩ := exploreGraph_ok finished
    refine ⟨_, explores, ?_⟩
    intro more outcome returned
    have finishedMore : exploreGraph inputs more = some (.ok graph) := by
      cases other : exploreGraph inputs more with
      | none => simp [prepareModuleGraph, other] at returned
      | some result =>
        have first := exploreGraph_of_le (Nat.le_max_left fuel more) finished
        have second := exploreGraph_of_le (Nat.le_max_right fuel more) other
        rw [first] at second
        exact second.symm ▸ rfl
    exact prepare_of_explored finishedMore explores returned

end Cast.DeclarativeConfig
