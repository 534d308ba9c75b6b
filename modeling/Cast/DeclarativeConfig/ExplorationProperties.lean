import Mathlib.Data.List.Find
import Cast.DeclarativeConfig.Exploration

/-! What exploration has recorded. A run of the worklist is described by the log of its imports,
each with the module that asked for it, in the order of their discovery. Everything in the graph
is a function of the log: the first import of an identity is the module that is recorded and
explored for it, and the first import that registers an alias is the one loaded under it. -/

namespace Cast.DeclarativeConfig

open Foundation List

variable {request : ImportRequest}

/-! ### Logs -/

/-- An import and the module that asked for it. -/
abbrev Event := PendingSource × Import

/-- The import under which an identity is met for the first time. -/
def firstImport (log : List Event) (identity : Text) : Option Import :=
  (log.find? fun event => event.2.identity = identity).map Prod.snd

/-- An import that registers its alias: a file, or a catalog source under the first name of its
identity. -/
def registersIn (log : List Event) (found : Import) : Bool :=
  match found.content with
  | .external _ _ => false
  | .source moduleClass _ => moduleClass ≠ .embedded || decide (firstImport log found.identity = some found)

def aliasImport (log : List Event) (aliasName : Text) : Option Import :=
  (log.find? fun event => event.2.aliasName = aliasName && registersIn log event.2).map Prod.snd

def Import.text (found : Import) : Text :=
  match found.content with
  | .external _ _ => []
  | .source _ source => source.text

variable {log : List Event} {event : Event} {identity aliasName : Text} {found : Import}

theorem mem_of_firstImport (first : firstImport log identity = some found) :
    found.identity = identity ∧ ∃ parent, (parent, found) ∈ log := by
  obtain ⟨event, picked, rfl⟩ := Option.map_eq_some_iff.mp first
  exact ⟨by simpa using find?_some picked, event.1, mem_of_find?_eq_some picked⟩

theorem firstImport_isSome (member : event ∈ log) : ∃ first, firstImport log event.2.identity = some first := by
  cases picked : log.find? fun other => other.2.identity = event.2.identity with
  | none => simpa using find?_eq_none.mp picked event member
  | some first => exact ⟨first.2, by rw [firstImport, picked]; rfl⟩

theorem firstImport_append : firstImport (log ++ [event]) identity =
    (firstImport log identity).or (if event.2.identity = identity then some event.2 else none) := by
  unfold firstImport
  rw [find?_append]
  cases log.find? fun other => other.2.identity = identity with
  | some first => rfl
  | none => by_cases here : event.2.identity = identity <;> simp [here]

theorem firstImport_append_of_mem {other : Event} (member : other ∈ log) :
    firstImport (log ++ [event]) other.2.identity = firstImport log other.2.identity := by
  obtain ⟨first, isFirst⟩ := firstImport_isSome member
  rw [firstImport_append, isFirst]
  rfl

theorem aliasImport_append : aliasImport (log ++ [event]) aliasName = (aliasImport log aliasName).or
      (if event.2.aliasName = aliasName ∧ registersIn (log ++ [event]) event.2 = true then some event.2
        else none) := by
  have same : (log.find? fun other => other.2.aliasName = aliasName && registersIn (log ++ [event]) other.2) =
      log.find? fun other => other.2.aliasName = aliasName && registersIn log other.2 := by
    apply find?_congr
    intro other member
    simp only [registersIn, firstImport_append_of_mem member]
  unfold aliasImport
  rw [find?_append, same]
  cases log.find? fun other => other.2.aliasName = aliasName && registersIn log other.2 with
  | some first => rfl
  | none =>
    by_cases here : event.2.aliasName = aliasName ∧ registersIn (log ++ [event]) event.2 = true
    · simp [here]
    · simp only [if_neg here]
      rw [find?_cons_of_neg (by simpa using here)]
      rfl

theorem mem_of_aliasImport (loaded : aliasImport log aliasName = some found) :
    found.aliasName = aliasName ∧ registersIn log found = true ∧ ∃ parent, (parent, found) ∈ log := by
  obtain ⟨event, picked, rfl⟩ := Option.map_eq_some_iff.mp loaded
  have accepted : event.2.aliasName = aliasName ∧ registersIn log event.2 = true := by
    simpa using find?_some picked
  exact ⟨accepted.1, accepted.2, event.1, mem_of_find?_eq_some picked⟩

theorem aliasImport_isSome (member : event ∈ log) (registers : registersIn log event.2 = true) :
    ∃ loaded, aliasImport log event.2.aliasName = some loaded := by
  cases picked : log.find? fun other => other.2.aliasName = event.2.aliasName && registersIn log other.2 with
  | none => simpa [registers] using find?_eq_none.mp picked event member
  | some loaded => exact ⟨loaded.2, by rw [aliasImport, picked]; rfl⟩

/-! ### What a log has recorded -/

/-- The graph after the imports of a log, and the sources it has queued behind the root. -/
structure Recorded (inputs : Inputs) (log : List Event) (queue : List PendingSource)
    (graph : ModuleGraph) : Prop where
  resolved : ∀ event ∈ log, ∃ request, Resolves inputs event.1 request event.2
  dependencies : ∀ dependency, dependency ∈ graph.dependencies.elements ↔
    ∃ event ∈ log, dependency = ⟨event.1.identity, event.2.identity, event.2.aliasName⟩
  identities : ∀ identity, identity ∈ graph.identities.elements ↔ ∃ event ∈ log, event.2.identity = identity
  modules : ∀ identity, graph.modules.find? identity = (firstImport log identity).map (Import.prepared inputs)
  externals : ∀ name, name ∈ graph.externalModules.elements ↔
    ∃ event ∈ log, event.2.queued = [] ∧ event.2.aliasName = name ∧ firstImport log event.2.identity = some event.2
  aliases : ∀ aliasName, graph.aliases.find? aliasName =
    (aliasImport log aliasName).map fun found => (found.identity, found.text)
  agree : ∀ event ∈ log, ∀ other ∈ log, event.2.aliasName = other.2.aliasName → event.2.identity = other.2.identity
  queued : ∀ pending, pending ∈ queue ↔ ∃ found, firstImport log pending.identity = some found ∧ pending ∈ found.queued
  distinct : (queue.map (·.identity)).Nodup
  totalBytes : graph.totalBytes = byteLength inputs.rootSource.text +
    (queue.map fun pending => byteLength pending.source.text).sum
  count : graph.identities.elements.length ≤ inputs.limits.maxImports
  sizes : ∀ pending ∈ queue, byteLength pending.source.text ≤ inputs.limits.maxImportedFileBytes
  total : graph.totalBytes ≤ inputs.limits.maxImportGraphBytes

def newlyQueued (graph : ModuleGraph) (found : Import) : List PendingSource :=
  if found.identity ∈ graph.identities.elements then [] else found.queued

theorem Import.identity_of_queued {pending : PendingSource} (member : pending ∈ found.queued) :
    pending.identity = found.identity := by
  unfold Import.queued at member
  split at member
  · exact absurd member not_mem_nil
  · rw [mem_singleton.mp member]

theorem Import.registers_iff {identities : List Text} {text : Text} :
    found.Registers identities text ↔ found.queued ≠ [] ∧ found.text = text ∧
      ((∃ source, found.content = .source .embedded source) → found.identity ∉ identities) := by
  unfold Import.Registers Import.queued Import.text
  cases found.content with
  | external name evidence => simp
  | source moduleClass source => cases moduleClass <;> simp

theorem Resolves.same_identity {inputs : Inputs} {parent other : PendingSource}
    {again : ImportRequest} {second : Import} (first : Resolves inputs parent request found)
    (next : Resolves inputs other again second) (same : found.aliasName = second.aliasName)
    (named : ∀ source, found.content ≠ .source .relative source) : found = second := by
  cases first with
  | external isExternal =>
    cases next with
    | external alsoExternal =>
      cases same
      cases isExternal.symm.trans alsoExternal
      rfl
    | embedded notExternal _ | relative _ _ _ _ notExternal _ =>
      cases same
      cases isExternal.symm.trans notExternal
  | embedded notExternal isSource =>
    cases next with
    | external isExternal =>
      cases same
      cases isExternal.symm.trans notExternal
    | embedded _ alsoSource =>
      cases same
      cases isSource.symm.trans alsoSource
      rfl
    | relative _ _ _ notSource _ _ =>
      cases same
      cases isSource.symm.trans notSource
  | relative => exact absurd rfl (named _)

namespace Recorded

variable {inputs : Inputs} {queue : List PendingSource} {graph next : ModuleGraph} {parent : PendingSource}

theorem known_iff (recorded : Recorded inputs log queue graph) :
    identity ∈ graph.identities.elements ↔ ∃ first, firstImport log identity = some first := by
  rw [recorded.identities]
  constructor
  · rintro ⟨event, member, rfl⟩
    exact firstImport_isSome member
  · rintro ⟨first, isFirst⟩
    obtain ⟨same, parent, member⟩ := mem_of_firstImport isFirst
    exact ⟨(parent, first), member, same⟩

theorem fresh_iff (recorded : Recorded inputs log queue graph) :
    identity ∉ graph.identities.elements ↔ firstImport log identity = none := by
  rw [recorded.known_iff, not_exists]
  exact Option.eq_none_iff_forall_ne_some.symm

theorem exists_mem_append {property : Event → Prop} :
    (∃ other ∈ log ++ [event], property other) ↔ (∃ other ∈ log, property other) ∨ property event := by
  simp [or_and_right, exists_or]

theorem registersIn_of_first (first : firstImport log found.identity = some found)
    (isSource : found.queued ≠ []) : registersIn log found = true := by
  unfold registersIn
  cases content : found.content with
  | external name evidence => exact absurd (by simp [Import.queued, content]) isSource
  | source moduleClass source => simp [first]

/-! One more import, field by field. -/

section Register

variable (recorded : Recorded inputs log queue graph) (registered : Registered inputs graph parent found next)
include recorded

theorem first_of_known (known : found.identity ∈ graph.identities.elements) :
    firstImport (log ++ [(parent, found)]) identity = firstImport log identity := by
  rw [firstImport_append]
  by_cases here : found.identity = identity
  · subst here
    obtain ⟨first, isFirst⟩ := recorded.known_iff.mp known
    rw [isFirst]
    rfl
  · simp [here]

theorem first_of_fresh (fresh : found.identity ∉ graph.identities.elements) :
    firstImport (log ++ [(parent, found)]) identity =
      if identity = found.identity then some found else firstImport log identity := by
  rw [firstImport_append]
  by_cases here : identity = found.identity
  · subst here
    simp [recorded.fresh_iff.mp fresh]
  · simp [here, Ne.symm here]

/-- An import registers its alias in its own log when the code registers it, or has done so. -/
theorem registersNow : registersIn (log ++ [(parent, found)]) found = true ↔
    found.Registers graph.identities.elements found.text ∨
      found.queued ≠ [] ∧ firstImport log found.identity = some found := by
  rw [Import.registers_iff]
  have after : firstImport (log ++ [(parent, found)]) found.identity =
      if found.identity ∈ graph.identities.elements then firstImport log found.identity else some found := by
    split_ifs with known
    · exact recorded.first_of_known known
    · rw [recorded.first_of_fresh known, if_pos rfl]
  unfold registersIn Import.queued
  cases found.content with
  | external name evidence => simp
  | source moduleClass source =>
    by_cases known : found.identity ∈ graph.identities.elements <;> cases moduleClass <;> simp [known, after]

theorem queued_register (pending : PendingSource) : pending ∈ queue ++ newlyQueued graph found ↔
      ∃ first, firstImport (log ++ [(parent, found)]) pending.identity = some first ∧ pending ∈ first.queued := by
  rw [mem_append, recorded.queued]
  unfold newlyQueued
  by_cases known : found.identity ∈ graph.identities.elements
  · simp [known, recorded.first_of_known known]
  · rw [recorded.first_of_fresh known, if_neg known]
    by_cases here : pending.identity = found.identity
    · rw [if_pos here, here, recorded.fresh_iff.mp known]
      simp
    · have notQueued : pending ∉ found.queued := fun member =>
        here (Import.identity_of_queued member)
      simp [here, notQueued]

theorem distinct_register : ((queue ++ newlyQueued graph found).map (·.identity)).Nodup := by
  unfold newlyQueued
  by_cases known : found.identity ∈ graph.identities.elements
  · simpa [known] using recorded.distinct
  · rw [if_neg known, map_append, nodup_append]
    refine ⟨recorded.distinct, ?_, ?_⟩
    · unfold Import.queued
      split <;> simp
    · intro old oldMember new newMember equal
      obtain ⟨pending, queued, rfl⟩ := mem_map.mp oldMember
      obtain ⟨fresh, freshQueued, rfl⟩ := mem_map.mp newMember
      obtain ⟨first, isFirst, -⟩ := (recorded.queued pending).mp queued
      rw [equal, Import.identity_of_queued freshQueued, recorded.fresh_iff.mp known] at isFirst
      cases isFirst

include registered

theorem dependencies_register (dependency : PreparedDependency) :
    dependency ∈ next.dependencies.elements ↔ ∃ event ∈ log ++ [(parent, found)],
      dependency = ⟨event.1.identity, event.2.identity, event.2.aliasName⟩ := by
  rw [registered.dependencies, SortedSet.mem_insert, recorded.dependencies, exists_mem_append]
  exact or_comm

theorem identities_register : identity ∈ next.identities.elements ↔
    ∃ event ∈ log ++ [(parent, found)], event.2.identity = identity := by
  rw [exists_mem_append, ← recorded.identities]
  by_cases known : found.identity ∈ graph.identities.elements
  · rw [(registered.known known).1]
    constructor
    · exact .inl
    · rintro (old | rfl)
      · exact old
      · exact known
  · rw [(registered.fresh known).1, SortedSet.mem_insert, or_comm, eq_comm]

theorem modules_register : next.modules.find? identity =
    (firstImport (log ++ [(parent, found)]) identity).map (Import.prepared inputs) := by
  by_cases known : found.identity ∈ graph.identities.elements
  · rw [recorded.first_of_known known, (registered.known known).2.1, recorded.modules]
  · rw [recorded.first_of_fresh known, (registered.fresh known).2.1]
    by_cases here : identity = found.identity
    · subst here
      rw [SortedMap.find?_insert_self, if_pos rfl]
      rfl
    · rw [SortedMap.find?_insert_of_ne here, if_neg here, recorded.modules]

theorem externals_register {name : Text} : name ∈ next.externalModules.elements ↔
    ∃ event ∈ log ++ [(parent, found)], event.2.queued = [] ∧ event.2.aliasName = name ∧
      firstImport (log ++ [(parent, found)]) event.2.identity = some event.2 := by
  have old : (∃ event ∈ log, event.2.queued = [] ∧ event.2.aliasName = name ∧
      firstImport (log ++ [(parent, found)]) event.2.identity = some event.2) ↔
      name ∈ graph.externalModules.elements := by
    rw [recorded.externals]
    constructor
    · rintro ⟨event, member, external, named, first⟩
      exact ⟨event, member, external, named, firstImport_append_of_mem member ▸ first⟩
    · rintro ⟨event, member, external, named, first⟩
      exact ⟨event, member, external, named, (firstImport_append_of_mem member).trans first⟩
  rw [exists_mem_append, old]
  by_cases known : found.identity ∈ graph.identities.elements
  · rw [(registered.known known).2.2.1, recorded.first_of_known known]
    refine ⟨.inl, ?_⟩
    rintro (there | ⟨external, named, first⟩)
    · exact there
    · -- the same external module was met before
      obtain ⟨-, earlier, member⟩ := mem_of_firstImport first
      exact (recorded.externals name).mpr ⟨(earlier, found), member, external, named, first⟩
  · rw [registered.freshExternal known, recorded.first_of_fresh known, if_pos rfl]
    by_cases external : found.queued = []
    · rw [if_pos external, SortedSet.mem_insert, or_comm]
      simp [external, eq_comm]
    · simp [external]

theorem aliases_register : next.aliases.find? aliasName =
    (aliasImport (log ++ [(parent, found)]) aliasName).map fun found => (found.identity, found.text) := by
  rw [aliasImport_append]
  by_cases registers : found.Registers graph.identities.elements found.text
  · have now : registersIn (log ++ [(parent, found)]) found = true := recorded.registersNow.mpr (.inl registers)
    obtain ⟨kept, earlier, present⟩ | ⟨absent, inserted⟩ := registered.registered found.text registers
    · rw [kept, recorded.aliases]
      by_cases here : found.aliasName = aliasName
      · subst here
        rw [recorded.aliases] at present
        obtain ⟨loaded, isLoaded, -⟩ := Option.map_eq_some_iff.mp present
        rw [isLoaded]
        rfl
      · simp [here]
    · rw [inserted]
      by_cases here : found.aliasName = aliasName
      · subst here
        rw [recorded.aliases, Option.map_eq_none_iff] at absent
        rw [SortedMap.find?_insert_self, absent]
        simp [now]
      · rw [SortedMap.find?_insert_of_ne (Ne.symm here), recorded.aliases]
        simp [here]
  · have never : ∀ text, ¬ found.Registers graph.identities.elements text := by
      intro text registering
      have same := (Import.registers_iff.mp registering).2.1
      exact registers (same ▸ registering)
    rw [registered.unregistered never, recorded.aliases]
    by_cases again : found.queued ≠ [] ∧ firstImport log found.identity = some found
    · -- the name was registered when it was met for the first time
      by_cases here : found.aliasName = aliasName
      · subst here
        obtain ⟨-, earlier, member⟩ := mem_of_firstImport again.2
        obtain ⟨loaded, isLoaded⟩ := aliasImport_isSome member (registersIn_of_first again.2 again.1)
        rw [isLoaded]
        rfl
      · simp [here]
    · have notNow : registersIn (log ++ [(parent, found)]) found ≠ true := by
        rw [Ne, recorded.registersNow]
        exact fun now => now.elim registers again
      simp [notNow]

theorem agree_register (resolves : Resolves inputs parent request found)
    (member : event ∈ log) (same : found.aliasName = event.2.aliasName) :
    found.identity = event.2.identity := by
  obtain ⟨otherRequest, otherResolves⟩ := recorded.resolved event member
  by_cases named : ∀ source, found.content ≠ .source .relative source
  · rw [resolves.same_identity otherResolves same named]
  by_cases otherNamed : ∀ source, event.2.content ≠ .source .relative source
  · rw [otherResolves.same_identity resolves same.symm otherNamed]
  · -- two files under one alias: the second was checked against the first
    push Not at named otherNamed
    obtain ⟨source, content⟩ := named
    obtain ⟨other, otherContent⟩ := otherNamed
    have loadedBefore : ∃ loaded, aliasImport log event.2.aliasName = some loaded :=
      aliasImport_isSome member (by simp [registersIn, otherContent])
    have registers : found.Registers graph.identities.elements found.text :=
      ⟨.relative, source, content, by simp [Import.text, content], by simp⟩
    obtain ⟨loaded, isLoaded⟩ := loadedBefore
    obtain ⟨-, earlier, present⟩ | ⟨absent, -⟩ := registered.registered found.text registers
    · rw [recorded.aliases, same, isLoaded] at present
      obtain ⟨loadedAlias, -, loadedParent, loadedMember⟩ := mem_of_aliasImport isLoaded
      have agreed := recorded.agree _ loadedMember event member loadedAlias
      simp only [Option.map_some, Option.some.injEq, Prod.mk.injEq] at present
      exact present.1.symm.trans agreed
    · rw [recorded.aliases, same, isLoaded] at absent
      cases absent

theorem register (resolves : Resolves inputs parent request found) :
    Recorded inputs (log ++ [(parent, found)]) (queue ++ newlyQueued graph found) next where
  resolved := forall_mem_append.mpr ⟨recorded.resolved, forall_mem_singleton.mpr ⟨request, resolves⟩⟩
  dependencies := recorded.dependencies_register registered
  identities _ := recorded.identities_register registered
  modules _ := recorded.modules_register registered
  externals _ := recorded.externals_register registered
  aliases _ := recorded.aliases_register registered
  agree := by
    simp only [forall_mem_append, forall_mem_singleton]
    refine ⟨fun event old => ⟨recorded.agree event old, ?_⟩, fun other old => ?_, fun _ => trivial⟩
    · intro same
      exact (recorded.agree_register registered resolves old same.symm).symm
    · exact recorded.agree_register registered resolves old
  queued := recorded.queued_register
  distinct := recorded.distinct_register
  totalBytes := by
    unfold newlyQueued
    by_cases known : found.identity ∈ graph.identities.elements
    · rw [(registered.known known).2.2.2.1, if_pos known, append_nil, recorded.totalBytes]
    · rw [(registered.fresh known).2.2.1, if_neg known, map_append, sum_append,
        recorded.totalBytes, Import.bytes, Nat.add_assoc]
  count := by
    by_cases known : found.identity ∈ graph.identities.elements
    · rw [(registered.known known).1]
      exact recorded.count
    · exact (registered.limited known).1
  sizes := by
    intro pending member
    obtain old | new := mem_append.mp member
    · exact recorded.sizes pending old
    · unfold newlyQueued at new
      split at new
      · exact absurd new not_mem_nil
      · rename_i fresh
        exact ((registered.limited fresh).2 pending new).1
  total := by
    by_cases known : found.identity ∈ graph.identities.elements
    · rw [(registered.known known).2.2.2.1]
      exact recorded.total
    · cases queued : found.queued with
      | nil =>
        rw [(registered.fresh known).2.2.1, Import.bytes, queued]
        exact recorded.total
      | cons pending rest => exact ((registered.limited known).2 pending (queued ▸ mem_cons_self)).2

omit recorded in
theorem pending_register : next.pending = graph.pending ++ newlyQueued graph found := by
  unfold newlyQueued
  by_cases known : found.identity ∈ graph.identities.elements
  · rw [(registered.known known).2.2.2.2, if_pos known, append_nil]
  · rw [(registered.fresh known).2.2.2, if_neg known]

end Register

end Recorded

end Cast.DeclarativeConfig
