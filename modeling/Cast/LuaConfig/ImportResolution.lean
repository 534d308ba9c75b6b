import Cast.LuaConfig.LoadOrder

/-! Static and dynamic resolution. The graph resolves a literal of the root chunk to an alias, the
runtime evaluates the modules into a table of aliases, and `cast.import` looks up the literal as it
is written. The two agree on the names of catalog sources that are the first import of their
module, and on no file: the alias of a file lacks the extension that its literal must have. -/

namespace Cast.LuaConfig

open Foundation DeclarativeConfig List

variable {aliasName : Text} {queue : List PendingSource}

/-! ### Evaluations -/

variable {Value State : Type}

/-- Evaluating the modules one after another yields these values and this runtime. -/
inductive Evaluates (machine : Machine Value State) : LuaRuntime Value State →
    List PreparedLuaModule → List (Option Value) → LuaRuntime Value State → Prop where
  | nil (runtime : LuaRuntime Value State) : Evaluates machine runtime [] [] runtime
  | cons {runtime final : LuaRuntime Value State} {entry : PreparedLuaModule}
      {rest : List PreparedLuaModule} {value : Option Value} {state : State}
      {values : List (Option Value)}
      (evaluated : machine.evaluate runtime.state runtime.loaded entry.aliasName entry.source = .ok (value, state))
      (further : Evaluates machine ⟨state, Function.update runtime.loaded entry.aliasName value⟩ rest values final) :
      Evaluates machine runtime (entry :: rest) (value :: values) final

def LuaRuntime.initial (machine : Machine Value State) : LuaRuntime Value State := ⟨machine.start, fun _ => none⟩

variable {machine : Machine Value State} {runtime final : LuaRuntime Value State}
  {modules : List PreparedLuaModule} {values : List (Option Value)}

theorem foldlM_loadModule_iff : modules.foldlM (loadModule machine) runtime = .ok final ↔
    ∃ values, Evaluates machine runtime modules values final := by
  induction modules generalizing runtime with
  | nil =>
    simp only [foldlM_nil, pure_eq_ok]
    constructor
    · rintro rfl
      exact ⟨[], .nil runtime⟩
    · rintro ⟨values, evaluates⟩
      cases evaluates
      rfl
  | cons entry rest ih =>
    simp only [foldlM_cons, loadModule, bind_eq_ok, pure_eq_ok]
    constructor
    · rintro ⟨next, ⟨result, evaluated, rfl⟩, further⟩
      obtain ⟨values, evaluates⟩ := ih.mp further
      exact ⟨_, .cons evaluated evaluates⟩
    · rintro ⟨values, evaluates⟩
      cases evaluates with
      | cons evaluated further => exact ⟨_, ⟨_, evaluated, rfl⟩, ih.mpr ⟨_, further⟩⟩

theorem Evaluates.loaded_of_not_mem (evaluates : Evaluates machine runtime modules values final)
    (absent : aliasName ∉ modules.map (·.aliasName)) :
    final.loaded aliasName = runtime.loaded aliasName := by
  induction evaluates with
  | nil runtime => rfl
  | cons evaluated further ih =>
    simp only [map_cons, mem_cons, not_or] at absent
    exact (ih absent.2).trans (Function.update_of_ne absent.1 _ _)

theorem Evaluates.loaded (evaluates : Evaluates machine runtime modules values final)
    (once : (modules.map (·.aliasName)).Nodup) {index : Nat} {entry : PreparedLuaModule}
    (listed : modules[index]? = some entry) :
    values[index]? = some (final.loaded entry.aliasName) := by
  induction evaluates generalizing index with
  | nil runtime => simp at listed
  | @cons runtime final first rest value state values evaluated further ih =>
    rw [map_cons, nodup_cons] at once
    cases index with
    | zero =>
      obtain rfl : first = entry := by simpa using listed
      rw [further.loaded_of_not_mem once.1]
      simp only [getElem?_cons_zero, Function.update_self]
    | succ index =>
      rw [getElem?_cons_succ] at listed ⊢
      exact ih once.2 listed

/-- A machine under which every module evaluates to its alias. -/
def namingMachine : Machine Text Unit where
  evaluate _ _ name _ := .ok (some name, ())
  start := ()

theorem namingMachine_evaluates (runtime : LuaRuntime Text Unit) : ∃ final,
    Evaluates namingMachine runtime modules (modules.map fun entry => some entry.aliasName) final := by
  induction modules generalizing runtime with
  | nil => exact ⟨runtime, .nil runtime⟩
  | cons first rest ih =>
    obtain ⟨final, further⟩ := ih ⟨(), Function.update runtime.loaded first.aliasName first.aliasName⟩
    exact ⟨final, .cons rfl further⟩

/-! ### Agreement -/

/-- Whatever the virtual machine computes, `cast.import` of the literal is the value of the module
that was loaded under the alias, and `nil` only if that is. -/
def Agrees (modules : List PreparedLuaModule) (literal aliasName : Text) : Prop :=
  ∀ (Value State : Type) (machine : Machine Value State) (runtime : LuaRuntime Value State)
    (values : List (Option Value)), createRuntime machine modules = .ok runtime →
    Evaluates machine (.initial machine) modules values runtime →
    ∃ (index : Nat) (entry : PreparedLuaModule), modules[index]? = some entry ∧ entry.aliasName = aliasName ∧
      values[index]? = some (castImport runtime literal) ∧
      (values[index]? ≠ some none → castImport runtime literal ≠ none)

variable {modules : List PreparedLuaModule}

theorem agrees_iff {literal : Text} (once : (modules.map (·.aliasName)).Nodup) :
    Agrees modules literal aliasName ↔ literal = aliasName ∧ aliasName ∈ modules.map (·.aliasName) := by
  constructor
  · intro agrees
    -- the values of this machine tell the aliases apart
    obtain ⟨runtime, evaluates⟩ := @namingMachine_evaluates modules (.initial namingMachine)
    obtain ⟨index, entry, listed, rfl, read, -⟩ := agrees Text Unit namingMachine runtime _
      (foldlM_loadModule_iff.mpr ⟨_, evaluates⟩) evaluates
    have named : castImport runtime literal = some entry.aliasName := by
      rw [getElem?_map, listed] at read
      exact (Option.some.inj read).symm
    refine ⟨?_, mem_map_of_mem (mem_of_getElem? listed)⟩
    by_cases present : literal ∈ modules.map (·.aliasName)
    · obtain ⟨other, member, rfl⟩ := mem_map.mp present
      obtain ⟨place, placed⟩ := getElem?_of_mem member
      have stored := evaluates.loaded once placed
      rw [getElem?_map, placed] at stored
      rw [castImport, ← Option.some.inj stored] at named
      exact Option.some.inj named
    · rw [castImport, evaluates.loaded_of_not_mem present] at named
      cases named
  · rintro ⟨rfl, present⟩ Value State machine runtime values - evaluates
    obtain ⟨entry, member, rfl⟩ := mem_map.mp present
    obtain ⟨index, listed⟩ := getElem?_of_mem member
    have read := evaluates.loaded once listed
    exact ⟨index, entry, listed, rfl, read, fun filled isNil => filled (read.trans (congrArg some isNil))⟩

theorem mem_aliases_iff {graph : PreparedGraph}
    (lists : ListsSourceModules graph modules) : aliasName ∈ modules.map (·.aliasName) ↔
      (graph.sourceAliases.find? aliasName).isSome = true := by
  rw [← exists_sourceModule, ← mem_map, ← (lists.map Prod.fst).mem_iff, map_map]
  rfl

theorem aliases_nodup {graph : PreparedGraph}
    (lists : ListsSourceModules graph modules) : (modules.map (·.aliasName)).Nodup := by
  have mapped := (lists.map Prod.fst).nodup_iff.mpr (sourceModules_keys_nodup graph)
  rwa [map_map] at mapped

/-! ### The imports of the root -/

variable {inputs : Inputs} {explored : List PendingSource} {log : List Event} {parent : PendingSource}
  {found : Import} {literal : Text}

theorem log_of_nothing_explored (discovered : Discovered inputs explored log) (nothing : explored = []) : log = [] := by
  cases discovered with
  | nil => rfl
  | snoc before discovers resolves => simp at nothing

/-- The imports of the module that is explored first come first in the log. -/
theorem log_of_first_explored (discovered : Discovered inputs explored log) (fromParent : explored = parent :: queue) :
    ∃ requests imports further, inputs.discover parent = .ok requests ∧
      Forall₂ (Resolves inputs parent) requests imports ∧
      log = imports.map (Prod.mk parent) ++ further := by
  induction discovered generalizing queue with
  | nil => cases fromParent
  | @snoc explored log last requests imports before discovers resolves ih =>
    cases explored with
    | nil =>
      obtain ⟨rfl, -⟩ := cons.inj fromParent
      rw [log_of_nothing_explored before rfl]
      exact ⟨requests, imports, [], discovers, resolves, by simp⟩
    | cons first rest =>
      obtain ⟨rfl, -⟩ := cons.inj fromParent
      obtain ⟨earlier, resolved, further, discoversFirst, resolvesFirst, rfl⟩ := ih rfl
      exact ⟨earlier, resolved, further ++ imports.map (Prod.mk last), discoversFirst,
        resolvesFirst, by rw [append_assoc]⟩

variable {request : ImportRequest}

theorem named_of_resolves {source : Source} (resolves : Resolves inputs parent request found)
    (content : found.content = .source .embedded source) : request = .embedded found.aliasName := by
  cases resolves with
  | external _ | relative _ _ _ _ _ _ => cases content
  | embedded notExternal isSource => rfl

theorem firstImport_of_cons {event : Event} {identity : Text} : firstImport (event :: log) identity =
      if event.2.identity = identity then some event.2 else firstImport log identity := by
  by_cases here : event.2.identity = identity <;> simp [firstImport, here]

/-- Among the imports of one module, that of a request is the first of its identity when no
earlier request leads to the identity. -/
theorem firstImport_iff_of_requests {requests : List ImportRequest} {imports : List Import}
    (resolved : Forall₂ (Resolves inputs parent) requests imports)
    (resolves : Resolves inputs parent request found) (member : request ∈ requests)
    (only : ∀ other, Resolves inputs parent other found → other = request) :
    firstImport (imports.map (Prod.mk parent)) found.identity = some found ↔
      ∀ earlier ∈ requests.takeWhile (· ≠ request), ∀ other,
        Resolves inputs parent earlier other → other.identity ≠ found.identity := by
  induction resolved with
  | nil => cases member
  | @cons head first requests imports resolvesHead further ih =>
    rw [map_cons, firstImport_of_cons]
    by_cases here : head = request
    · subst here
      simp [resolvesHead.unique resolves]
    · have later := (mem_cons.mp member).resolve_left (Ne.symm here)
      rw [takeWhile_cons_of_pos (by simpa using here), forall_mem_cons, ← ih later]
      have notFound : first ≠ found := by
        rintro rfl
        exact here (only head resolvesHead)
      by_cases same : first.identity = found.identity
      · simp only [same, if_true, Option.some.injEq, notFound, false_iff, not_and]
        intro differs
        exact absurd same (differs first resolvesHead)
      · simp only [same, if_false]
        refine ⟨fun isFirst => ⟨?_, isFirst⟩, And.right⟩
        intro other resolvesOther
        rwa [resolvesOther.unique resolvesHead]

theorem firstImport_of_root {imports : List Import} {further : List Event} (member : found ∈ imports) :
    firstImport (imports.map (Prod.mk parent) ++ further) found.identity =
      firstImport (imports.map (Prod.mk parent)) found.identity := by
  have logged : (parent, found) ∈ imports.map (Prod.mk parent) := mem_map.mpr ⟨found, member, rfl⟩
  obtain ⟨first, isFirst⟩ := firstImport_isSome logged
  unfold firstImport at isFirst ⊢
  rw [find?_append]
  obtain ⟨event, picked, -⟩ := Option.map_eq_some_iff.mp isFirst
  rw [picked]
  rfl

variable {graph : ModuleGraph}

section

variable (recorded : Recorded inputs log queue graph) (resolves : Resolves inputs parent request found)
include recorded resolves

theorem registers_of_loaded (named : ∀ source, found.content ≠ .source .relative source)
    (loaded : (graph.prepared.sourceAliases.find? found.aliasName).isSome = true) :
    registersIn log found = true := by
  obtain ⟨⟨identity, text⟩, registered⟩ := Option.isSome_iff_exists.mp loaded
  obtain ⟨other, isLoaded, -, -⟩ := recorded.find?_alias_iff.mp registered
  obtain ⟨sameAlias, registers, asker, member⟩ := mem_of_aliasImport isLoaded
  obtain ⟨otherRequest, otherResolves⟩ := recorded.resolved _ member
  rwa [resolves.same_identity otherResolves sameAlias.symm named]

/-- A source that is imported by a catalog name is loaded under it exactly when that import is the
first one of its identity. -/
theorem loaded_iff_first {source : Source} (content : found.content = .source .embedded source) :
    (graph.prepared.sourceAliases.find? found.aliasName).isSome = true ↔
      firstImport log found.identity = some found := by
  constructor
  · intro loaded
    have registers := registers_of_loaded recorded resolves (by simp [content]) loaded
    simpa [registersIn, content] using registers
  · intro isFirst
    have isLoaded := recorded.aliasImport_of_first isFirst (by simp [Import.queued, content])
    rw [recorded.find?_alias_iff.mpr ⟨found, isLoaded, rfl, rfl⟩]
    rfl

theorem external_not_loaded {name : Text} {evidence : List UInt8} (content : found.content = .external name evidence) :
    ¬ (graph.prepared.sourceAliases.find? found.aliasName).isSome = true := by
  intro loaded
  have registers := registers_of_loaded recorded resolves (by simp [content]) loaded
  simp [registersIn, content] at registers

end

theorem length_alias_lt {requested : Text} {normalized : NormalizedRelative}
    (accepted : normalizeRelative requested = .ok normalized) :
    normalized.aliasName.length < requested.length := by
  simp only [normalizeRelative, bind_eq_ok, exists_check, refuse_eq_ok, pure_eq_ok, not_not] at accepted
  obtain ⟨-, -, extended, -, rfl⟩ := accepted
  have long := (isSuffixOf_iff_suffix.mp extended).length_le
  have four : luaExtension.length = 4 := rfl
  have shortened : (if "./".toList.isPrefixOf requested then requested.drop 2 else requested).length ≤
      requested.length := by
    split
    · rw [length_drop]
      omega
    · exact Nat.le_refl _
  simp only [slashesToDots, withoutExtension, length_map, length_take]
  omega

variable {parse : Parser} {catalog : AbiCatalog} {sourceRoot : Option SourceRoot} {limits : Limits}
  {rootSource : Source} {sha256 : List UInt8 → Text} {fuel more : Nat} {graph : PreparedGraph}
  {modules : List PreparedLuaModule} {literal : Text}

/-- The literal names a source of the catalog, and no import that the chunk has before it leads to
the identity of that source. -/
def NamedFirst (inputs : Inputs) (requests : List ImportRequest) (literal : Text) : Prop :=
  luaExtension.isSuffixOf literal = false ∧ inputs.catalog.externals.find? literal = none ∧
    ∃ source, inputs.catalog.sources.find? literal = some source ∧
      ∀ earlier ∈ requests.takeWhile (· ≠ .embedded literal), ∀ other,
        Resolves inputs (rootPending inputs) earlier other → other.identity ≠ source.identity

/-- A literal of the root chunk reads the module that the graph has resolved it to exactly when it
names a catalog source and is the first import of it. -/
theorem import_agrees_iff
    (returned : prepareModuleGraph (engineInputs parse catalog sourceRoot limits rootSource sha256)
      fuel = some (.ok graph))
    (ordered : orderModules graph more = some modules)
    (imported : classifyLiteral literal ∈ discoverImports parse rootSource.text) :
    (∃ found, Resolves (engineInputs parse catalog sourceRoot limits rootSource sha256)
        (rootPending (engineInputs parse catalog sourceRoot limits rootSource sha256))
        (classifyLiteral literal) found ∧
      ⟨rootIdentity, found.identity, found.aliasName⟩ ∈ graph.dependencies ∧
      Agrees modules literal found.aliasName) ↔
      NamedFirst (engineInputs parse catalog sourceRoot limits rootSource sha256)
        (discoverImports parse rootSource.text) literal := by
  have lists := lists_of_ordered (aliasFacts_of_prepared returned) ordered
  generalize within : engineInputs parse catalog sourceRoot limits rootSource sha256 = inputs at returned ⊢
  obtain ⟨explored, finished, rfl, -⟩ := explored_of_prepared returned
  obtain ⟨queue, log, discovered, recorded, -⟩ := exploreGraph_ok finished
  obtain ⟨requests, imports, further, discovers, resolved, rfl⟩ := log_of_first_explored discovered rfl
  obtain rfl : discoverImports parse rootSource.text = requests := by
    rw [← within] at discovers
    exact Except.ok.inj discovers
  -- for an import by a catalog name, being loaded under it is being the first of its identity
  have loaded_iff : ∀ source, inputs.catalog.externals.find? literal = none →
      inputs.catalog.sources.find? literal = some source →
      .embedded literal ∈ discoverImports parse rootSource.text →
      (literal ∈ modules.map (·.aliasName) ↔
        ∀ earlier ∈ (discoverImports parse rootSource.text).takeWhile (· ≠ .embedded literal), ∀ other,
          Resolves inputs (rootPending inputs) earlier other → other.identity ≠ source.identity) := by
    intro source notExternal isSource member
    have resolves : Resolves inputs (rootPending inputs) (.embedded literal) _ := .embedded notExternal isSource
    obtain ⟨found, foundMember, alsoFound⟩ := exists_right_of_mem resolved member
    obtain rfl := alsoFound.unique resolves
    rw [mem_aliases_iff lists, loaded_iff_first recorded resolves rfl, firstImport_of_root foundMember]
    exact firstImport_iff_of_requests resolved resolves member fun other again =>
      named_of_resolves again rfl
  constructor
  · rintro ⟨found, resolves, -, agrees⟩
    obtain ⟨sameName, present⟩ := (agrees_iff (aliases_nodup lists)).mp agrees
    unfold classifyLiteral at imported resolves
    by_cases extended : luaExtension.isSuffixOf literal = true
    · rw [if_pos extended] at resolves
      cases resolves with
      | relative parentClass rooted accepted notSource notExternal loaded =>
        rw [← within] at accepted
        exact absurd (congrArg List.length sameName) (Nat.ne_of_gt (length_alias_lt accepted))
    · rw [if_neg extended] at imported resolves
      cases resolves with
      | external isExternal =>
        have resolves : Resolves inputs (rootPending inputs) (.embedded literal) _ := .external isExternal
        exact absurd ((mem_aliases_iff lists).mp present) (external_not_loaded recorded resolves rfl)
      | embedded notExternal isSource =>
        exact ⟨Bool.eq_false_iff.mpr extended, notExternal, _, isSource,
          (loaded_iff _ notExternal isSource imported).mp present⟩
  · rintro ⟨named, notExternal, source, isSource, first⟩
    have request : classifyLiteral literal = .embedded literal := by
      rw [classifyLiteral, named]
      rfl
    rw [request] at imported ⊢
    have resolves : Resolves inputs (rootPending inputs) (.embedded literal) _ := .embedded notExternal isSource
    obtain ⟨found, foundMember, alsoFound⟩ := exists_right_of_mem resolved imported
    obtain rfl := alsoFound.unique resolves
    refine ⟨_, resolves, (recorded.dependencies _).mpr ⟨(rootPending inputs, _), ?_, rfl⟩, ?_⟩
    · exact mem_append_left _ (mem_map.mpr ⟨_, foundMember, rfl⟩)
    · exact (agrees_iff (aliases_nodup lists)).mpr ⟨rfl, (loaded_iff source notExternal isSource imported).mpr first⟩

/-! A catalog source and a file. -/

def oneName (name : Text) : Inputs :=
  engineInputs (chunkParser [[name]])
    ⟨SortedMap.empty.insert name ⟨"embedded:".toList ++ name, ⟨name, "return 1".toList⟩⟩, .empty⟩
    none sampleLimits ⟨"main.lua".toList, chunkText [name]⟩ sampleSha256

theorem catalog_source_is_read : ∃ prepared modules,
    prepareModuleGraph (oneName "std".toList) 20 = some (.ok prepared) ∧ orderModules prepared 60 = some modules ∧
      ∃ found, Resolves (oneName "std".toList) (rootPending (oneName "std".toList))
          (classifyLiteral "std".toList) found ∧
        ⟨rootIdentity, found.identity, found.aliasName⟩ ∈ prepared.dependencies ∧
        Agrees modules "std".toList found.aliasName := by
  have view : viewed textsAndOrder (prepareModuleGraph (oneName "std".toList) 20) = some (some
      ([("std".toList, "return 1".toList)], some ["std".toList])) := by
    decide +kernel
  obtain ⟨prepared, modules, returned, ordered, -, -⟩ := exists_of_textsAndOrder view
  refine ⟨prepared, modules, returned, ordered, (import_agrees_iff returned ordered (by decide +kernel)).mpr ?_⟩
  have first : (discoverImports (chunkParser [["std".toList]]) (chunkText ["std".toList])).takeWhile
      (· ≠ .embedded "std".toList) = [] := by decide +kernel
  refine ⟨by decide +kernel, rfl, _, rfl, ?_⟩
  rw [first]
  simp

theorem helper_file_is_read_as_nil : ∃ prepared modules,
    prepareModuleGraph (oneImport "helper.lua".toList) 20 = some (.ok prepared) ∧
      orderModules prepared 60 = some modules ∧
      classifyLiteral "helper.lua".toList ∈
        discoverImports (chunkParser [["helper.lua".toList]]) (chunkText ["helper.lua".toList]) ∧
      ∃ runtime, createRuntime namingMachine modules = .ok runtime ∧
        castImport runtime "helper".toList = some "helper".toList ∧
        castImport runtime "helper.lua".toList = none := by
  have view : viewed textsAndOrder (prepareModuleGraph (oneImport "helper.lua".toList) 20) = some (some
      ([("helper".toList, "return 1".toList)], some ["helper".toList])) := by
    decide +kernel
  obtain ⟨prepared, modules, returned, ordered, -, order⟩ := exists_of_textsAndOrder view
  obtain ⟨runtime, evaluates⟩ := @namingMachine_evaluates modules (.initial namingMachine)
  obtain ⟨entry, rfl⟩ : ∃ entry, modules = [entry] := length_eq_one_iff.mp
    (by rw [← length_map (·.aliasName), order]; rfl)
  obtain named : entry.aliasName = "helper".toList := singleton_inj.mp order
  refine ⟨prepared, [entry], returned, ordered, by decide +kernel, runtime,
    foldlM_loadModule_iff.mpr ⟨_, evaluates⟩, ?_, ?_⟩
  · have listed : [entry][0]? = some entry := rfl
    have stored := evaluates.loaded (by simp) listed
    rw [named] at stored
    exact (Option.some.inj stored).symm.trans (congrArg some named)
  · rw [castImport, evaluates.loaded_of_not_mem (by simp [named])]
    rfl

end Cast.LuaConfig
