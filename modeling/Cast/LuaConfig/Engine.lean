import Cast.DeclarativeConfig.ModuleGraph
import Cast.Foundation.RotatingQueue

/-! The Lua engine's part of an evaluation, as `lua_config/src/imports.rs` and `engine.rs` have it:
literal imports are read off the calls of a parsed chunk, relative spellings are normalized, the
prepared modules are ordered and then evaluated one after another into the table that `cast.import`
reads. The grammar and the virtual machine are parameters. -/

namespace Cast.LuaConfig

open Foundation DeclarativeConfig

/-! ### Imports of a chunk -/

/-- An argument of a call: a string literal or any other expression. -/
inductive Argument where
  | string (literal : Text)
  | computed
deriving DecidableEq

inductive FunctionArgs where
  | parentheses (arguments : List Argument)
  | string (literal : Text)
  | table
deriving DecidableEq

inductive Suffix where
  | dot (name : Text)
  | brackets
  | anonymousCall (args : FunctionArgs)
  | methodCall
deriving DecidableEq

/-- A call of the syntax tree; `callee` is `none` for a parenthesized expression. -/
structure FunctionCall where
  callee : Option Text
  suffixes : List Suffix

/-- A parser yields the calls of a chunk in the order of a visit, or its errors. -/
abbrev Parser := Text → Except (List Text) (List FunctionCall)

def isCastImport (call : FunctionCall) : Bool :=
  call.callee = some "cast".toList && call.suffixes.head? = some (.dot "import".toList)

def literalArgument (call : FunctionCall) : Option Text :=
  match (call.suffixes[1]? : Option Suffix) with
  | some (.anonymousCall (.parentheses [.string literal])) => some literal
  | some (.anonymousCall (.string literal)) => some literal
  | _ => none

def luaExtension : Text := ".lua".toList

def classifyLiteral (name : Text) : ImportRequest :=
  if luaExtension.isSuffixOf name then .relative name else .embedded name

def visitFunctionCall (call : FunctionCall) : Option ImportRequest :=
  if isCastImport call then
    match literalArgument call with
    | some name => some (classifyLiteral name)
    | none => some (.invalid "cast.import requires a single string-literal argument".toList)
  else none

def discoverImports (parse : Parser) (source : Text) : List ImportRequest :=
  match parse source with
  | .error errors => [.invalid ("lua source does not parse: ".toList ++ "; ".toList.intercalate errors)]
  | .ok calls => calls.filterMap visitFunctionCall

/-! ### Relative spellings -/

def slashesToDots (text : Text) : Text := text.map fun char => if char = '/' then '.' else char

def withoutExtension (portable : Text) : Text := portable.take (portable.length - luaExtension.length)

def normalizeRelative (requested : Text) : Except Text NormalizedRelative := do
  refuse ('\x00' ∈ requested) "relative import contains a NUL byte".toList
  let portable := if "./".toList.isPrefixOf requested then requested.drop 2 else requested
  refuse (portable.head? = some '/') "relative import must not be absolute".toList
  refuse (¬ luaExtension.isSuffixOf portable) "relative import must end with .lua".toList
  refuse (∃ part ∈ portable.splitOn '/', part = "..".toList ∨ part = ".".toList ∨ part = [])
    "relative import must not traverse or contain empty components".toList
  pure ⟨portable, slashesToDots (withoutExtension portable)⟩

/-- The engine's call of the shared preparation. -/
def engineInputs (parse : Parser) (catalog : AbiCatalog) (sourceRoot : Option SourceRoot)
    (limits : Limits) (rootSource : Source) (sha256 : List UInt8 → Text) : Inputs where
  catalog
  sourceRoot
  limits
  rootSource
  discover := fun view => .ok (discoverImports parse view.source.text)
  normalizeRelative
  sha256

/-! ### Load order -/

structure PreparedLuaModule where
  aliasName : Text
  source : Text

/-- The alias a module identity is imported as, or `root` for the root. -/
def parentAlias (graph : PreparedGraph) (identity : Text) : Text :=
  if identity = rootIdentity then rootIdentity
  else
    match graph.dependencies.find? fun dependency => dependency.targetIdentity = identity with
    | some dependency => dependency.aliasName
    | none => identity

abbrev Adjacency := SortedMap Text (SortedSet Text)

/-- `entry(key).or_default()`, then the given insertions. -/
def extendEntry (adjacency : Adjacency) (key : Text) (targets : List Text) : Adjacency :=
  adjacency.insert key (targets.foldl SortedSet.insert ((adjacency.find? key).getD .empty))

def sourceAdjacency (graph : PreparedGraph) : Adjacency :=
  graph.sourceModules.foldl (fun adjacency source => extendEntry adjacency source.1 []) .empty

def addDependency (graph : PreparedGraph) (adjacency : Adjacency) (dependency : PreparedDependency) : Adjacency :=
  if (graph.sourceAliases.find? dependency.aliasName).isSome then
    extendEntry adjacency (parentAlias graph dependency.parentIdentity) [dependency.aliasName]
  else adjacency

def moduleAdjacency (graph : PreparedGraph) : Adjacency :=
  graph.dependencies.foldl (addDependency graph) (sourceAdjacency graph)

def isReady (adjacency : Adjacency) (ordered : List Text) (node : Text) : Bool :=
  match adjacency.find? node with
  | some targets => targets.elements.all fun target => target ∈ ordered || (adjacency.find? target).isNone
  | none => true

/-- Repeatedly emit any node whose imports are all already emitted; the emitted nodes are the
visited ones. -/
def topologicalOrder (adjacency : Adjacency) (fuel : Nat) : Option (List Text) :=
  loop (rotatingRound (isReady adjacency)) fuel ⟨[], adjacency.entries.map Prod.fst⟩

def orderModules (graph : PreparedGraph) (fuel : Nat) : Option (List PreparedLuaModule) :=
  (topologicalOrder (moduleAdjacency graph) fuel).map fun ordered =>
    ordered.filterMap fun aliasName =>
      (graph.sourceAliases.find? aliasName).map fun registered => ⟨aliasName, registered.2⟩

/-! ### The runtime -/

/-- A virtual machine evaluates a named chunk in a state, with `cast.import` reading a table; a
chunk may yield `nil`. -/
structure Machine (Value State : Type) where
  evaluate : State → (Text → Option Value) → Text → Text → Except Diagnostic (Option Value × State)
  start : State

structure LuaRuntime (Value State : Type) where
  state : State
  loaded : Text → Option Value

variable {Value State : Type}

def loadModule (machine : Machine Value State) (runtime : LuaRuntime Value State)
    (entry : PreparedLuaModule) : Except Diagnostic (LuaRuntime Value State) := do
  let result ← machine.evaluate runtime.state runtime.loaded entry.aliasName entry.source
  pure ⟨result.2, Function.update runtime.loaded entry.aliasName result.1⟩

def createRuntime (machine : Machine Value State) (modules : List PreparedLuaModule) :
    Except Diagnostic (LuaRuntime Value State) :=
  modules.foldlM (loadModule machine) ⟨machine.start, fun _ => none⟩

/-- What a chunk of the runtime sees as `cast.import`. -/
def castImport (runtime : LuaRuntime Value State) (requested : Text) : Option Value := runtime.loaded requested

end Cast.LuaConfig
