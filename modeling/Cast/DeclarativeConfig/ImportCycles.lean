import Cast.DeclarativeConfig.ModuleGraph
import Cast.Foundation.Cycles

/-! The search for import cycles. One invariant describes the search between two rounds: the gray
nodes are the current path, the path follows edges, and the black nodes are settled. From it a
reported list is a cycle of the dependencies, and a search that reports nothing has shown that
there is none. -/

namespace Cast.DeclarativeConfig

open Foundation List

def ImportEdge (dependencies : List PreparedDependency) (parent target : Text) : Prop :=
  ∃ dependency ∈ dependencies, dependency.parentIdentity = parent ∧ dependency.targetIdentity = target

variable {dependencies : List PreparedDependency} {color : Text → Color} {search next : Search}
  {node target start : Text} {cycle : List Text} {fuel : Nat}

theorem mem_neighbors : target ∈ neighbors dependencies node ↔ ImportEdge dependencies node target := by
  simp [neighbors, ImportEdge, and_assoc]

theorem mem_dependencyNodes {dependency : PreparedDependency} (member : dependency ∈ dependencies) :
    dependency.parentIdentity ∈ (dependencyNodes dependencies).elements ∧
      dependency.targetIdentity ∈ (dependencyNodes dependencies).elements := by
  simp only [dependencyNodes, SortedSet.mem_ofList, mem_flatMap]
  exact ⟨⟨dependency, member, by simp⟩, ⟨dependency, member, by simp⟩⟩

/-! ### What holds between two rounds -/

/-- The targets a frame has passed are black, except for the one that was pushed above it. -/
def Passed (dependencies : List PreparedDependency) (color : Text → Color) : Option Text → List (Text × Nat) → Prop
  | _, [] => True
  | above, (node, index) :: below =>
    (∀ target ∈ (neighbors dependencies node).take index, color target = .black ∨ above = some target) ∧
      Passed dependencies color (some node) below

theorem Passed.mono {later : Text → Color} {above after : Option Text} {stack : List (Text × Nat)}
    (passed : Passed dependencies color above stack)
    (darker : ∀ node, color node = .black → later node = .black)
    (released : ∀ node, above = some node → later node = .black ∨ after = some node) :
    Passed dependencies later after stack := by
  induction stack generalizing above after with
  | nil => trivial
  | cons frame below ih =>
    obtain ⟨node, index⟩ := frame
    refine ⟨?_, ih passed.2 fun other same => .inr same⟩
    intro target member
    obtain black | pushed := passed.1 target member
    · exact .inl (darker target black)
    · exact released target pushed

structure Searching (dependencies : List PreparedDependency) (search : Search) : Prop where
  pathIsStack : search.path = search.stack.map Prod.fst
  linked : search.path.reverse.IsChain (ImportEdge dependencies)
  nodup : search.path.Nodup
  gray : ∀ node, search.color node = .gray ↔ node ∈ search.path
  passed : Passed dependencies search.color none search.stack
  settled : Settled (ImportEdge dependencies) fun node => search.color node = .black

namespace Searching

theorem round_cases (goesOn : searchRound dependencies search = .again next) :
    ∃ node index below, search.stack = (node, index) :: below ∧
      ((∃ target, (neighbors dependencies node)[index]? = some target ∧ search.color target = .white ∧
          next = { color := Function.update search.color target .gray
                   stack := (target, 0) :: (node, index + 1) :: below
                   path := target :: search.path }) ∨
        (∃ target, (neighbors dependencies node)[index]? = some target ∧ search.color target = .black ∧
          next = { search with stack := (node, index + 1) :: below }) ∨
        ((neighbors dependencies node)[index]? = none ∧
          next = { color := Function.update search.color node .black
                   stack := below
                   path := search.path.tail })) := by
  unfold searchRound at goesOn
  split at goesOn
  · cases goesOn
  · rename_i node index below stacked
    refine ⟨node, index, below, stacked, ?_⟩
    split at goesOn
    · rename_i target reached
      split at goesOn
      · rename_i white
        cases goesOn
        exact .inl ⟨target, reached, white, rfl⟩
      · cases goesOn
      · rename_i black
        cases goesOn
        exact .inr (.inl ⟨target, reached, black, rfl⟩)
    · rename_i ended
      cases goesOn
      exact .inr (.inr ⟨ended, rfl⟩)

variable {index : Nat} {below : List (Text × Nat)}

section

variable (searching : Searching dependencies search)
include searching

section

variable (stacked : search.stack = (node, index) :: below)
include stacked

theorem path_eq : search.path = node :: below.map Prod.fst := by
  rw [searching.pathIsStack, stacked]
  rfl

section

variable (reached : (neighbors dependencies node)[index]? = some target)
include reached

theorem linked_target : (search.path.reverse ++ [target]).IsChain (ImportEdge dependencies) := by
  have edge : ImportEdge dependencies node target := mem_neighbors.mp (mem_of_getElem? reached)
  refine isChain_append.mpr ⟨searching.linked, by simp, ?_⟩
  intro last isLast other isOther
  rw [searching.path_eq stacked] at isLast
  obtain rfl : node = last := by simpa using isLast
  obtain rfl : target = other := by simpa using isOther
  exact edge

theorem passed_next : ∀ other ∈ (neighbors dependencies node).take (index + 1),
      search.color other = .black ∨ other = target := by
  intro other member
  have passed := searching.passed
  rw [stacked] at passed
  rw [take_add_one, reached] at member
  obtain earlier | here := mem_append.mp member
  · exact .inl ((passed.1 other earlier).resolve_right nofun)
  · exact .inr (by simpa using here)

theorem push (white : search.color target = .white) : Searching dependencies
      { color := Function.update search.color target .gray
        stack := (target, 0) :: (node, index + 1) :: below
        path := target :: search.path } := by
  have fresh : target ∉ search.path := by
    intro onPath
    rw [(searching.gray target).mpr onPath] at white
    cases white
  have same : ∀ other, Function.update search.color target .gray other = .black ↔
      search.color other = .black := by
    intro other
    by_cases here : other = target <;> simp [here, white]
  refine ⟨?_, ?_, ?_, ?_, ?_, ?_⟩
  · simp only [map_cons]
    rw [searching.path_eq stacked]
  · rw [reverse_cons]
    exact searching.linked_target stacked reached
  · exact nodup_cons.mpr ⟨fresh, searching.nodup⟩
  · intro other
    by_cases here : other = target <;> simp [here, searching.gray]
  · refine ⟨by simp, ?_, ?_⟩
    · intro other member
      obtain black | pushed := searching.passed_next stacked reached other member
      · exact .inl ((same other).mpr black)
      · exact .inr (congrArg some pushed.symm)
    · have passed := searching.passed
      rw [stacked] at passed
      exact passed.2.mono (fun other => (same other).mpr) fun other above => .inr above
  · exact searching.settled.congr fun other => (same other).symm

theorem skip (black : search.color target = .black) :
    Searching dependencies { search with stack := (node, index + 1) :: below } := by
  refine ⟨?_, searching.linked, searching.nodup, searching.gray, ⟨?_, ?_⟩, searching.settled⟩
  · exact searching.path_eq stacked
  · intro other member
    obtain already | pushed := searching.passed_next stacked reached other member
    · exact .inl already
    · exact .inl (pushed ▸ black)
  · have passed := searching.passed
    rw [stacked] at passed
    exact passed.2

end

theorem pop (ended : (neighbors dependencies node)[index]? = none) : Searching dependencies
      { color := Function.update search.color node .black
        stack := below
        path := search.path.tail } := by
  have path := searching.path_eq stacked
  have nodup := searching.nodup
  have linked := searching.linked
  have passed := searching.passed
  rw [path] at nodup linked
  rw [stacked] at passed
  have wasGray : search.color node = .gray := (searching.gray node).mpr (by simp [path])
  have finished : ∀ other, ImportEdge dependencies node other → search.color other = .black := by
    intro other edge
    have all : (neighbors dependencies node).take index = neighbors dependencies node :=
      take_of_length_le (List.getElem?_eq_none_iff.mp ended)
    refine (passed.1 other ?_).resolve_right nofun
    rw [all]
    exact mem_neighbors.mpr edge
  have darker : ∀ other, Function.update search.color node .black other = .black ↔
      other = node ∨ search.color other = .black := by
    intro other
    by_cases here : other = node <;> simp [here]
  refine ⟨?_, ?_, ?_, ?_, ?_, ?_⟩
  · rw [path]
    rfl
  · rw [path]
    rw [reverse_cons] at linked
    exact (isChain_append.mp linked).1
  · rw [path]
    exact (nodup_cons.mp nodup).2
  · intro other
    rw [path]
    by_cases here : other = node
    · subst here
      simpa using (nodup_cons.mp nodup).1
    · simp only [Function.update_of_ne here, searching.gray, path, mem_cons, here, false_or, tail_cons]
  · refine passed.2.mono (fun other black => (darker other).mpr (.inr black)) ?_
    intro other above
    exact .inl ((darker other).mpr (.inl (Option.some.inj above).symm))
  · refine (searching.settled.finish ?_ finished).congr fun other => (darker other).symm
    simp [wasGray]

end

theorem kept (goesOn : searchRound dependencies search = .again next) : Searching dependencies next := by
  obtain ⟨node, index, below, stacked, pushed | skipped | popped⟩ := round_cases goesOn
  · obtain ⟨target, reached, white, rfl⟩ := pushed
    exact searching.push stacked reached white
  · obtain ⟨target, reached, black, rfl⟩ := skipped
    exact searching.skip stacked reached black
  · obtain ⟨ended, rfl⟩ := popped
    exact searching.pop stacked ended

theorem reported (left : searchRound dependencies search = .leave (.error cycle)) :
    IsCycle (ImportEdge dependencies) cycle := by
  unfold searchRound at left
  split at left
  · cases left
  · rename_i node index below stacked
    split at left
    · rename_i target reached
      split at left
      · cases left
      · rename_i gray
        cases left
        have onPath : target ∈ search.path.reverse := mem_reverse.mpr ((searching.gray target).mp gray)
        exact isCycle_of_back_edge onPath (searching.linked_target stacked reached)
      · cases left
    · cases left

theorem finished (left : searchRound dependencies search = .leave (.ok color)) :
    color = search.color ∧ ∀ node, color node ≠ .gray := by
  unfold searchRound at left
  split at left
  · rename_i empty
    cases left
    refine ⟨rfl, ?_⟩
    intro node gray
    have onPath := (searching.gray node).mp gray
    rw [searching.pathIsStack, empty] at onPath
    exact not_mem_nil onPath
  · split at left
    · split at left <;> cases left
    · cases left

end

end Searching

/-! ### Whole searches -/

/-- Between two searches no node is gray and the black ones are settled. -/
structure Rested (dependencies : List PreparedDependency) (color : Text → Color) : Prop where
  noGray : ∀ node, color node ≠ .gray
  settled : Settled (ImportEdge dependencies) fun node => color node = .black

theorem Rested.begins (rested : Rested dependencies color) (white : color start = .white) : Searching dependencies
      { color := Function.update color start .gray, stack := [(start, 0)], path := [start] } := by
  refine ⟨rfl, by simp, by simp, ?_, ⟨by simp, trivial⟩, ?_⟩
  · intro node
    by_cases here : node = start <;> simp [here, rested.noGray]
  · refine rested.settled.congr fun node => ?_
    by_cases here : node = start <;> simp [here, white]

theorem darkened (goesOn : searchRound dependencies search = .again next) :
    (∀ other, search.color other = .black → next.color other = .black) ∧
      ∀ other, search.color other ≠ .white → next.color other ≠ .white := by
  obtain ⟨node, index, below, stacked, pushed | skipped | popped⟩ := Searching.round_cases goesOn
  · obtain ⟨target, reached, white, rfl⟩ := pushed
    refine ⟨?_, ?_⟩ <;>
    · intro other colored
      have differs : other ≠ target := by
        rintro rfl
        simp [white] at colored
      simpa only [Function.update_of_ne differs] using colored
  · obtain ⟨target, reached, black, rfl⟩ := skipped
    exact ⟨fun _ black => black, fun _ colored => colored⟩
  · obtain ⟨ended, rfl⟩ := popped
    refine ⟨?_, ?_⟩ <;>
    · intro other colored
      by_cases here : other = node <;> simp [here, colored]

/-- What a search from one node achieves: a cycle, or the node and all black ones are black. -/
structure Achieves (dependencies : List PreparedDependency) (color : Text → Color) (start : Text)
    (result : Except (List Text) (Text → Color)) : Prop where
  reported : ∀ cycle, result = .error cycle → IsCycle (ImportEdge dependencies) cycle
  went : ∀ later, result = .ok later → Rested dependencies later ∧ later start = .black ∧
    ∀ node, color node = .black → later node = .black

theorem black_of_ne {color : Color} (notWhite : color ≠ .white) (notGray : color ≠ .gray) : color = .black := by
  cases color <;> trivial

theorem searchFrom_achieves {result : Except (List Text) (Text → Color)} (rested : Rested dependencies color)
    (returned : searchFrom dependencies fuel color start = some result) :
    Achieves dependencies color start result := by
  unfold searchFrom at returned
  split at returned
  · rename_i seen
    cases returned
    refine ⟨nofun, ?_⟩
    intro later same
    cases same
    exact ⟨rested, black_of_ne seen (rested.noGray start), fun _ black => black⟩
  · rename_i white
    have white : color start = .white := not_not.mp white
    refine loop_rule (fun search => Searching dependencies search ∧ search.color start ≠ .white ∧
      ∀ node, color node = .black → search.color node = .black)
      (Achieves dependencies color start) ⟨rested.begins white, ?_, ?_⟩ ?_ ?_ returned
    · simp
    · intro node black
      have differs : node ≠ start := by
        rintro rfl
        simp [white] at black
      simpa only [Function.update_of_ne differs] using black
    · intro search next holding goesOn
      obtain ⟨searching, colored, darker⟩ := holding
      obtain ⟨keepsBlack, keepsColored⟩ := darkened goesOn
      exact ⟨searching.kept goesOn, keepsColored start colored, fun node black => keepsBlack node (darker node black)⟩
    · intro search value holding left
      obtain ⟨searching, colored, darker⟩ := holding
      refine ⟨?_, ?_⟩
      · rintro cycle rfl
        exact searching.reported left
      · rintro later rfl
        obtain ⟨rfl, noGray⟩ := searching.finished left
        exact ⟨⟨noGray, searching.settled⟩, black_of_ne colored (noGray start), darker⟩

variable {result : Option (List Text)} {starts : List Text}

theorem searchAll_spec (rested : Rested dependencies color)
    (returned : searchAll dependencies fuel starts color = some result) :
    (∀ cycle, result = some cycle → IsCycle (ImportEdge dependencies) cycle) ∧
      (result = none → ∃ later, Rested dependencies later ∧ (∀ start ∈ starts, later start = .black) ∧
        ∀ node, color node = .black → later node = .black) := by
  induction starts generalizing color with
  | nil =>
    cases returned
    exact ⟨nofun, fun _ => ⟨color, rested, by simp, fun _ black => black⟩⟩
  | cons start starts ih =>
    unfold searchAll at returned
    cases searched : searchFrom dependencies fuel color start with
    | none => simp [searched] at returned
    | some outcome =>
      obtain ⟨reported, went⟩ := searchFrom_achieves rested searched
      rw [searched] at returned
      cases outcome with
      | error cycle =>
        cases returned
        refine ⟨?_, nofun⟩
        intro found same
        cases same
        exact reported cycle rfl
      | ok later =>
        obtain ⟨restedLater, startBlack, darker⟩ := went later rfl
        obtain ⟨cycles, silent⟩ := ih restedLater returned
        refine ⟨cycles, ?_⟩
        intro none
        obtain ⟨last, restedLast, allBlack, darkerStill⟩ := silent none
        exact ⟨last, restedLast, forall_mem_cons.mpr ⟨darkerStill _ startBlack, allBlack⟩,
          fun node black => darkerStill node (darker node black)⟩

theorem rested_white : Rested dependencies fun _ => .white := ⟨fun _ => nofun, Settled.none.congr fun _ => by simp⟩

/-! ### Termination -/

/-- The rounds that a white node may still cost: its push, its targets and its pop. -/
def visitCost (dependencies : List PreparedDependency) (node : Text) : Nat := (neighbors dependencies node).length + 2

def whiteCost (dependencies : List PreparedDependency) (color : Text → Color) : Nat :=
  ((dependencyNodes dependencies).elements.map fun node =>
    if color node = .white then visitCost dependencies node else 0).sum

def stackCost (dependencies : List PreparedDependency) (stack : List (Text × Nat)) : Nat :=
  (stack.map fun frame => (neighbors dependencies frame.1).length - frame.2 + 1).sum

def searchBound (dependencies : List PreparedDependency) : Nat :=
  ((dependencyNodes dependencies).elements.map (visitCost dependencies)).sum

theorem whiteCost_le : whiteCost dependencies color ≤ searchBound dependencies := by
  refine sum_le_sum ?_
  intro node _
  split
  · exact Nat.le_refl _
  · exact Nat.zero_le _

theorem whiteCost_update (member : node ∈ (dependencyNodes dependencies).elements) (white : color node = .white) :
    whiteCost dependencies (Function.update color node .gray) + visitCost dependencies node ≤
      whiteCost dependencies color := by
  refine sum_map_add_le member ?_ ?_
  · intro other
    by_cases here : other = node <;> simp [here]
  · simp [white]

theorem whiteCost_finish :
    whiteCost dependencies (Function.update color node .black) ≤ whiteCost dependencies color := by
  refine sum_le_sum ?_
  intro other _
  by_cases here : other = node <;> simp [here]

theorem mem_nodes_of_reached {index : Nat} (reached : (neighbors dependencies node)[index]? = some target) :
    target ∈ (dependencyNodes dependencies).elements := by
  obtain ⟨dependency, member, -, rfl⟩ := mem_neighbors.mp (mem_of_getElem? reached)
  exact (mem_dependencyNodes member).2

theorem cost_lowered (goesOn : searchRound dependencies search = .again next) :
    whiteCost dependencies next.color + stackCost dependencies next.stack <
      whiteCost dependencies search.color + stackCost dependencies search.stack := by
  obtain ⟨node, index, below, stacked, pushed | skipped | popped⟩ := Searching.round_cases goesOn
  · obtain ⟨target, reached, white, rfl⟩ := pushed
    obtain ⟨inside, -⟩ := List.getElem?_eq_some_iff.mp reached
    have fallen := whiteCost_update (mem_nodes_of_reached reached) white
    simp only [stacked, stackCost, map_cons, sum_cons, visitCost] at fallen ⊢
    omega
  · obtain ⟨target, reached, black, rfl⟩ := skipped
    obtain ⟨inside, -⟩ := List.getElem?_eq_some_iff.mp reached
    simp only [stacked, stackCost, map_cons, sum_cons]
    omega
  · obtain ⟨ended, rfl⟩ := popped
    have fallen : whiteCost dependencies (Function.update search.color node .black) ≤
        whiteCost dependencies search.color := whiteCost_finish
    simp only [stacked, stackCost, map_cons, sum_cons]
    omega

theorem searchFrom_returns (member : start ∈ (dependencyNodes dependencies).elements)
    (enough : searchBound dependencies ≤ fuel) :
    ∃ result, searchFrom dependencies fuel color start = some result := by
  unfold searchFrom
  split
  · exact ⟨_, rfl⟩
  · rename_i white
    have fallen := whiteCost_update member (not_not.mp white)
    have bounded : whiteCost dependencies color ≤ searchBound dependencies := whiteCost_le
    refine loop_returns (fun _ => True)
      (fun search => whiteCost dependencies search.color + stackCost dependencies search.stack)
      trivial (fun _ _ _ _ => trivial) (fun _ _ _ goesOn => cost_lowered goesOn) ?_
    simp only [stackCost, map_cons, map_nil, sum_cons, sum_nil, visitCost] at fallen ⊢
    omega

theorem searchAll_returns (members : ∀ start ∈ starts, start ∈ (dependencyNodes dependencies).elements)
    (enough : searchBound dependencies ≤ fuel) :
    ∃ result, searchAll dependencies fuel starts color = some result := by
  induction starts generalizing color with
  | nil => exact ⟨none, rfl⟩
  | cons start starts ih =>
    obtain ⟨outcome, searched⟩ : ∃ outcome, searchFrom dependencies fuel color start = some outcome :=
      searchFrom_returns (members start mem_cons_self) enough
    unfold searchAll
    rw [searched]
    cases outcome with
    | error cycle => exact ⟨some cycle, rfl⟩
    | ok later => exact ih fun other member => members other (mem_cons_of_mem start member)

theorem searchFrom_of_le {more : Nat} {result : Except (List Text) (Text → Color)}
    (enough : fuel ≤ more) (returned : searchFrom dependencies fuel color start = some result) :
    searchFrom dependencies more color start = some result := by
  unfold searchFrom at returned ⊢
  by_cases seen : color start ≠ .white
  · rw [if_pos seen] at returned ⊢
    exact returned
  · rw [if_neg seen] at returned ⊢
    exact loop_of_le enough returned

theorem searchAll_of_le {more : Nat}
    (enough : fuel ≤ more) (returned : searchAll dependencies fuel starts color = some result) :
    searchAll dependencies more starts color = some result := by
  induction starts generalizing color with
  | nil => exact returned
  | cons start starts ih =>
    unfold searchAll at returned ⊢
    cases searched : searchFrom dependencies fuel color start with
    | none => simp [searched] at returned
    | some outcome =>
      rw [searched] at returned
      rw [searchFrom_of_le enough searched]
      cases outcome with
      | error cycle => exact returned
      | ok later => exact ih returned

/-! ### Detection -/

/-- The printed path of a detected cycle is a cycle of the dependencies. -/
theorem isCycle_of_detected (detected : detectImportCycle dependencies fuel = some (some cycle)) :
    IsCycle (ImportEdge dependencies) cycle :=
  (searchAll_spec rested_white detected).1 cycle rfl

theorem acyclic_of_not_detected (silent : detectImportCycle dependencies fuel = some none) :
    Acyclic (ImportEdge dependencies) := by
  obtain ⟨color, rested, black, -⟩ := (searchAll_spec rested_white silent).2 rfl
  refine rested.settled.acyclic ?_
  intro node target edge
  obtain ⟨dependency, member, rfl, -⟩ := edge
  exact black _ (mem_dependencyNodes member).1

end Cast.DeclarativeConfig
