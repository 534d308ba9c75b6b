import Cast.Foundation.Checks
import Cast.Foundation.Machine

/-! The limits on the texts of a build policy, as `build_policy/validation/resource.rs` checks them. A
text is a tree that is walked with a stack, and what is pending is counted before it is visited. -/

namespace Cast.BuildPolicy

open Foundation List

variable {κ : Type}

inductive TextSpec (κ : Type) where
  | literal (content : String)
  | context (value : κ)
  | concat (parts : List (TextSpec κ))

structure BuildPolicyValidationLimits where
  maxStringBytes : Nat
  maxTotalStringBytes : Nat
  maxTextNodes : Nat
  maxTextDepth : Nat
  maxTextLiteralBytes : Nat
  maxTextTotalLiteralBytes : Nat
  maxTotalTextNodes : Nat
  maxTotalTextLiteralBytes : Nat

inductive BuildPolicyConversionError where
  | stringBytesLimit (field : String) (bytes limit : Nat)
  | totalStringBytesLimit (bytes limit : Nat)
  | textNodeLimit (field : String) (nodes limit : Nat)
  | textDepthLimit (field : String) (depth limit : Nat)
  | textLiteralBytesLimit (field : String) (bytes limit : Nat)
  | textTotalLiteralBytesLimit (field : String) (bytes limit : Nat)
  | totalTextNodesLimit (nodes limit : Nat)
  | totalTextLiteralBytesLimit (bytes limit : Nat)

structure ResourceValidator where
  limits : BuildPolicyValidationLimits
  totalStringBytes : Nat
  totalTextNodes : Nat
  totalTextLiteralBytes : Nat

/-- The validator inside `text`. -/
structure TextScan extends ResourceValidator where
  nodes : Nat
  literalBytes : Nat

def ResourceValidator.string (validator : ResourceValidator) (field value : String) :
    Except BuildPolicyConversionError ResourceValidator := do
  let bytes := value.utf8ByteSize
  let limits := validator.limits
  refuse (bytes > limits.maxStringBytes) (.stringBytesLimit field bytes limits.maxStringBytes)
  let total := saturatingAdd validator.totalStringBytes bytes
  refuse (total > limits.maxTotalStringBytes) (.totalStringBytesLimit total limits.maxTotalStringBytes)
  return { validator with totalStringBytes := total }

/-- The loop body, with the rest of the stack pending. -/
def TextScan.visit (scan : TextScan) (field : String) (pending : Nat) (value : TextSpec κ) (depth : Nat) :
    Except BuildPolicyConversionError TextScan := do
  let limits := scan.limits
  let nodes := saturatingAdd scan.nodes 1
  refuse (nodes > limits.maxTextNodes) (.textNodeLimit field nodes limits.maxTextNodes)
  let total := saturatingAdd scan.totalTextNodes 1
  refuse (total > limits.maxTotalTextNodes) (.totalTextNodesLimit total limits.maxTotalTextNodes)
  refuse (depth > limits.maxTextDepth) (.textDepthLimit field depth limits.maxTextDepth)
  let scan := { scan with nodes := nodes, totalTextNodes := total }
  match value with
  | .literal content => do
    let bytes := content.utf8ByteSize
    refuse (bytes > limits.maxTextLiteralBytes) (.textLiteralBytesLimit field bytes limits.maxTextLiteralBytes)
    let literalBytes := saturatingAdd scan.literalBytes bytes
    refuse (literalBytes > limits.maxTextTotalLiteralBytes)
      (.textTotalLiteralBytesLimit field literalBytes limits.maxTextTotalLiteralBytes)
    let totalBytes := saturatingAdd scan.totalTextLiteralBytes bytes
    refuse (totalBytes > limits.maxTotalTextLiteralBytes)
      (.totalTextLiteralBytesLimit totalBytes limits.maxTotalTextLiteralBytes)
    let validator ← { scan.toResourceValidator with totalTextLiteralBytes := totalBytes }.string field content
    return { scan with toResourceValidator := validator, literalBytes := literalBytes }
  | .context _ => return scan
  | .concat parts => do
    let minimumNodes := saturatingAdd (saturatingAdd nodes pending) parts.length
    refuse (minimumNodes > limits.maxTextNodes) (.textNodeLimit field minimumNodes limits.maxTextNodes)
    let minimumTotal := saturatingAdd (saturatingAdd total pending) parts.length
    refuse (minimumTotal > limits.maxTotalTextNodes) (.totalTextNodesLimit minimumTotal limits.maxTotalTextNodes)
    return scan

/-- The texts that are pushed for a node, first one on top. -/
def TextSpec.parts : TextSpec κ → List (TextSpec κ)
  | .concat parts => parts
  | _ => []

def TextSpec.nodes : TextSpec κ → Nat
  | .literal _ | .context _ => 1
  | .concat parts => 1 + (parts.map nodes).sum

def TextSpec.depth : TextSpec κ → Nat
  | .literal _ | .context _ => 1
  | .concat parts => 1 + (parts.map depth).foldr max 0

def TextSpec.literals : TextSpec κ → List Nat
  | .literal content => [content.utf8ByteSize]
  | .context _ => []
  | .concat parts => parts.flatMap literals

theorem TextSpec.nodes_eq (value : TextSpec κ) : value.nodes = 1 + (value.parts.map (·.nodes)).sum := by
  cases value <;> simp [nodes, parts]

theorem TextSpec.depth_eq (value : TextSpec κ) : value.depth = 1 + (value.parts.map depth).foldr max 0 := by
  cases value <;> simp [depth, parts]

def pushed (value : TextSpec κ) (depth : Nat) (stack : List (TextSpec κ × Nat)) : List (TextSpec κ × Nat) :=
  value.parts.map (·, saturatingAdd depth 1) ++ stack

def stackNodes (stack : List (TextSpec κ × Nat)) : Nat := (stack.map (·.1.nodes)).sum

variable {value : TextSpec κ} {depth : Nat} {stack : List (TextSpec κ × Nat)}

theorem stackNodes_cons : stackNodes ((value, depth) :: stack) = stackNodes (pushed value depth stack) + 1 := by
  simp only [stackNodes, pushed, value.nodes_eq, map_cons, map_append, map_map, sum_cons, sum_append, Function.comp_def]
  omega

def TextScan.run (scan : TextScan) (field : String) (stack : List (TextSpec κ × Nat)) :
    Except BuildPolicyConversionError TextScan :=
  match stack with
  | [] => .ok scan
  | (value, depth) :: stack => do
    let scan ← scan.visit field stack.length value depth
    scan.run field (pushed value depth stack)
termination_by stackNodes stack
decreasing_by
  rw [stackNodes_cons]
  exact Nat.lt_succ_self _

def ResourceValidator.text (validator : ResourceValidator) (field : String) (value : TextSpec κ) :
    Except BuildPolicyConversionError ResourceValidator := do
  let scan ← TextScan.run ⟨validator, 0, 0⟩ field [(value, 1)]
  return scan.toResourceValidator

variable {field : String} {scan : TextScan} {error : BuildPolicyConversionError}
  {total amount limit : Nat} {amounts : List Nat}

/-- A saturating counter passes its limit when the amounts are added one by one. -/
def Passes (total : Nat) (amounts : List Nat) (limit : Nat) : Prop :=
  amounts ≠ [] ∧ limit < min (total + amounts.sum) usizeMax

theorem passes_first (passed : saturatingAdd total amount > limit) : Passes total (amount :: amounts) limit := by
  simp only [Passes, saturatingAdd, sum_cons] at *
  exact ⟨cons_ne_nil _ _, by omega⟩

theorem passes_rest (fits : ¬ saturatingAdd total amount > limit) :
    Passes (saturatingAdd total amount) amounts limit ↔ Passes total (amount :: amounts) limit := by
  cases amounts with
  | nil =>
    simp only [Passes, saturatingAdd, sum_cons, sum_nil, ne_eq, not_true_eq_false, false_and, false_iff] at *
    omega
  | cons other amounts =>
    simp only [Passes, saturatingAdd, sum_cons, ne_eq, cons_ne_nil, not_false_eq_true, true_and]
    omega

/-- The limit that an error names is passed by texts with these nodes, this depth and literals of these lengths. -/
def TextScan.Exceeded (scan : TextScan) (nodes depth : Nat) (literals : List Nat) : BuildPolicyConversionError → Prop
  | .textNodeLimit .. => Passes scan.nodes (replicate nodes 1) scan.limits.maxTextNodes
  | .totalTextNodesLimit .. => Passes scan.totalTextNodes (replicate nodes 1) scan.limits.maxTotalTextNodes
  | .textDepthLimit .. => scan.limits.maxTextDepth < min depth usizeMax
  | .textLiteralBytesLimit .. => ∃ bytes ∈ literals, bytes > scan.limits.maxTextLiteralBytes
  | .textTotalLiteralBytesLimit .. => Passes scan.literalBytes literals scan.limits.maxTextTotalLiteralBytes
  | .totalTextLiteralBytesLimit .. => Passes scan.totalTextLiteralBytes literals scan.limits.maxTotalTextLiteralBytes
  | .stringBytesLimit .. => ∃ bytes ∈ literals, bytes > scan.limits.maxStringBytes
  | .totalStringBytesLimit .. => Passes scan.totalStringBytes literals scan.limits.maxTotalStringBytes

def stackDepth : List (TextSpec κ × Nat) → Nat
  | [] => 0
  | (value, depth) :: stack => max (depth + value.depth - 1) (stackDepth stack)

/-- The limit that an error names is passed by everything pending. -/
def TextScan.Pending (scan : TextScan) (stack : List (TextSpec κ × Nat)) : BuildPolicyConversionError → Prop :=
  scan.Exceeded (stackNodes stack) (stackDepth stack) (stack.flatMap (·.1.literals))

/-- The totals once texts with these nodes and literals of these lengths are validated, added one by one. -/
def ResourceValidator.charged (validator : ResourceValidator) (nodes : Nat) (literals : List Nat) : ResourceValidator :=
  { validator with
    totalStringBytes := literals.foldl saturatingAdd validator.totalStringBytes
    totalTextNodes := (replicate nodes 1).foldl saturatingAdd validator.totalTextNodes
    totalTextLiteralBytes := literals.foldl saturatingAdd validator.totalTextLiteralBytes }

def TextScan.chargedWith (scan : TextScan) (stack : List (TextSpec κ × Nat)) : ResourceValidator :=
  scan.charged (stackNodes stack) (stack.flatMap (·.1.literals))

theorem length_le_stackNodes : stack.length ≤ stackNodes stack := by
  induction stack with
  | nil => exact Nat.zero_le _
  | cons entry stack ih =>
    have := entry.1.nodes_eq
    simp only [stackNodes, map_cons, sum_cons, length_cons] at ih ⊢
    omega

/-- The projected nodes are a lower bound. -/
theorem passes_projected {parts : List (TextSpec κ)}
    (many : saturatingAdd (saturatingAdd (saturatingAdd total 1) stack.length) parts.length > limit) :
    Passes total (replicate (stackNodes ((.concat parts, depth) :: stack)) 1) limit := by
  have fewer := @length_le_stackNodes _ (pushed (.concat parts) depth stack)
  rw [stackNodes_cons]
  generalize stackNodes _ = nodes at *
  simp only [saturatingAdd, Passes, sum_replicate_nat, pushed, TextSpec.parts, length_append, length_map] at *
  generalize usizeMax = top at *
  exact ⟨by simp, by omega⟩

theorem stackDepth_pushed (shallow : ¬ depth > limit) :
    limit < min (stackDepth (pushed value depth stack)) usizeMax ↔
      limit < min (stackDepth ((value, depth) :: stack)) usizeMax := by
  rw [pushed, stackDepth, value.depth_eq]
  induction value.parts with
  | nil =>
    simp only [map_nil, nil_append, foldr_nil]
    omega
  | cons part parts ih =>
    have := part.depth_eq
    simp only [map_cons, cons_append, stackDepth, foldr_cons, saturatingAdd] at ih ⊢
    generalize usizeMax = top at *
    omega

/-- A node that fits is counted, and what is below it is pending. -/
theorem exceeded_node {literals : List Nat} (fits : ¬ saturatingAdd scan.nodes 1 > scan.limits.maxTextNodes)
    (fitsTotal : ¬ saturatingAdd scan.totalTextNodes 1 > scan.limits.maxTotalTextNodes)
    (shallow : ¬ depth > scan.limits.maxTextDepth) :
    { scan with nodes := saturatingAdd scan.nodes 1, totalTextNodes := saturatingAdd scan.totalTextNodes 1 }.Exceeded
        (stackNodes (pushed value depth stack)) (stackDepth (pushed value depth stack)) literals error ↔
      scan.Exceeded (stackNodes ((value, depth) :: stack)) (stackDepth ((value, depth) :: stack)) literals error := by
  rw [stackNodes_cons]
  cases error with
  | textNodeLimit _ _ _ => exact passes_rest fits
  | totalTextNodesLimit _ _ => exact passes_rest fitsTotal
  | textDepthLimit _ _ _ => exact stackDepth_pushed shallow
  | _ => exact Iff.rfl

theorem visit_judged (small : depth ≤ usizeMax) : Judged (scan.Pending ((value, depth) :: stack))
    (fun next =>
      (∀ error, next.Pending (pushed value depth stack) error ↔ scan.Pending ((value, depth) :: stack) error) ∧
        next.chargedWith (pushed value depth stack) = scan.chargedWith ((value, depth) :: stack))
    (scan.visit field stack.length value depth) := by
  have deeper := value.depth_eq
  have first {total limit : Nat} (passed : saturatingAdd total 1 > limit) :
      Passes total (replicate (stackNodes ((value, depth) :: stack)) 1) limit := by
    rw [stackNodes_cons]
    exact passes_first passed
  unfold TextScan.Pending TextScan.chargedWith
  refine .refuse first fun fits => .refuse first fun fitsTotal => .refuse (fun deep => ?_) fun shallow => ?_
  · simp only [TextScan.Exceeded, stackDepth]
    omega
  simp only [← exceeded_node fits fitsTotal shallow]
  cases value with
  | literal content =>
    rw [stackNodes_cons]
    simp only [ResourceValidator.string, bind_assoc, pure_bind, pushed, TextSpec.parts, TextSpec.literals, map_nil,
      nil_append, flatMap_cons, singleton_append]
    refine .refuse (fun long => ⟨_, mem_cons_self, long⟩) fun short => .refuse passes_first fun bytes =>
      .refuse passes_first fun totalBytes => .refuse (fun long => ⟨_, mem_cons_self, long⟩) fun shortString =>
      .refuse passes_first fun stringBytes => ⟨fun error => ?_, rfl⟩
    cases error with
    | textLiteralBytesLimit _ _ _ => simp [TextScan.Exceeded, short]
    | stringBytesLimit _ _ _ => simp [TextScan.Exceeded, shortString]
    | textTotalLiteralBytesLimit _ _ _ => exact passes_rest bytes
    | totalTextLiteralBytesLimit _ _ => exact passes_rest totalBytes
    | totalStringBytesLimit _ _ => exact passes_rest stringBytes
    | _ => exact Iff.rfl
  | context _ =>
    rw [stackNodes_cons]
    simp only [pushed, TextSpec.parts, TextSpec.literals, map_nil, nil_append, flatMap_cons]
    exact ⟨fun error => Iff.rfl, rfl⟩
  | concat parts =>
    refine .refuse passes_projected fun _ => .refuse passes_projected fun _ => ?_
    rw [stackNodes_cons]
    simp only [pushed, TextSpec.parts, TextSpec.literals, flatMap_cons, flatMap_append, flatMap_map]
    exact ⟨fun error => Iff.rfl, rfl⟩

theorem run_judged (small : ∀ entry ∈ stack, entry.2 ≤ usizeMax) :
    Judged (scan.Pending stack)
      (fun last => (∀ error, ¬ scan.Pending stack error) ∧ last.toResourceValidator = scan.chargedWith stack)
      (scan.run field stack) := by
  fun_induction TextScan.run scan field stack with
  | case1 scan =>
    refine ⟨fun error exceeded => ?_, rfl⟩
    cases error <;> simp [TextScan.Pending, TextScan.Exceeded, stackNodes, stackDepth, Passes] at exceeded
  | case2 scan value depth stack ih =>
    obtain ⟨smallFirst, smallRest⟩ := forall_mem_cons.mp small
    refine (visit_judged smallFirst).bind fun next ⟨same, charged⟩ => ?_
    have later := ih next (forall_mem_append.mpr ⟨forall_mem_map.mpr fun _ _ => Nat.min_le_right _ _, smallRest⟩)
    rwa [funext fun error => propext (same error), charged] at later

/-- A text is accepted exactly when it passes no limit, and is then added to the totals; an error names a limit
that it passes. -/
theorem text_accepts_iff (validator : ResourceValidator) (field : String) (value : TextSpec κ) :
    let exceeded := TextScan.Exceeded ⟨validator, 0, 0⟩ value.nodes value.depth value.literals
    ((∃ after, validator.text field value = .ok after) ↔ ∀ error, ¬ exceeded error) ∧
      (∀ after, validator.text field value = .ok after → after = validator.charged value.nodes value.literals) ∧
      ∀ error, validator.text field value = .error error → exceeded error := by
  intro exceeded
  have pending : TextScan.Pending ⟨validator, 0, 0⟩ [(value, 1)] = exceeded := by
    simp [exceeded, TextScan.Pending, stackNodes, stackDepth]
  have judged : Judged exceeded
      (fun after => (∀ error, ¬ exceeded error) ∧ after = validator.charged value.nodes value.literals)
      (validator.text field value) := by
    rw [← pending]
    refine (run_judged (by simp [usizeMax])).bind fun _ ⟨fits, charged⟩ => ⟨fits, charged.trans ?_⟩
    simp [TextScan.chargedWith, stackNodes]
  cases result : validator.text field value with
  | ok after =>
    rw [result] at judged
    refine ⟨iff_of_true ⟨after, rfl⟩ judged.1, ?_, nofun⟩
    rintro _ ⟨⟩
    exact judged.2
  | error error =>
    rw [result] at judged
    refine ⟨iff_of_false nofun fun fits => fits error judged, nofun, ?_⟩
    rintro _ ⟨⟩
    exact judged

/-- The literals are charged to the limit of all strings too. -/
theorem text_charged_as_string :
    let validator : ResourceValidator := ⟨⟨1, 0, 1, 1, 1, 1, 1, 1⟩, 0, 0, 0⟩
    let value : TextSpec Unit := .literal "a"
    value.nodes = 1 ∧ value.depth = 1 ∧ value.literals = [1] ∧
      validator.text "environment" value = .error (.totalStringBytesLimit 1 0) := by
  refine ⟨by simp [TextSpec.nodes], by simp [TextSpec.depth], ?_, ?_⟩
  · rw [TextSpec.literals]
    rfl
  · rw [ResourceValidator.text, TextScan.run]
    rfl

end Cast.BuildPolicy
