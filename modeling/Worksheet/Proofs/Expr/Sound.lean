/-
**Which expressions have a value.**

The value of an expression can be computed from the leaves to the root without looking whether a
number is finite. Evaluating does the same and refuses on the way: a name that stands for nothing, a
function that is not on the list or gets a wrong number of arguments, and whatever is not finite. An
expression has a value exactly if nothing is refused at any of its nodes, and then it is the value
computed.

* `Expr.nodes` are the nodes of a tree, and `Expr.IsSound` is what is asked of one;
* `Expr.value?` is the value computed without checks;
* `eval_eq_ok_iff`: evaluating gives the value computed, exactly if all nodes are sound;
* `hasFiniteValue_of_sound` and `nodes_subset`: every node of a sound tree has a finite value;
* `name_mem_nodes` and `exists_call_mem_nodes`: the names in a tree stand at its nodes.
-/

import Worksheet.Proofs.Expr.Finite
import Worksheet.Proofs.Formula.Filling

namespace Worksheet

namespace Function

/-- The list has one function for each name on it. -/
theorem ofName?_eq_some_iff (callee : Text) (function : Function) :
    ofName? callee = some function ↔ function.name = callee := by
  constructor
  · intro listed
    have found := List.find?_some (p := fun function => name function == callee) listed
    exact eq_of_beq found
  · rintro rfl
    cases function <;> rfl

theorem arity_eq (function : Function) :
    function.arity = if function.name = "pow".toList then 2 else 1 := by
  cases function <;> decide

/-- A function has a value at as many arguments as it takes, and at no other number of them. -/
theorem exists_valueAt?_iff (function : Function) (inputs : List Float) :
    (∃ value, function.valueAt? inputs = some value) ↔ inputs.length = function.arity := by
  rcases inputs with _ | ⟨x, _ | ⟨y, _ | ⟨z, others⟩⟩⟩ <;> cases function <;>
    simp [valueAt?, unary?, arity]

end Function

namespace Expr

/-! ### Nodes and values -/

mutual

/-- The nodes of a tree, the root first. -/
def nodes : Expr → List Expr
  | tree@(number _) | tree@(name _) => [tree]
  | tree@(negate operand) => tree :: operand.nodes
  | tree@(binary _ left right) => tree :: (left.nodes ++ right.nodes)
  | tree@(call _ arguments) => tree :: nodesOf arguments

/-- The nodes of some trees. -/
def nodesOf : List Expr → List Expr
  | [] => []
  | first :: others => first.nodes ++ nodesOf others

end

mutual

/-- The value computed from the values of the operands, finite or not. -/
def value? : Expr → Option Float
  | number x => some x
  | name _ => none
  | negate operand => operand.value?.map fun x => -x
  | binary op left right => left.value?.bind fun x => right.value?.map fun y => op.apply x y
  | call callee arguments =>
    (Function.ofName? callee).bind fun function => (values? arguments).bind function.valueAt?

/-- The values of arguments. -/
def values? : List Expr → Option (List Float)
  | [] => some []
  | first :: others => first.value?.bind fun x => (values? others).map (x :: ·)

end

/-- A value can be computed, and it is finite. -/
def HasFiniteValue (tree : Expr) : Prop :=
  ∃ x, tree.value? = some x ∧ x.isFinite = true

/-- Nothing is refused at a node: it is no name, a literal is finite, a call names a function on the
list with as many arguments as it takes, and an operation or a call has a finite value. -/
def IsSound : Expr → Prop
  | number x => x.isFinite = true
  | name _ => False
  | negate _ => True
  | tree@(binary _ _ _) => tree.HasFiniteValue
  | tree@(call callee arguments) =>
    callee ∈ Function.all.map Function.name ∧
      arguments.length = (if callee = "pow".toList then 2 else 1) ∧ tree.HasFiniteValue

/-! ### One node -/

theorem HasFiniteValue.isFinite {tree : Expr} {value : Float} (finite : tree.HasFiniteValue)
    (computed : tree.value? = some value) : value.isFinite = true := by
  obtain ⟨x, isValue, isFinite⟩ := finite
  rw [computed] at isValue
  cases isValue
  exact isFinite

theorem length_of_values? {arguments : List Expr} {inputs : List Float}
    (computed : values? arguments = some inputs) : inputs.length = arguments.length := by
  induction arguments generalizing inputs with
  | nil =>
    cases computed
    rfl
  | cons first others ih =>
    obtain ⟨x, -, rest⟩ := Option.bind_eq_some_iff.mp computed
    obtain ⟨later, isRest, rfl⟩ := Option.map_eq_some_iff.mp rest
    rw [List.length_cons, List.length_cons, ih isRest]

theorem value?_binary_eq_some_iff (op : Operator) (left right : Expr) (value : Float) :
    (binary op left right).value? = some value ↔
      ∃ x, left.value? = some x ∧ ∃ y, right.value? = some y ∧ op.apply x y = value := by
  rw [value?, Option.bind_eq_some_iff]
  simp only [Option.map_eq_some_iff]

theorem value?_call_eq_some_iff (callee : Text) (arguments : List Expr) (value : Float) :
    (call callee arguments).value? = some value ↔
      ∃ function, Function.ofName? callee = some function ∧
        ∃ inputs, values? arguments = some inputs ∧ function.valueAt? inputs = some value := by
  rw [value?, Option.bind_eq_some_iff]
  simp only [Option.bind_eq_some_iff]

/-- Only a function on the list has a value, and only at as many arguments as it takes. -/
theorem isSound_call_iff (callee : Text) (arguments : List Expr) :
    (call callee arguments).IsSound ↔ (call callee arguments).HasFiniteValue := by
  refine ⟨fun sound => sound.2.2, fun ⟨value, computed, finite⟩ => ?_⟩
  obtain ⟨function, listed, inputs, areInputs, isValue⟩ :=
    (value?_call_eq_some_iff _ _ _).mp computed
  have isName := (Function.ofName?_eq_some_iff _ _).mp listed
  have count := (function.exists_valueAt?_iff inputs).mp ⟨value, isValue⟩
  refine ⟨?_, ?_, value, computed, finite⟩
  · rw [← isName]
    exact List.mem_map_of_mem (List.mem_of_find?_eq_some listed)
  · rw [← length_of_values? areInputs, count, function.arity_eq, isName]

/-! ### Evaluating a tree -/

mutual

/-- **Evaluating gives the value computed**, exactly if nothing is refused at any node. -/
theorem eval_eq_ok_iff : ∀ (tree : Expr) (value : Float),
    tree.eval = .ok value ↔ (∀ node ∈ tree.nodes, node.IsSound) ∧ tree.value? = some value
  | number x, value => by
    rw [eval, requireFinite_eq_ok_iff, nodes, List.forall_mem_singleton, value?, Option.some.injEq,
      IsSound]
    constructor
    · rintro ⟨rfl, finite⟩
      exact ⟨finite, rfl⟩
    · rintro ⟨finite, rfl⟩
      exact ⟨rfl, finite⟩
  | name word, value => by
    rw [eval, nodes, List.forall_mem_singleton, IsSound]
    exact iff_of_false nofun fun ⟨refused, _⟩ => refused
  | negate operand, value => by
    rw [eval_negate_eq_ok_iff, nodes, List.forall_mem_cons, value?, Option.map_eq_some_iff]
    simp only [operand.eval_eq_ok_iff, IsSound, true_and, and_assoc, exists_and_left]
  | binary op left right, value => by
    rw [eval_binary_eq_ok_iff, nodes, List.forall_mem_cons, List.forall_mem_append, IsSound]
    simp only [left.eval_eq_ok_iff, right.eval_eq_ok_iff]
    constructor
    · rintro ⟨⟨x, ⟨soundLeft, isLeft⟩, y, ⟨soundRight, isRight⟩, isValue⟩, finite⟩
      have computed : (binary op left right).value? = some value :=
        (value?_binary_eq_some_iff _ _ _ _).mpr ⟨x, isLeft, y, isRight, isValue⟩
      exact ⟨⟨⟨value, computed, finite⟩, soundLeft, soundRight⟩, computed⟩
    · rintro ⟨⟨finite, soundLeft, soundRight⟩, computed⟩
      obtain ⟨x, isLeft, y, isRight, isValue⟩ := (value?_binary_eq_some_iff _ _ _ _).mp computed
      exact ⟨⟨x, ⟨soundLeft, isLeft⟩, y, ⟨soundRight, isRight⟩, isValue⟩, finite.isFinite computed⟩
  | call callee arguments, value => by
    rw [eval_call_eq_ok_iff, nodes, List.forall_mem_cons, isSound_call_iff]
    simp only [evalAll_eq_ok_iff, Function.call_eq_ok_iff]
    constructor
    · rintro ⟨function, listed, inputs, ⟨sound, areInputs⟩, isValue, finite⟩
      have computed : (call callee arguments).value? = some value :=
        (value?_call_eq_some_iff _ _ _).mpr ⟨function, listed, inputs, areInputs, isValue⟩
      exact ⟨⟨⟨value, computed, finite⟩, sound⟩, computed⟩
    · rintro ⟨⟨finite, sound⟩, computed⟩
      obtain ⟨function, listed, inputs, areInputs, isValue⟩ :=
        (value?_call_eq_some_iff _ _ _).mp computed
      exact ⟨function, listed, inputs, ⟨sound, areInputs⟩, isValue, finite.isFinite computed⟩

/-- Arguments have the values computed, exactly if nothing is refused at any node of them. -/
theorem evalAll_eq_ok_iff : ∀ (trees : List Expr) (values : List Float),
    evalAll trees = .ok values ↔
      (∀ node ∈ nodesOf trees, node.IsSound) ∧ values? trees = some values
  | [], values => by
    rw [evalAll, nodesOf, values?, Except.ok.injEq, Option.some.injEq]
    exact ⟨fun same => ⟨nofun, same⟩, And.right⟩
  | first :: others, values => by
    rw [evalAll_cons_eq_ok_iff, nodesOf, List.forall_mem_append, values?, Option.bind_eq_some_iff]
    simp only [first.eval_eq_ok_iff, evalAll_eq_ok_iff others, Option.map_eq_some_iff]
    constructor
    · rintro ⟨x, ⟨soundFirst, isFirst⟩, later, ⟨soundOthers, areOthers⟩, same⟩
      exact ⟨⟨soundFirst, soundOthers⟩, x, isFirst, later, areOthers, same⟩
    · rintro ⟨⟨soundFirst, soundOthers⟩, x, isFirst, later, areOthers, same⟩
      exact ⟨x, ⟨soundFirst, isFirst⟩, later, ⟨soundOthers, areOthers⟩, same⟩

end

/-! ### The nodes of a sound tree -/

/-- A sound tree has a finite value: a sign makes no finite number infinite. -/
theorem hasFiniteValue_of_sound : ∀ {tree : Expr}, (∀ node ∈ tree.nodes, node.IsSound) →
    tree.HasFiniteValue
  | number x, sound => ⟨x, rfl, sound _ List.mem_cons_self⟩
  | name _, sound => (sound _ List.mem_cons_self).elim
  | negate operand, sound => by
    obtain ⟨x, computed, finite⟩ := hasFiniteValue_of_sound (List.forall_mem_cons.mp sound).2
    exact ⟨-x, congrArg (Option.map _) computed, Binary.isFinite_neg finite⟩
  | binary _ _ _, sound => sound _ List.mem_cons_self
  | call _ _, sound => (sound _ List.mem_cons_self).2.2

mutual

/-- The nodes below a node of a tree are nodes of the tree. -/
theorem nodes_subset : ∀ {tree node : Expr}, node ∈ tree.nodes → node.nodes ⊆ tree.nodes
  | number _, _, isNode => by
    rw [List.mem_singleton.mp isNode]
    exact List.Subset.refl _
  | name _, _, isNode => by
    rw [List.mem_singleton.mp isNode]
    exact List.Subset.refl _
  | negate operand, _, isNode => by
    rcases List.mem_cons.mp isNode with rfl | below
    · exact List.Subset.refl _
    · exact List.subset_cons_of_subset _ (nodes_subset below)
  | binary _ left right, _, isNode => by
    rcases List.mem_cons.mp isNode with rfl | below
    · exact List.Subset.refl _
    · refine List.subset_cons_of_subset _ ?_
      rcases List.mem_append.mp below with inLeft | inRight
      · exact List.subset_append_of_subset_left _ (nodes_subset inLeft)
      · exact List.subset_append_of_subset_right _ (nodes_subset inRight)
  | call _ arguments, _, isNode => by
    rcases List.mem_cons.mp isNode with rfl | below
    · exact List.Subset.refl _
    · exact List.subset_cons_of_subset _ (nodes_subset_nodesOf below)

theorem nodes_subset_nodesOf : ∀ {trees : List Expr} {node : Expr}, node ∈ nodesOf trees →
    node.nodes ⊆ nodesOf trees
  | first :: others, _, isNode => by
    rcases List.mem_append.mp isNode with inFirst | inOthers
    · exact List.subset_append_of_subset_left _ (nodes_subset inFirst)
    · exact List.subset_append_of_subset_right _ (nodes_subset_nodesOf inOthers)

end

mutual

theorem name_mem_nodes : ∀ (tree : Expr) {word : Text}, word ∈ tree.names → name word ∈ tree.nodes
  | name _, _, isIn => by
    rw [List.mem_singleton.mp isIn]
    exact List.mem_cons_self
  | negate operand, _, isIn => List.mem_cons_of_mem _ (operand.name_mem_nodes isIn)
  | binary _ left right, _, isIn => by
    refine List.mem_cons_of_mem _ (List.mem_append.mpr ?_)
    exact (List.mem_append.mp isIn).imp left.name_mem_nodes right.name_mem_nodes
  | call _ arguments, _, isIn => List.mem_cons_of_mem _ (name_mem_nodesOf arguments isIn)

theorem name_mem_nodesOf : ∀ (trees : List Expr) {word : Text}, word ∈ namesOf trees →
    name word ∈ nodesOf trees
  | first :: others, _, isIn => by
    refine List.mem_append.mpr ?_
    exact (List.mem_append.mp isIn).imp first.name_mem_nodes (name_mem_nodesOf others)

end

mutual

/-- What a tree calls is called at one of its nodes. -/
theorem exists_call_mem_nodes : ∀ (tree : Expr) {callee : Text}, callee ∈ tree.callees →
    ∃ arguments, call callee arguments ∈ tree.nodes
  | negate operand, _, isIn => by
    obtain ⟨arguments, isNode⟩ := operand.exists_call_mem_nodes isIn
    exact ⟨arguments, List.mem_cons_of_mem _ isNode⟩
  | binary _ left right, _, isIn => by
    rcases List.mem_append.mp isIn with inLeft | inRight
    · obtain ⟨arguments, isNode⟩ := left.exists_call_mem_nodes inLeft
      exact ⟨arguments, List.mem_cons_of_mem _ (List.mem_append_left _ isNode)⟩
    · obtain ⟨arguments, isNode⟩ := right.exists_call_mem_nodes inRight
      exact ⟨arguments, List.mem_cons_of_mem _ (List.mem_append_right _ isNode)⟩
  | call function arguments, _, isIn => by
    rcases List.mem_cons.mp isIn with rfl | below
    · exact ⟨arguments, List.mem_cons_self⟩
    · obtain ⟨inner, isNode⟩ := exists_call_mem_nodesOf arguments below
      exact ⟨inner, List.mem_cons_of_mem _ isNode⟩

theorem exists_call_mem_nodesOf : ∀ (trees : List Expr) {callee : Text}, callee ∈ calleesOf trees →
    ∃ arguments, call callee arguments ∈ nodesOf trees
  | first :: others, _, isIn => by
    rcases List.mem_append.mp isIn with inFirst | inOthers
    · obtain ⟨arguments, isNode⟩ := first.exists_call_mem_nodes inFirst
      exact ⟨arguments, List.mem_append_left _ isNode⟩
    · obtain ⟨arguments, isNode⟩ := exists_call_mem_nodesOf others inOthers
      exact ⟨arguments, List.mem_append_right _ isNode⟩

end

end Expr

end Worksheet
