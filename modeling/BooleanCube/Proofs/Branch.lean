import BooleanCube.Proofs.PathTree

/-!
# The nodes of an expansion tree

A node is told by its branch: the literals followed from the root down to it. Whatever path and
variables a tree is grown from, each of its nodes is a grown tree again. Its path goes on with the
branch, and its variables are those that the branch has left over.
-/

namespace BooleanCube

namespace ExpansionTree

/-- The literals of the branch, followed down from the root of the tree, lead to the node. -/
inductive NodeAt : ExpansionTree → Term → ExpansionTree → Prop where
  | root {tree : ExpansionTree} : NodeAt tree [] tree
  | high {path branch : Term} {pivot : Variable} {high low node : ExpansionTree}
      (below : NodeAt high branch node) :
      NodeAt (split path pivot high low) (.plain pivot :: branch) node
  | low {path branch : Term} {pivot : Variable} {high low node : ExpansionTree}
      (below : NodeAt low branch node) :
      NodeAt (split path pivot high low) (.negative pivot :: branch) node

def Varies (vector : TruthVector) (path : Term) : Prop :=
  ∃ row other : Row, OnPath path row ∧ OnPath path other ∧ vector.get row ≠ vector.get other

variable {vector : TruthVector} {remaining : List Variable} {path : Term}

theorem varies_of_values
    (several : ¬((valuesOn vector path).all fun value =>
      value == (valuesOn vector path).headD false) = true) : Varies vector path := by
  obtain ⟨value, member, differs⟩ := List.all_eq_false.mp (Bool.eq_false_iff.mpr several)
  obtain ⟨row, onPath, rfl⟩ := mem_values_on.mp member
  have nonempty : valuesOn vector path ≠ [] := List.ne_nil_of_mem member
  have first : (valuesOn vector path).headD false ∈ valuesOn vector path := by
    rw [List.headD_eq_head?_getD, List.head?_eq_some_head nonempty]
    exact List.head_mem nonempty
  obtain ⟨other, otherOnPath, same⟩ := mem_values_on.mp first
  refine ⟨row, other, onPath, otherOnPath, ?_⟩
  rw [same]
  exact fun equal => differs (beq_iff_eq.mpr equal)

theorem path_grow (vector : TruthVector) (remaining : List Variable) (path : Term) :
    (grow vector remaining path).path = path := by
  cases remaining with
  | nil => rfl
  | cons pivot remaining =>
      rw [grow]
      split
      · rfl
      · rfl

/-- Only a function with two values is expanded, by the first of the variables left, and both
children are grown from the others. -/
theorem grow_eq_split {nodePath : Term} {pivot : Variable} {high low : ExpansionTree}
    (grown : grow vector remaining path = split nodePath pivot high low) :
    nodePath = path ∧ Varies vector path ∧ ∃ rest, remaining = pivot :: rest ∧
      high = grow vector rest (path ++ [.plain pivot]) ∧
      low = grow vector rest (path ++ [.negative pivot]) := by
  cases remaining with
  | nil => cases grown
  | cons first rest =>
      rw [grow] at grown
      split at grown
      · cases grown
      · next several =>
          cases grown
          exact ⟨rfl, varies_of_values several, rest, rfl, rfl, rfl⟩

theorem NodeAt.grown {tree node : ExpansionTree} {branch : Term} (reached : tree.NodeAt branch node)
    (isGrown : tree = grow vector remaining path) :
    ∃ rest, remaining = branch.map Literal.var ++ rest ∧
      node = grow vector rest (path ++ branch) := by
  induction reached generalizing remaining path with
  | root => exact ⟨remaining, rfl, by rw [isGrown, List.append_nil]⟩
  | high below ih =>
      obtain ⟨-, -, rest, rfl, isHigh, -⟩ := grow_eq_split isGrown.symm
      obtain ⟨left, rfl, isNode⟩ := ih isHigh
      exact ⟨left, rfl, by rw [isNode, List.append_assoc, List.singleton_append]⟩
  | low below ih =>
      obtain ⟨-, -, rest, rfl, -, isLow⟩ := grow_eq_split isGrown.symm
      obtain ⟨left, rfl, isNode⟩ := ih isLow
      exact ⟨left, rfl, by rw [isNode, List.append_assoc, List.singleton_append]⟩

/-- Wherever a tree is grown from, it has the values of the function in the rows of its path, if
every variable is on the path or still to come. Every node knows the way to it, the variables are
asked for in the given order, and no constant is expanded. -/
theorem grow_from_anywhere (vector : TruthVector) (remaining : List Variable) (path : Term) :
    let tree := grow vector remaining path
    (Exhaustive remaining path → ∀ row, OnPath path row → tree.eval row = vector.get row) ∧
      ∀ branch node, tree.NodeAt branch node →
        node.path = path ++ branch ∧ branch.map Literal.var <+: remaining ∧
          ∀ nodePath pivot high low, node = split nodePath pivot high low →
            ∃ row other : Row, OnPath nodePath row ∧ OnPath nodePath other ∧
              vector.get row ≠ vector.get other := by
  intro tree
  constructor
  · intro exhaustive row onPath
    exact eval_grow vector remaining exhaustive onPath
  · intro branch node reached
    obtain ⟨rest, isAsked, isNode⟩ := reached.grown rfl
    refine ⟨?_, ⟨rest, isAsked.symm⟩, ?_⟩
    · rw [isNode, path_grow]
    · intro nodePath pivot high low isSplit
      obtain ⟨rfl, varies, -⟩ := grow_eq_split (isNode.symm.trans isSplit)
      exact varies

/-- A variable that is asked for twice leads to a node without rows. -/
theorem grow_from_anywhere_repeated :
    let vector := TruthVector.ofBits 0b01000000
    let tree := grow vector [.y, .y, .z] [.plain .x]
    let branch : Term := [.plain .y, .negative .y]
    let node := leaf [.plain .x, .plain .y, .negative .y] false
    Exhaustive [.y, .y, .z] [.plain .x] ∧
      (∀ row, OnPath [.plain .x] row → tree.eval row = vector.get row) ∧
      tree.NodeAt branch node ∧ node.path = [.plain .x] ++ branch ∧
      branch.map Literal.var <+: [.y, .y, .z] := by
  intro vector tree branch node
  have exhaustive : Exhaustive [.y, .y, .z] [.plain .x] := by
    intro var
    cases var with
    | x => exact .inr ⟨.plain .x, List.mem_singleton_self _, rfl⟩
    | y => exact .inl (by decide)
    | z => exact .inl (by decide)
  have shape : tree = split [.plain .x] .y
      (split [.plain .x, .plain .y] .y (grow vector [.z] [.plain .x, .plain .y, .plain .y]) node)
      (grow vector [.y, .z] [.plain .x, .negative .y]) := by decide
  have reached : tree.NodeAt branch node := by
    rw [shape]
    exact .high (.low .root)
  obtain ⟨values, nodes⟩ := grow_from_anywhere vector [.y, .y, .z] [.plain .x]
  obtain ⟨isPath, asked, -⟩ := nodes branch node reached
  exact ⟨exhaustive, values exhaustive, reached, isPath, asked⟩

end ExpansionTree

end BooleanCube
