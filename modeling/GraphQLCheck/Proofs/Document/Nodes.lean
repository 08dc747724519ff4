/-
  GraphQLCheck.Proofs.Document.Nodes
  ──────────────────────────────────
  The tree of the nodes of a document.

  Fields, inline fragments and selection sets hold each other, so what recurses on them comes as functions
  that call each other.  As nodes they are one tree: a node has children, and these are smaller.

  Main results:
    * `Node.childInduction` — induction on a node, with the hypothesis at every child
    * `Node.preorder_eq`    — the nodes of a tree are its root and the nodes beneath the children
-/
import GraphQLCheck.Validation.Node

namespace GraphQLCheck

/-! ## §1. Induction on nodes. -/

namespace Node

theorem sizeOf_child_lt {node child : Node} (h : child ∈ node.children) :
    sizeOf child < sizeOf node := by
  cases node with
  | argument a => cases h
  | fragmentSpread spread => cases h
  | variableDefinition definition => cases h
  | document d =>
    obtain ⟨definition, hmem, rfl⟩ := List.mem_map.1 h
    have hlt := List.sizeOf_lt_of_mem hmem
    cases d
    cases definition <;> simp [Definition.node] at hlt ⊢ <;> omega
  | field f =>
    obtain ⟨aliasName, name, arguments, set, location⟩ := f
    rcases List.mem_append.1 h with h | h
    · obtain ⟨a, hmem, rfl⟩ := List.mem_map.1 h
      have hlt := List.sizeOf_lt_of_mem hmem
      simp at hlt ⊢
      omega
    · cases set with
      | none => cases h
      | some set =>
        rw [List.mem_singleton.1 h]
        simp
        omega
  | fragment part =>
    rw [List.mem_singleton.1 h]
    cases part
    simp
    omega
  | inlineFragment part =>
    rw [List.mem_singleton.1 h]
    cases part
    simp
    omega
  | operation op =>
    obtain ⟨kind, name, variableDefinitions, set, location⟩ := op
    rcases List.mem_append.1 h with h | h
    · obtain ⟨v, hmem, rfl⟩ := List.mem_map.1 h
      have hlt := List.sizeOf_lt_of_mem hmem
      simp at hlt ⊢
      omega
    · rw [List.mem_singleton.1 h]
      simp
      omega
  | selectionSet set =>
    obtain ⟨selection, hmem, rfl⟩ := List.mem_map.1 h
    have hlt := List.sizeOf_lt_of_mem hmem
    cases set
    cases selection <;> simp [Selection.node] at hlt ⊢ <;> omega

/-- Induction on a node, with the hypothesis at every child. -/
@[elab_as_elim]
theorem childInduction {motive : Node → Prop}
    (step : ∀ node, (∀ child ∈ node.children, motive child) → motive node) (node : Node) :
    motive node :=
  step node fun child _ => childInduction step child
termination_by sizeOf node
decreasing_by exact sizeOf_child_lt ‹_›

end Node

/-! ## §2. The nodes of a tree. -/

namespace Node

/-- The nodes of a tree are its root and the nodes beneath the children. -/
theorem preorder_eq (node : Node) : node.preorder = node :: node.children.flatMap (·.preorder) := by
  unfold preorder
  rw [events_eq, around, List.filterMap_append, List.filterMap_cons, List.filterMap_flatMap]
  exact List.append_nil _

end Node

end GraphQLCheck
