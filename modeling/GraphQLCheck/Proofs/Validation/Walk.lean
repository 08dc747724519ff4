/-
  GraphQLCheck.Proofs.Validation.Walk
  ───────────────────────────────────
  The places of a document in the walk over it.

  Two nodes of a document may look the same, so a node is told by its place: the positions among siblings
  that lead down to it.  The walk comes to every place exactly twice, first to enter what stands there and
  then to leave it, and to no other places.

  Main results:
    * `Node.map_placedWalk`    — the walk with its places is the walk
    * `Node.filter_placedWalk` — what stands at a place is entered once, and then left once
    * `Node.at_of_mem_placedWalk` — every step of the walk is at a place
-/
import GraphQLCheck.Proofs.Validation.Typing

namespace GraphQLCheck

/-- Of items that are numbered from `start`, only the one with a given number counts if all others yield
nothing. -/
theorem flatMap_zipIdx_of_ne {l : List α} {g : α × Nat → List β} (start position : Nat)
    (h : ∀ a number, number ≠ start + position → g (a, number) = []) :
    (l.zipIdx start).flatMap g = ((l[position]?).map fun a => g (a, start + position)).getD [] := by
  induction l generalizing start position with
  | nil => rfl
  | cons a l ih =>
    rw [List.zipIdx_cons, List.flatMap_cons]
    cases position with
    | zero =>
      have hrest : (l.zipIdx (start + 1)).flatMap g = [] := by
        rw [List.flatMap_eq_nil_iff]
        rintro ⟨b, number⟩ hmem
        have hle := List.le_snd_of_mem_zipIdx hmem
        exact h b number (by simp only [] at hle; omega)
      rw [hrest, List.append_nil]
      rfl
    | succ position =>
      have hstart : start + (position + 1) = start + 1 + position := by omega
      rw [hstart] at h ⊢
      rw [h a start (by omega), List.nil_append, ih (start + 1) position h]
      rfl

namespace Node

/-! ## §1. Places. -/

/-- What stands at a place beneath a node: the node itself, or what stands beneath one of its children. -/
inductive At : Node → List Nat → Node → Prop where
  | here (node : Node) : At node [] node
  | beneath {node child inner : Node} {position : Nat} {place : List Nat} :
      node.children[position]? = some child → At child place inner → At node (position :: place) inner

/-- The same step, seen from the node around. -/
def fromParent (position : Nat) (step : List Nat × Event) : List Nat × Event :=
  (position :: step.1, step.2)

/-- The walk from a node, each step with its place beneath that node. -/
def placedWalk (node : Node) : List (List Nat × Event) :=
  ([], .enter node) ::
    node.children.zipIdx.attach.flatMap
      (fun ⟨numbered, _⟩ => (placedWalk numbered.1).map (fromParent numbered.2)) ++
      [([], .leave node)]
termination_by sizeOf node
decreasing_by exact sizeOf_child_lt (List.fst_mem_of_mem_zipIdx ‹_›)

theorem placedWalk_eq (node : Node) :
    node.placedWalk =
      ([], .enter node) ::
        node.children.zipIdx.flatMap
          (fun numbered => numbered.1.placedWalk.map (fromParent numbered.2)) ++
          [([], .leave node)] := by
  rw [placedWalk]
  rw [List.flatMap_subtype (g := fun numbered => (placedWalk numbered.1).map (fromParent numbered.2))
    (fun _ _ => rfl), List.unattach_attach]

/-! ## §2. The steps at a place. -/

/-- The walk with its places is the walk. -/
theorem map_placedWalk (node : Node) : node.placedWalk.map (·.2) = node.events := by
  induction node using childInduction with
  | step node ih =>
    have hchildren : (node.children.zipIdx.flatMap fun numbered =>
          numbered.1.placedWalk.map (fromParent numbered.2)).map (·.2) =
        node.children.flatMap (·.events) := by
      calc (node.children.zipIdx.flatMap fun numbered =>
              numbered.1.placedWalk.map (fromParent numbered.2)).map (·.2)
          = node.children.zipIdx.flatMap fun numbered => numbered.1.placedWalk.map (·.2) := by
            rw [List.map_flatMap]
            simp only [List.map_map]
            rfl
        _ = node.children.zipIdx.flatMap fun numbered => numbered.1.events := by
            rw [List.flatMap_def, List.flatMap_def, List.map_congr_left fun numbered hmem =>
              ih numbered.1 (List.fst_mem_of_mem_zipIdx hmem)]
        _ = (node.children.zipIdx.map Prod.fst).flatMap (·.events) := by rw [List.flatMap_map]
        _ = node.children.flatMap (·.events) := by rw [List.zipIdx_map_fst]
    rw [placedWalk_eq, events_eq, List.cons_append, List.map_cons, List.map_append, hchildren]
    rfl

theorem filter_map_fromParent (position : Nat) (place : List Nat) (walk : List (List Nat × Event)) :
    ((walk.map (fromParent position)).filter fun step => step.1 = position :: place) =
      (walk.filter fun step => step.1 = place).map (fromParent position) := by
  rw [List.filter_map]
  congr 2
  funext step
  simp [fromParent]

/-- The steps of a child have places beneath that child. -/
theorem filter_map_fromParent_of_ne {position : Nat} {place : List Nat}
    (h : ∀ inner, place ≠ position :: inner) (walk : List (List Nat × Event)) :
    ((walk.map (fromParent position)).filter fun step => step.1 = place) = [] := by
  rw [List.filter_eq_nil_iff]
  intro step hstep
  obtain ⟨inner, _, rfl⟩ := List.mem_map.1 hstep
  simpa using fun heq => h inner.1 heq.symm

/-- **What stands at a place is entered once, and then left once.** -/
theorem filter_placedWalk {root node : Node} {place : List Nat} (h : root.At place node) :
    (root.placedWalk.filter fun step => step.1 = place) =
      [(place, .enter node), (place, .leave node)] := by
  induction h with
  | here node =>
    have hchildren : (node.children.zipIdx.flatMap fun numbered =>
        (numbered.1.placedWalk.map (fromParent numbered.2)).filter fun step => step.1 = []) = [] := by
      rw [List.flatMap_eq_nil_iff]
      exact fun numbered _ => filter_map_fromParent_of_ne (fun inner heq => by cases heq) _
    rw [placedWalk_eq, List.cons_append, List.filter_cons_of_pos (by rfl), List.filter_append,
      List.filter_flatMap, hchildren]
    rfl
  | @beneath node child inner position place hchild hplace ih =>
    have hchildren : (node.children.zipIdx.flatMap fun numbered =>
        (numbered.1.placedWalk.map (fromParent numbered.2)).filter fun step =>
          step.1 = position :: place) =
        [(position :: place, .enter inner), (position :: place, .leave inner)] := by
      rw [flatMap_zipIdx_of_ne 0 position, hchild]
      · show ((child.placedWalk.map (fromParent (0 + position))).filter fun step =>
          step.1 = position :: place) = _
        rw [Nat.zero_add, filter_map_fromParent, ih]
        rfl
      · intro other number hne
        refine filter_map_fromParent_of_ne (fun _ heq => hne ?_) _
        cases heq
        exact (Nat.zero_add _).symm
    rw [placedWalk_eq, List.cons_append, List.filter_cons_of_neg (by simp), List.filter_append,
      List.filter_flatMap, hchildren]
    rfl

/-- Every step of the walk enters or leaves what stands at its place. -/
theorem at_of_mem_placedWalk {root : Node} {step : List Nat × Event} (h : step ∈ root.placedWalk) :
    ∃ node, root.At step.1 node ∧ (step.2 = .enter node ∨ step.2 = .leave node) := by
  induction root using childInduction generalizing step with
  | step root ih =>
    rw [placedWalk_eq, List.mem_append, List.mem_cons, List.mem_singleton] at h
    rcases h with (rfl | h) | rfl
    · exact ⟨root, .here root, .inl rfl⟩
    · obtain ⟨⟨child, position⟩, hchild, hstep⟩ := List.mem_flatMap.1 h
      obtain ⟨inner, hinner, rfl⟩ := List.mem_map.1 hstep
      obtain ⟨node, hat, hevent⟩ := ih child (List.fst_mem_of_mem_zipIdx hchild) hinner
      exact ⟨node, .beneath (List.mem_zipIdx_iff_getElem?.1 hchild) hat, hevent⟩
    · exact ⟨root, .here root, .inr rfl⟩

end Node

end GraphQLCheck
