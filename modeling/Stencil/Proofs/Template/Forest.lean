import Stencil.Template.Node

/-!
# Forests

Operations on lists of nodes that the laws of templates speak about: moving a forest to another
place of a source, joining the forests of two sources, and how deep the blocks of a forest enclose
each other.
-/

namespace Stencil

/-! ## Moving -/

def Span.shift (n : Nat) (span : Span) : Span := ⟨span.start + n, span.stop + n⟩

def Reference.shift (n : Nat) (r : Reference) : Reference := { r with span := r.span.shift n }

mutual

/-- The node as it is read `n` bytes further on. -/
def Node.shift (n : Nat) : Node → Node
  | .literal text span => .literal text (span.shift n)
  | .interpolation path span => .interpolation path (span.shift n)
  | .block kind subject body span =>
    .block kind (subject.shift n) (Node.shiftAll n body) (span.shift n)

def Node.shiftAll (n : Nat) : List Node → List Node
  | [] => []
  | node :: rest => node.shift n :: Node.shiftAll n rest

end

/-! ## Joining -/

/-- Two forests one after the other. Literals that meet become one. -/
def Node.join : List Node → List Node → List Node
  | [], after => after
  | [.literal a ⟨start, _⟩], .literal b ⟨_, stop⟩ :: after =>
    .literal (a ++ b) ⟨start, stop⟩ :: after
  | node :: before, after => node :: Node.join before after

theorem Node.join_cons_cons (node node' : Node) (before after : List Node) :
    Node.join (node :: node' :: before) after = node :: Node.join (node' :: before) after := by
  simp [Node.join]

/-! ## Nodes at every depth -/

mutual

/-- A node and the nodes inside it, in the order in which they start. -/
def Node.subnodes : Node → List Node
  | .literal text span => [.literal text span]
  | .interpolation path span => [.interpolation path span]
  | .block kind subject body span => .block kind subject body span :: Node.subnodesAll body

def Node.subnodesAll : List Node → List Node
  | [] => []
  | node :: rest => node.subnodes ++ Node.subnodesAll rest

end

/-- The kind of a block. -/
def Node.kind? : Node → Option BlockKind
  | .block kind _ _ _ => some kind
  | _ => none

/-- The path that a node interpolates or that its block is about. -/
def Node.path? : Node → Option String
  | .literal _ _ => none
  | .interpolation path _ => some path
  | .block _ subject _ _ => some subject.path

/-! ## Depth -/

mutual

def Node.height : Node → Nat
  | .literal _ _ => 0
  | .interpolation _ _ => 0
  | .block _ _ body _ => Node.heightAll body + 1

def Node.heightAll : List Node → Nat
  | [] => 0
  | node :: rest => max node.height (Node.heightAll rest)

end

mutual

/-- Where the first block starts that is nested deeper than `room` levels. -/
def Node.tooDeepAt? (room : Nat) : Node → Option Nat
  | .literal _ _ => none
  | .interpolation _ _ => none
  | .block _ _ body span =>
    match room with
    | 0 => some span.start
    | room + 1 => Node.tooDeepAtAll? room body

def Node.tooDeepAtAll? (room : Nat) : List Node → Option Nat
  | [] => none
  | node :: rest => (node.tooDeepAt? room).or (Node.tooDeepAtAll? room rest)

end

mutual

/-- The openers in the order of the source, each with the byte where it starts and the level of its
block, for a node whose own level is `level`. -/
def Node.openers (level : Nat) : Node → List (Nat × Nat)
  | .literal _ _ => []
  | .interpolation _ _ => []
  | .block _ _ body span => (span.start, level) :: Node.openersAll (level + 1) body

def Node.openersAll (level : Nat) : List Node → List (Nat × Nat)
  | [] => []
  | node :: rest => node.openers level ++ Node.openersAll level rest

end

namespace Node

mutual

theorem tooDeepAt?_eq_none_iff : ∀ (node : Node) (room : Nat),
    node.tooDeepAt? room = none ↔ node.height ≤ room
  | .literal _ _, room => by simp [tooDeepAt?, height]
  | .interpolation _ _, room => by simp [tooDeepAt?, height]
  | .block _ _ body _, 0 => by simp [tooDeepAt?, height]
  | .block _ _ body _, room + 1 => by
      rw [tooDeepAt?, height, tooDeepAtAll?_eq_none_iff body room]
      exact (Nat.add_le_add_iff_right).symm

theorem tooDeepAtAll?_eq_none_iff : ∀ (nodes : List Node) (room : Nat),
    tooDeepAtAll? room nodes = none ↔ heightAll nodes ≤ room
  | [], room => by simp [tooDeepAtAll?, heightAll]
  | node :: rest, room => by
      rw [tooDeepAtAll?, heightAll, Option.or_eq_none_iff, tooDeepAt?_eq_none_iff node room,
        tooDeepAtAll?_eq_none_iff rest room, Nat.max_le]

end

mutual

/-- A block is too deep if no level is left for it, and the blocks around it come before it. -/
theorem find?_openers (level room : Nat) : ∀ node : Node,
    (node.openers level).find? (fun opener => opener.2 = level + room) =
      (node.tooDeepAt? room).map (·, level + room)
  | .literal _ _ => rfl
  | .interpolation _ _ => rfl
  | .block _ _ body span => by
      rw [openers, List.find?_cons]
      cases room with
      | zero => simp [tooDeepAt?]
      | succ room =>
          have hbody := find?_openersAll (level + 1) room body
          have hlevel : level + (room + 1) = level + 1 + room := by omega
          have hself : ¬level = level + 1 + room := by omega
          simpa [tooDeepAt?, hlevel, hself] using hbody

theorem find?_openersAll (level room : Nat) : ∀ nodes : List Node,
    (openersAll level nodes).find? (fun opener => opener.2 = level + room) =
      (tooDeepAtAll? room nodes).map (·, level + room)
  | [] => rfl
  | node :: rest => by
      rw [openersAll, List.find?_append, find?_openers level room node,
        find?_openersAll level room rest, tooDeepAtAll?]
      cases node.tooDeepAt? room <;> rfl

end

mutual

@[simp] theorem height_shift (n : Nat) : ∀ node : Node, (node.shift n).height = node.height
  | .literal _ _ => rfl
  | .interpolation _ _ => rfl
  | .block _ _ body _ => by rw [shift, height, height, heightAll_shiftAll n body]

@[simp] theorem heightAll_shiftAll (n : Nat) : ∀ nodes : List Node,
    heightAll (shiftAll n nodes) = heightAll nodes
  | [] => rfl
  | node :: rest => by
      rw [shiftAll, heightAll, heightAll, height_shift n node, heightAll_shiftAll n rest]

end

theorem heightAll_join (before after : List Node) :
    heightAll (join before after) = max (heightAll before) (heightAll after) := by
  fun_induction join before after with
  | case1 after => simp [heightAll]
  | case2 a start _ b _ stop after => simp [heightAll, height]
  | case3 after node before hmeet ih => rw [heightAll, heightAll, ih, Nat.max_assoc]

end Node

end Stencil
