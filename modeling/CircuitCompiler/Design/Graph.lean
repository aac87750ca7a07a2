/-!
# Dependency graphs

A graph on the numbers below its size: each node has a list of the nodes it depends on.
`Graph.layers` orders the nodes so that every node comes behind what it depends on, in layers of
nodes that are ready at the same time; what is left over is blocked by a cycle.
`Graph.cycleThrough?` finds a cycle through one node.
-/

namespace CircuitCompiler

/-- The dependencies of each node. -/
structure Graph where
  deps : List (List Nat)
  deriving DecidableEq, Repr, Inhabited

namespace Graph

/-- The number of nodes. -/
def size (g : Graph) : Nat := g.deps.length

/-- The dependencies of a node. -/
def depsOf (g : Graph) (v : Nat) : List Nat := g.deps.getD v []

/-- The number of dependencies of all nodes together. -/
def edgeCount (g : Graph) : Nat := (g.deps.map List.length).foldr (· + ·) 0

/-! ## Layers -/

/-- Whether everything a node depends on is done. -/
def isReady (g : Graph) (done : List Nat) (v : Nat) : Bool := (g.depsOf v).all done.contains

/-- The layers of the nodes `open_`, when the nodes `done` come before them. Every layer takes a
node away, so the number of nodes bounds the number of layers. -/
def layersFrom (g : Graph) : Nat → List Nat → List Nat → List (List Nat)
  | 0, _, _ => []
  | fuel + 1, done, open_ =>
    let ready := open_.filter (g.isReady done)
    if ready.isEmpty then []
    else ready :: layersFrom g fuel (done ++ ready) (open_.filter fun v => !g.isReady done v)

/-- All layers; nodes of a layer are in increasing order. -/
def layers (g : Graph) : List (List Nat) := g.layersFrom g.size [] (List.range g.size)

/-- The nodes that have a place in the order, each behind what it depends on. -/
def order (g : Graph) : List Nat := g.layers.flatten

/-- The nodes without a place in the order. -/
def blocked (g : Graph) : List Nat := (List.range g.size).filter fun v => !g.order.contains v

/-- Whether some node has no place in the order. -/
def isCyclic (g : Graph) : Bool := g.order.length != g.size

/-! ## Cycles -/

/-- Looks for a way from one of the nodes `next` to `goal` that avoids `seen`: the nodes seen
afterwards, and the way with its last node. -/
def wayTo (g : Graph) (goal : Nat) : Nat → List Nat → List Nat → List Nat × Option (List Nat)
  | _, seen, [] => (seen, none)
  | 0, seen, _ :: _ => (seen, none)
  | fuel + 1, seen, d :: rest =>
    if d == goal then (seen, some [d])
    else if seen.contains d then g.wayTo goal fuel seen rest
    else
      match g.wayTo goal fuel (d :: seen) (g.depsOf d) with
      | (seen', some way) => (seen', some (d :: way))
      | (seen', none) => g.wayTo goal fuel seen' rest

/-- A cycle through a node, which is its first and last element, if the node is on one. -/
def cycleThrough? (g : Graph) (v : Nat) : Option (List Nat) :=
  ((g.wayTo v (g.edgeCount + g.size + 1) [] (g.depsOf v)).2).map (v :: ·)

end Graph
end CircuitCompiler
