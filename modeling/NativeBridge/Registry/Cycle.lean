import NativeBridge.Native.Class
/-!
# Cycles of a class graph

A directed graph is free of cycles when every depth-first search backwards, started from the nodes in
reverse finishing order of a forward search, finds only nodes that an earlier search has found. The class
that is named for a cycle is the first one where this fails (`Digraph.culprit?`).
-/
namespace NativeBridge

/-- Taking a member out of a list leaves fewer. Searches end because each step does this. -/
theorem length_erase_lt {c : Class} {cs : List Class} (h : c ∈ cs) : (cs.erase c).length < cs.length := by
  have := List.length_pos_of_mem h
  rw [List.length_erase_of_mem h]
  omega

/-- A directed graph of classes. Edges keep the order in which they were added. -/
structure Digraph where
  nodes : List Class
  edges : List (Class × Class)

namespace Digraph

/-- The targets of the edges from `c`, earliest edge first. -/
def successors (g : Digraph) (c : Class) : List Class :=
  (g.edges.filter (·.1 = c)).map (·.2)

/-- The sources of the edges to `c`, earliest edge first. -/
def predecessors (g : Digraph) (c : Class) : List Class :=
  (g.edges.filter (·.2 = c)).map (·.1)

/-- A forward search from the classes on the stack. A class stays on the stack while its successors are
searched and is finished when it comes up again. A class with an edge to itself ends the search. -/
def search (g : Digraph) (unseen stack finished : List Class) : Except Class (List Class × List Class) :=
  match stack with
  | [] => .ok (unseen, finished)
  | c :: rest =>
    if c ∈ unseen then
      let next := g.successors c
      if c ∈ next then .error c
      else
        let unseen' := unseen.erase c
        g.search unseen' (next.filter (· ∈ unseen') ++ c :: rest) finished
    else g.search unseen rest (if c ∈ finished then finished else c :: finished)
termination_by (unseen.length, stack.length)
decreasing_by
  · rename_i h _
    exact Prod.Lex.left _ _ (length_erase_lt h)
  · apply Prod.Lex.right
    simp

/-- Forward searches from every class that none has reached: the finished classes, latest first. -/
def finishOrder (g : Digraph) : List Class → List Class → List Class → Except Class (List Class)
  | [], _, finished => .ok finished
  | c :: roots, unseen, finished =>
    if c ∈ unseen then
      match g.search unseen [c] finished with
      | .error e => .error e
      | .ok (unseen, finished) => g.finishOrder roots unseen finished
    else g.finishOrder roots unseen finished

/-- The first class found backwards, along the earliest edge, that no class before it in the order is. -/
def backward? (g : Digraph) : List Class → List Class → Option Class
  | [], _ => none
  | c :: order, unseen =>
    if c ∈ unseen then
      match (g.predecessors c).find? (· ∈ unseen.erase c) with
      | some found => some found
      | none => g.backward? order (unseen.erase c)
    else g.backward? order unseen

/-- The class named for a cycle, `none` when there is no cycle. -/
def culprit? (g : Digraph) : Option Class :=
  match g.finishOrder g.nodes g.nodes [] with
  | .error c => some c
  | .ok order => g.backward? order g.nodes

end Digraph
end NativeBridge
