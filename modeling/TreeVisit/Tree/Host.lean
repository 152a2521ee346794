import TreeVisit.Options
import TreeVisit.Tree.Mark
import TreeVisit.Walk.Host

/- Syntax trees as the host of a walk. A node is rebuilt only if a child changed: as long as every
   child is kept as the very node it was, the node itself stays, so subtrees are shared. -/
namespace TreeVisit.Tree

def rebuildAlways (n : Tree) (answers : List (Splice Tree)) : StateM Supply Tree := do
  return n.withChildren (← Supply.rebuilt) (answers.flatMap Splice.nodes)

def rebuild (n : Tree) (answers : List (Splice Tree)) : StateM Supply Tree :=
  if answers = n.children.map .keep then return n else rebuildAlways n answers

def host (options : Options) : Host Tree Options Supply where
  options := options
  children := Node.children
  rebuild := rebuild
  size := Node.size
  size_lt := Node.size_lt_of_mem_children

/-- The host without sharing, for comparison. -/
def plainHost (options : Options) : Host Tree Options Supply :=
  { host options with rebuild := rebuildAlways }

end TreeVisit.Tree
