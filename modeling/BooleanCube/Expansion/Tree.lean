import BooleanCube.NormalForm
import BooleanCube.Text.Lines

/-!
Expansion trees: a function expanded by one variable after the other until what is left is
constant. Every node knows the literals that lead to it.
-/

namespace BooleanCube

inductive ExpansionTree where
  | leaf (path : Term) (value : Bool)
  | split (path : Term) (pivot : Variable) (high low : ExpansionTree)
  deriving DecidableEq, Repr

namespace ExpansionTree

def valuesOn (vector : TruthVector) (path : Term) : List Bool :=
  (Row.all.filter fun row => path.all fun literal => literal.eval row).map fun row => vector.get row

/-- The tree of the function on the rows of `path`, expanded by the variables of `remaining` in
their order. A constant is not expanded; without rows or variables left the first value stands
for all, `false` if there is none. -/
def grow (vector : TruthVector) : List Variable → Term → ExpansionTree
  | [], path => .leaf path ((valuesOn vector path).headD false)
  | pivot :: remaining, path =>
      let first := (valuesOn vector path).headD false
      if (valuesOn vector path).all fun value => value == first then .leaf path first
      else
        .split path pivot (grow vector remaining (path ++ [.plain pivot]))
          (grow vector remaining (path ++ [.negative pivot]))

def ofVector (vector : TruthVector) : ExpansionTree := grow vector Variable.all []

def eval : ExpansionTree → Row → Bool
  | leaf _ value, _ => value
  | split _ pivot high low, row => if pivot.bit row then high.eval row else low.eval row

def expand (tree : ExpansionTree) : TruthVector := .ofFn tree.eval

def path : ExpansionTree → Term
  | leaf path _ => path
  | split path .. => path

/-- The line of one node: its path, `f` at the root, and its value or variable. -/
def caption (tree : ExpansionTree) : String :=
  let place := if tree.path.isEmpty then "f" else "∧".intercalate (tree.path.map Literal.render)
  match tree with
  | leaf _ value => place ++ ": " ++ digit value
  | split _ pivot .. => place ++ ": " ++ pivot.name

/-- The lines of a child behind its branch: `first` for its own line, `others` for those below. -/
def hang (first others : String) : List String → List String
  | [] => []
  | line :: below => (first ++ line) :: below.map (others ++ ·)

/-- The lines of a tree. Those of the children hang on branches, the low one on the last. -/
def lines : ExpansionTree → List String
  | tree@(leaf ..) => [tree.caption]
  | tree@(split _ _ high low) =>
      tree.caption :: hang "├─ " "│  " high.lines ++ hang "└─ " "   " low.lines

def render (tree : ExpansionTree) : String := Text.unlines tree.lines

end ExpansionTree

end BooleanCube
