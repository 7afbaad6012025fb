import TaskTags.Yaml.Node

/-!
How often a document follows its aliases. Few aliases can stand for a document of any size, so the
aliases followed are bounded by the size of the text's own nodes.
-/

namespace TaskTags.Yaml

namespace Node

mutual
/-- The marks of a node in its text: one of a scalar or an alias, two around a collection. -/
def marks : Node → Nat
  | .scalar .. | .alias _ => 1
  | .list _ items => marksOfItems items + 2
  | .map _ entries => marksOfEntries entries + 2

def marksOfItems : List Node → Nat
  | [] => 0
  | node :: rest => node.marks + marksOfItems rest

def marksOfEntries : List (Node × Node) → Nat
  | [] => 0
  | (k, v) :: rest => k.marks + v.marks + marksOfEntries rest
end

/-- Whether the nodes are read through with no more than `budget` aliases followed. `fuel` bounds
the nodes met. -/
def followsWithin (anchors : List (Nat × Node)) : Nat → Nat → List Node → Bool
  | 0, _, _ => false
  | _ + 1, _, [] => true
  | fuel + 1, budget, .scalar .. :: rest => followsWithin anchors fuel budget rest
  | fuel + 1, budget, .list _ items :: rest => followsWithin anchors fuel budget (items ++ rest)
  | fuel + 1, budget, .map _ entries :: rest =>
    followsWithin anchors fuel budget (entries.flatMap (fun (k, v) => [k, v]) ++ rest)
  | fuel + 1, budget, .alias number :: rest =>
    match budget with
    | 0 => false
    | budget + 1 =>
      match anchors.lookup number with
      | some node => followsWithin anchors fuel budget (node :: rest)
      | none => followsWithin anchors fuel budget rest

end Node

/-- Whether a hundred aliases a mark are enough for the document. -/
def Document.isBounded (document : Document) : Bool :=
  match document.root with
  | none => true
  | some root =>
    let budget := 100 * root.marks
    Node.followsWithin document.anchors ((budget + 1) * (root.marks + 1) + 1) budget [root]

end TaskTags.Yaml
