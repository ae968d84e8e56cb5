import Cosigning.Policy.Error

/-!
# Huffman trees

The two lightest trees of a forest are merged until one is left, so that light
items end up deep and heavy ones near the root.  Of two equally light trees the
one created first counts as lighter, and every single item was created before
any merged tree.
-/

namespace Cosigning

inductive HuffmanTree (α : Type) where
  | leaf (item : α)
  | branch (left right : HuffmanTree α)

namespace HuffmanTree

variable {α : Type}

def height : HuffmanTree α -> Nat
  | leaf _ => 0
  | branch left right => max left.height right.height + 1

def layoutFrom (depth : Nat) : HuffmanTree α -> List (α × Nat)
  | leaf item => [(item, depth)]
  | branch left right => left.layoutFrom (depth + 1) ++ right.layoutFrom (depth + 1)

def layout (tree : HuffmanTree α) : List (α × Nat) :=
  tree.layoutFrom 0

structure Candidate (α : Type) where
  weight : Nat
  order : Nat
  tree : HuffmanTree α

namespace Candidate

def precedes (a b : Candidate α) : Bool :=
  a.weight < b.weight || (a.weight == b.weight && a.order < b.order)

def insert (new : Candidate α) : List (Candidate α) -> List (Candidate α)
  | [] => [new]
  | first :: rest =>
      if new.precedes first then new :: first :: rest else first :: insert new rest

theorem length_insert (new : Candidate α) (forest : List (Candidate α)) :
    (insert new forest).length = forest.length + 1 := by
  induction forest with
  | nil => rfl
  | cons first rest ih =>
      unfold insert
      split
      · rfl
      · simp [ih]

def join (order : Nat) (a b : Candidate α) : Candidate α :=
  { weight := a.weight + b.weight
    order := order
    tree := branch a.tree b.tree }

end Candidate

/-- Merge the first two candidates of an ordered forest until one tree is left; `next` is the
number of the next tree created. -/
def merge (next : Nat) : List (Candidate α) -> Option (HuffmanTree α)
  | [] => none
  | [last] => some last.tree
  | a :: b :: rest => merge (next + 1) ((Candidate.join next a b).insert rest)
termination_by forest => forest.length
decreasing_by
  rw [Candidate.length_insert]
  simp only [List.length_cons]
  omega

def forest (weight : α -> UInt32) (items : List α) : List (Candidate α) :=
  let candidates := items.zipIdx.map (fun entry =>
    { weight := (weight entry.1).toNat, order := entry.2, tree := leaf entry.1 })
  candidates.mergeSort (fun a b => !b.precedes a)

def ofItems? (weight : α -> UInt32) (items : List α) : Option (HuffmanTree α) :=
  merge items.length (forest weight items)

end HuffmanTree

def maxDepth : Nat := 128

def huffmanLayout {α : Type} (weight : α -> UInt32) (items : List α) :
    Except PolicyError (List (α × Nat)) :=
  match HuffmanTree.ofItems? weight items with
  | none => .error .emptyTree
  | some tree =>
      if tree.height <= maxDepth then .ok tree.layout else .error (.depthLimit (maxDepth + 1))

def depthsInOrder {α : Type} (number : α -> Nat) (layout : List (α × Nat)) : List Nat :=
  (layout.mergeSort (fun a b => decide (number a.1 <= number b.1))).map Prod.snd

def huffmanDepths (weights : List UInt32) : Except PolicyError (List Nat) :=
  (huffmanLayout Prod.fst weights.zipIdx).map (depthsInOrder Prod.snd)

end Cosigning
