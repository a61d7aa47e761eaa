import RosterPanel.Page.Node

/-!
# Documents

The nodes of a page: what hangs on its head and its body, and what has been taken off but may still
be held by somebody. Elements are told apart by number.
-/

namespace RosterPanel.Page

variable {H : Type}

structure Document (H : Type) where
  head : Option (Node Nat H)
  body : Option (Node Nat H)
  /-- Trees that are not on the page. -/
  loose : List (Node Nat H) := []
  /-- The next number to give out. -/
  fresh : Nat

namespace Document

/-- Whether an element has a number. -/
def hasMark (n : Nat) (e : Element Nat H) : Bool := e.mark == n

/-- The trees on the page. -/
def trees (d : Document H) : List (Node Nat H) := d.head.toList ++ d.body.toList

/-- The elements on the page, in document order. -/
def elements (d : Document H) : List (Node Nat H) := Node.elementsAmong d.trees

/-- The number of the first element on the page that passes. -/
def first? (d : Document H) (p : Element Nat H → Bool) : Option Nat :=
  (d.elements.find? (·.test p)).bind fun node => node.element?.map (·.mark)

/-- The number of the first element on the page with an `id`. -/
def byId? (d : Document H) (id : String) : Option Nat :=
  d.first? fun e => e.attribute? "id" == some id

/-- The element with a number, on the page or off it, with what is below. -/
def find? (d : Document H) (n : Nat) : Option (Node Nat H) :=
  (Node.elementsAmong (d.trees ++ d.loose)).find? (·.test (hasMark n))

def element? (d : Document H) (n : Nat) : Option (Element Nat H) :=
  (d.find? n).bind Node.element?

/-- Changes all trees. -/
def mapTrees (d : Document H) (f : Node Nat H → Node Nat H) : Document H :=
  { d with head := d.head.map f, body := d.body.map f, loose := d.loose.map f }

/-- Changes the element with a number, its children aside. -/
def adjustElement (d : Document H) (n : Nat) (f : Element Nat H → Element Nat H) : Document H :=
  d.mapTrees (Node.adjust (hasMark n) fun self children => .element (f self) children)

/-- Changes the children of the element with a number. -/
def adjustChildren (d : Document H) (n : Nat) (f : List (Node Nat H) → List (Node Nat H)) :
    Document H :=
  d.mapTrees (Node.adjust (hasMark n) fun self children => .element self (f children))

/-- Takes the element with a number off its parent, if it has one. -/
def detach (d : Document H) (n : Nat) : Document H :=
  if (d.trees ++ d.loose).any (·.test (hasMark n)) then d
  else
    match d.find? n with
    | none => d
    | some node =>
      let d := d.mapTrees (Node.prune (hasMark n))
      { d with loose := d.loose ++ [node] }

/-- Takes all children off the element with a number. -/
def clear (d : Document H) (n : Nat) : Document H :=
  match d.find? n with
  | none => d
  | some node =>
    let d := d.adjustChildren n fun _ => []
    { d with loose := d.loose ++ node.children.filter (·.test fun _ => true) }

/-- Numbers the elements of a sketch. -/
def enter {M : Type} (d : Document H) (sketch : Node M H) : Node (M × Nat) H × Document H :=
  let (node, fresh) := sketch.number d.fresh
  (node, { d with fresh })

/-- Adds a node behind the children of an element. -/
def append (d : Document H) (parent : Nat) (node : Node Nat H) : Document H :=
  d.adjustChildren parent (· ++ [node])

/-- Adds a node before the children of an element. -/
def prepend (d : Document H) (parent : Nat) (node : Node Nat H) : Document H :=
  d.adjustChildren parent (node :: ·)

/-- The way from the element with a number up to the root of its tree on the page. -/
def path (d : Document H) (n : Nat) : List (Element Nat H) :=
  Node.pathAmong (hasMark n) d.trees

/-- Takes the head off the page for good. -/
def dropHead (d : Document H) : Document H :=
  { d with head := none, loose := d.loose ++ d.head.toList }

/-- Takes the body off the page for good. -/
def dropBody (d : Document H) : Document H :=
  { d with body := none, loose := d.loose ++ d.body.toList }

end Document

end RosterPanel.Page
