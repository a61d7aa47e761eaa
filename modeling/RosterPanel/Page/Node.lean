import RosterPanel.Table

/-!
# Page nodes

Trees of text and elements. An element bears a mark, whose type says what the tree is: on a page
marks are numbers that tell elements apart; in a sketch, a tree that is yet to be put on a page,
they say what the element is to be remembered as; and a tree with trivial marks and listeners is
what a reader of the page sees. `H` is the type of what listeners do.
-/

namespace RosterPanel.Page

structure Listener (H : Type) where
  event : String
  handler : H

/-- An element, its children aside. -/
structure Element (M H : Type) where
  mark : M
  tag : String
  attributes : Table String := ∅
  /-- The text that has been put into an input field, if any has. -/
  value : Option String := none
  listeners : List (Listener H) := []

inductive Node (M H : Type)
  | text (content : String)
  | element (self : Element M H) (children : List (Node M H))

/-! ## Classes -/

/-- White space between class names. -/
def isBlank (c : Char) : Bool :=
  c = ' ' || c = '\t' || c = '\n' || c = '\x0c' || c = '\r'

/-- The words of a text; `read` is the word that is being read, newest character first. -/
def wordsFrom (read : List Char) : List Char → List String
  | [] => if read.isEmpty then [] else [String.ofList read.reverse]
  | c :: rest =>
    if isBlank c then
      if read.isEmpty then wordsFrom [] rest else String.ofList read.reverse :: wordsFrom [] rest
    else wordsFrom (c :: read) rest

namespace Element

variable {M H : Type}

def attribute? (e : Element M H) (name : String) : Option String := e.attributes.find? name

def setAttribute (e : Element M H) (name value : String) : Element M H :=
  { e with attributes := e.attributes.insert name value }

def removeAttribute (e : Element M H) (name : String) : Element M H :=
  { e with attributes := e.attributes.erase name }

/-- The class names of an element, each once. -/
def classes (e : Element M H) : List String :=
  (wordsFrom [] ((e.attribute? "class").getD "").toList).eraseDups

def hasClass (e : Element M H) (name : String) : Bool := e.classes.contains name

/-- Writes class names. An attribute that is missing stays so if there is nothing to write. -/
def setClasses (e : Element M H) (names : List String) : Element M H :=
  if names.isEmpty && (e.attribute? "class").isNone then e
  else e.setAttribute "class" (" ".intercalate names)

def addClass (e : Element M H) (name : String) : Element M H :=
  e.setClasses (if e.hasClass name then e.classes else e.classes ++ [name])

def removeClass (e : Element M H) (name : String) : Element M H :=
  e.setClasses (e.classes.filter (· != name))

/-- The constant `DISABLED_CLASS`: the class of controls that are latched. -/
def disabledClass : String := "disabled"

/-- Model of `is_disabled`. -/
def isDisabled (e : Element M H) : Bool := e.hasClass disabledClass

/-- Model of `set_disabled`: shows an element as disabled or enabled. -/
def setDisabled (e : Element M H) (disabled : Bool) : Element M H :=
  if disabled then (e.addClass disabledClass).setAttribute "disabled" "disabled"
  else (e.removeClass disabledClass).removeAttribute "disabled"

/-- Whether an element is an input field. -/
def isField (e : Element M H) : Bool := e.tag == "input"

/-- The text in an input field, empty until one is put in; none if the element is no field. -/
def fieldText? (e : Element M H) : Option String :=
  if e.isField then some (e.value.getD "") else none

/-- Puts a text into an input field; other elements stay as they are. -/
def fill (text : String) (e : Element M H) : Element M H :=
  if e.isField then { e with value := some text } else e

def setMark {N : Type} (e : Element M H) (mark : N) : Element N H :=
  { mark, tag := e.tag, attributes := e.attributes, value := e.value, listeners := e.listeners }

/-- What can be seen of an element. -/
def look (e : Element M H) : Element Unit Unit :=
  { mark := (), tag := e.tag, attributes := e.attributes, value := e.value }

end Element

namespace Node

variable {M N H : Type}

def element? : Node M H → Option (Element M H)
  | .text _ => none
  | .element self _ => some self

def children : Node M H → List (Node M H)
  | .text _ => []
  | .element _ children => children

/-- Whether a node is an element that passes. -/
def test (p : Element M H → Bool) : Node M H → Bool
  | .text _ => false
  | .element self _ => p self

mutual

/-- The elements of a tree with what is below them, in document order, its root first. -/
def elements : Node M H → List (Node M H)
  | .text _ => []
  | .element self children => .element self children :: elementsAmong children

def elementsAmong : List (Node M H) → List (Node M H)
  | [] => []
  | child :: rest => elements child ++ elementsAmong rest

end

mutual

/-- Changes the elements that pass, with what is below them. -/
def adjust (p : Element M H → Bool) (f : Element M H → List (Node M H) → Node M H) :
    Node M H → Node M H
  | .text content => .text content
  | .element self children =>
    if p self then f self children else .element self (adjustAmong p f children)

def adjustAmong (p : Element M H → Bool) (f : Element M H → List (Node M H) → Node M H) :
    List (Node M H) → List (Node M H)
  | [] => []
  | child :: rest => adjust p f child :: adjustAmong p f rest

end

mutual

/-- Takes the elements that pass out of the tree below a node. -/
def prune (p : Element M H → Bool) : Node M H → Node M H
  | .text content => .text content
  | .element self children => .element self (pruneAmong p children)

def pruneAmong (p : Element M H → Bool) : List (Node M H) → List (Node M H)
  | [] => []
  | child :: rest =>
    if child.test p then pruneAmong p rest else prune p child :: pruneAmong p rest

end

mutual

/-- The elements from the first that passes up to the root; empty if none does. -/
def pathTo (p : Element M H → Bool) : Node M H → List (Element M H)
  | .text _ => []
  | .element self children =>
    if p self then [self]
    else
      match pathAmong p children with
      | [] => []
      | path => path ++ [self]

def pathAmong (p : Element M H → Bool) : List (Node M H) → List (Element M H)
  | [] => []
  | child :: rest =>
    match pathTo p child with
    | [] => pathAmong p rest
    | path => path

end

mutual

/-- Numbers the elements of a tree in document order, starting from `next`. -/
def number (next : Nat) : Node M H → Node (M × Nat) H × Nat
  | .text content => (.text content, next)
  | .element self children =>
    let (children, after) := numberAll (next + 1) children
    (.element (self.setMark (self.mark, next)) children, after)

def numberAll (next : Nat) : List (Node M H) → List (Node (M × Nat) H) × Nat
  | [] => ([], next)
  | child :: rest =>
    let (child, next) := number next child
    let (rest, next) := numberAll next rest
    (child :: rest, next)

end

mutual

/-- Changes the mark of every element. -/
def mapMark (f : M → N) : Node M H → Node N H
  | .text content => .text content
  | .element self children => .element (self.setMark (f self.mark)) (mapMarkAll f children)

def mapMarkAll (f : M → N) : List (Node M H) → List (Node N H)
  | [] => []
  | child :: rest => mapMark f child :: mapMarkAll f rest

end

mutual

/-- What can be seen of a tree. -/
def look : Node M H → Node Unit Unit
  | .text content => .text content
  | .element self children => .element self.look (lookAll children)

def lookAll : List (Node M H) → List (Node Unit Unit)
  | [] => []
  | child :: rest => look child :: lookAll rest

end

end Node

end RosterPanel.Page
