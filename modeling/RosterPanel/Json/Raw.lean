import RosterPanel.Json.Value

/-!
# Reading JSON

A text is read in two steps. `Raw.ofChars?` checks the syntax alone and keeps everything that was
written: repeated field names, strings that form no text and numbers out of range. What then
becomes of the tree is up to the type that is read from it: parts that it skips may hold anything,
while parts that it keeps as values go through `Raw.value?`, which refuses texts and numbers that
do not exist and nesting that is too deep.

The reader takes one character at a time, so that reading `a ++ b` is reading `a` and then `b`.
-/

namespace RosterPanel.Json

/-- A JSON text whose syntax is right. -/
inductive Raw
  | null
  | bool (value : Bool)
  /-- A number, none when it is out of range. -/
  | number (value : Option Number)
  /-- A string, none when its escapes form no text. -/
  | string (value : Option String)
  | array (items : List Raw)
  | object (fields : List (Option String × Raw))
deriving Repr, Inhabited

/-! ## From tokens to a tree -/

/-- A container that waits for the value just begun; what it already holds comes newest first. -/
inductive Enclosing
  | item (before : List Raw)
  | field (before : List (Option String × Raw)) (name : Option String)

/-- What may come next. -/
inductive Expect
  /-- A value. -/
  | value
  /-- The first item of an array, or its end. -/
  | firstItem
  /-- A comma or the end of an array that holds these items. -/
  | items (read : List Raw)
  /-- The first field name of an object, or its end. -/
  | firstName
  /-- The next field name of an object that holds these fields. -/
  | name (read : List (Option String × Raw))
  /-- The colon after a field name. -/
  | colon (read : List (Option String × Raw)) (name : Option String)
  /-- A comma or the end of an object that holds these fields. -/
  | fields (read : List (Option String × Raw))
  /-- Nothing more: the text is complete. -/
  | nothing (root : Raw)

/-- A tree under construction: the open containers, innermost first, and what may come next. -/
structure Growing where
  waiting : List Enclosing
  expect : Expect

namespace Growing

/-- A value has ended: it goes into the innermost open container, or is the whole. -/
def complete (v : Raw) : List Enclosing → Growing
  | [] => ⟨[], .nothing v⟩
  | .item before :: waiting => ⟨waiting, .items (v :: before)⟩
  | .field before name :: waiting => ⟨waiting, .fields ((name, v) :: before)⟩

/-- A value begins. -/
def begin? (waiting : List Enclosing) : Token → Option Growing
  | .null => some (complete .null waiting)
  | .bool b => some (complete (.bool b) waiting)
  | .number n => some (complete (.number n) waiting)
  | .string s => some (complete (.string s) waiting)
  | .beginArray => some ⟨waiting, .firstItem⟩
  | .beginObject => some ⟨waiting, .firstName⟩
  | _ => none

/-- Takes the next token, if it may stand here. -/
def take? (g : Growing) (t : Token) : Option Growing :=
  match g.expect, t with
  | .value, t => begin? g.waiting t
  | .firstItem, .endArray => some (complete (.array []) g.waiting)
  | .firstItem, t => begin? (.item [] :: g.waiting) t
  | .items read, .comma => some ⟨.item read :: g.waiting, .value⟩
  | .items read, .endArray => some (complete (.array read.reverse) g.waiting)
  | .firstName, .endObject => some (complete (.object []) g.waiting)
  | .firstName, .string name => some ⟨g.waiting, .colon [] name⟩
  | .name read, .string name => some ⟨g.waiting, .colon read name⟩
  | .colon read name, .colon => some ⟨.field read name :: g.waiting, .value⟩
  | .fields read, .comma => some ⟨g.waiting, .name read⟩
  | .fields read, .endObject => some (complete (.object read.reverse) g.waiting)
  | _, _ => none

end Growing

/-! ## From characters to a tree -/

/-- A reader in the middle of a text. -/
structure Reader where
  scan : Scan
  tree : Growing

namespace Reader

def start : Reader := ⟨.between, ⟨[], .value⟩⟩

/-- Takes the next character. -/
def step? (r : Reader) (c : Char) : Option Reader := do
  let (tokens, scan) ← r.scan.step c
  let tree ← tokens.foldlM Growing.take? r.tree
  return ⟨scan, tree⟩

/-- Ends the text. -/
def finish? (r : Reader) : Option Raw := do
  let tree ← (← r.scan.finish).foldlM Growing.take? r.tree
  match tree.expect with
  | .nothing root => some root
  | _ => none

end Reader

namespace Raw

/-- Reads a whole text; none when its syntax is wrong. -/
def ofChars? (cs : List Char) : Option Raw :=
  (cs.foldlM Reader.step? Reader.start).bind Reader.finish?

/-- Reads a whole text; none when its syntax is wrong. -/
def ofText? (s : String) : Option Raw := ofChars? s.toList

/-! ## From a tree to a value -/

/-- How many arrays and objects may be open at once in a text; `serde_json` gives up at the
128th. -/
def maxDepth : Nat := 127

mutual

/-- The value of a tree in which at most `room` arrays and objects are open at once. Of two fields
under one name the last stays. -/
def value? (room : Nat) : Raw → Option Value
  | .null => some .null
  | .bool b => some (.bool b)
  | .number n => n.map .number
  | .string s => s.map .string
  | .array items =>
    match room with
    | 0 => none
    | room + 1 => (itemValues? room items).map .array
  | .object fields =>
    match room with
    | 0 => none
    | room + 1 => (fieldValues? room fields).map fun fields => .ofTable (Table.ofList fields)

/-- The values of all items. -/
def itemValues? (room : Nat) : List Raw → Option (List Value)
  | [] => some []
  | item :: rest => do
    let v ← value? room item
    let vs ← itemValues? room rest
    return v :: vs

/-- The values of all fields. -/
def fieldValues? (room : Nat) : List (Option String × Raw) → Option (List (String × Value))
  | [] => some []
  | (name, item) :: rest => do
    let name ← name
    let v ← value? room item
    let vs ← fieldValues? room rest
    return (name, v) :: vs

end

mutual

/-- The tree of a value. -/
def ofValue : Value → Raw
  | .null => .null
  | .bool b => .bool b
  | .number n => .number (some n)
  | .string s => .string (some s)
  | .array items => .array (ofItems items)
  | .object fields => .object (ofFields fields)

def ofItems : List Value → List Raw
  | [] => []
  | v :: rest => ofValue v :: ofItems rest

def ofFields : List (String × Value) → List (Option String × Raw)
  | [] => []
  | (name, v) :: rest => (some name, ofValue v) :: ofFields rest

end

end Raw

/-- Model of `from_str` at `Value`: reads a text as a value. -/
def Value.ofText? (s : String) : Option Value :=
  (Raw.ofText? s).bind (Raw.value? Raw.maxDepth)

end RosterPanel.Json
