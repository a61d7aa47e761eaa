import RosterPanel.Json.Record

/-!
# Verbs

What a request asks the backend to do. Verbs that the panel does not know are kept as `unknown`.
-/

namespace RosterPanel

open Json (Raw Value)

/-- Model of `CommandKind`. -/
inductive Verb
  | create
  | delete
  | list
  | add
  | remove
  | children
  | get
  | update
  | unknown
deriving DecidableEq, Repr

namespace Verb

/-- The wire name of a verb, which is also its text in notices. -/
def name : Verb → String
  | .create => "CREATE"
  | .delete => "DELETE"
  | .list => "LIST"
  | .add => "ADD"
  | .remove => "REMOVE"
  | .children => "CHILDREN"
  | .get => "GET"
  | .update => "UPDATE"
  | .unknown => "UNKNOWN"

def known : List Verb := [.create, .delete, .list, .add, .remove, .children, .get, .update]

/-- Any other name is read as `unknown`. -/
def ofName (name : String) : Verb := (known.find? (·.name == name)).getD .unknown

def json (v : Verb) : Value := .string v.name

def ofRaw? (raw : Raw) : Option Verb := raw.alternative?.map ofName

def ofText? (s : String) : Option Verb := (Raw.ofText? s).bind ofRaw?

end Verb

end RosterPanel
