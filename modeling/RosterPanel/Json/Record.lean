import RosterPanel.Json.Raw

/-!
# Records

A typed object has a fixed list of named fields. It is written as an object, in any order and with
other fields between them, or as an array of its fields in their order. A field that is known must
not come twice; one that is not known is skipped, whatever it holds.
-/

namespace RosterPanel.Json

/-- The known fields of a typed object that are present. -/
structure Record where
  fields : List (String × Raw)

namespace Raw

/-- What a derived `Deserialize` makes of a record with the fields `names`; as an array it needs at
least the first `least` of them. -/
def record? (names : List String) (least : Nat) : Raw → Option Record
  | .array items =>
    if least ≤ items.length ∧ items.length ≤ names.length then some ⟨names.zip items⟩ else none
  | .object fields => do
    let named ← fields.mapM fun (name, item) => name.map fun name => (name, item)
    let known := named.filter fun field => names.contains field.1
    if (known.map (·.1)).Nodup then some ⟨known⟩ else none
  | _ => none

/-- The text of a string. -/
def text? : Raw → Option String
  | .string s => s
  | _ => none

/-- The name of an alternative without contents, as a derived `Deserialize` takes it: a string, or
an object with that name as its only field and `null` in it. -/
def alternative? : Raw → Option String
  | .string s => s
  | .object [(name, .null)] => name
  | _ => none

/-- Takes the tag out of an internally tagged object: the text under `tag` in an object, or the
first item of an array. -/
def tagged? (tag : String) : Raw → Option (String × Raw)
  | .array (first :: rest) => first.text?.map fun name => (name, .array rest)
  | .object fields =>
    match fields.partition (·.1 == some tag) with
    | ([(_, .string (some name))], rest) => some (name, .object rest)
    | _ => none
  | _ => none

end Raw

namespace Record

/-- What stands under a name. -/
def get? (r : Record) (name : String) : Option Raw := r.fields.lookup name

/-- A text that must be there. -/
def text? (r : Record) (name : String) : Option String := (r.get? name).bind Raw.text?

/-- A part that may be left out or `null`, and is otherwise read by `read`. -/
def optional? {α : Type} (r : Record) (name : String) (read : Raw → Option α) :
    Option (Option α) :=
  match r.get? name with
  | none | some .null => some none
  | some item => (read item).map some

/-- A text that is empty when it is left out, as `serde(default)` has it. -/
def textOrEmpty? (r : Record) (name : String) : Option String :=
  match r.get? name with
  | none => some ""
  | some item => item.text?

end Record

end RosterPanel.Json
