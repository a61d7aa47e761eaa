import RosterPanel.Message

/-!
# Frames

A frame is what the backend sends: the answer to a request, or the news of somebody else's. Each
frame stands for at most one message.
-/

namespace RosterPanel

open Json (Raw Value)

/-- Model of `ServerMessage`. -/
structure Frame where
  verb : Verb
  id : Option String
  callback : Option String
  code : Option Nat
  message : Option String
  data : Option Value
  result : Option (List Value)

namespace Frame

/-- Reads a status code, a whole number of 16 bits. -/
def codeOfRaw? : Raw → Option Nat
  | .number (some (.integer (.ofNat n))) => if n < UInt16.size then some n else none
  | _ => none

/-- Reads the items of an array as values. -/
def itemsOfRaw? (room : Nat) : Raw → Option (List Value)
  | .array items => items.mapM (Raw.value? room)
  | _ => none

def ofRaw? (raw : Raw) : Option Frame := do
  let r ← raw.record? ["command", "id", "callback", "code", "message", "data", "result"] 1
  return {
    verb := ← (r.get? "command").bind Verb.ofRaw?
    id := ← r.optional? "id" Raw.text?
    callback := ← r.optional? "callback" Raw.text?
    code := ← r.optional? "code" codeOfRaw?
    message := ← r.optional? "message" Raw.text?
    data := ← r.optional? "data" (Raw.value? (Raw.maxDepth - 1))
    result := ← r.optional? "result" (itemsOfRaw? (Raw.maxDepth - 2)) }

/-- Model of `parse` (`ServerMessage`). -/
def ofText? (s : String) : Option Frame := (Raw.ofText? s).bind ofRaw?

/-- The constant `FIRST_ERROR_CODE`: codes from here on mark a request that failed. -/
def firstErrorCode : Nat := 400

/-- The code of a frame that reports a failure. -/
def errorCode? (f : Frame) : Option Nat :=
  f.code.bind fun code => if firstErrorCode ≤ code then some code else none

/-- Model of `is_error`. -/
def isError (f : Frame) : Bool := f.errorCode?.isSome

/-- Model of `data_str`: the text under a name in the data. -/
def dataText? (f : Frame) (name : String) : Option String :=
  f.data.bind fun v => (v.field? name).bind Value.string?

/-- Model of `data_object`: the data as properties; none at all when it is no object. -/
def properties (f : Frame) : Properties := (f.data.bind Value.table?).getD ∅

/-- Model of `decode_entities` on the results: what is no entity is skipped. -/
def entities (f : Frame) : List Entity := (f.result.getD []).filterMap Entity.ofJson?

/-- The kind that a listing is about: the one that `data.type` names, or else the kind of the first
entity. -/
def listedKind? (f : Frame) : Option EntityKind :=
  (f.data.bind fun v => (v.field? "type").bind EntityKind.ofJson?).or
    (f.entities.head?.map Entity.kind)

/-- Model of `route`: the message that a frame stands for, if the panel has a use for it. -/
def message? (f : Frame) : Option Message :=
  match f.errorCode? with
  | some code => some (.commandFailed f.verb code (f.message.getD "Unknown error"))
  | none =>
    match f.verb with
    | .list => f.listedKind?.map fun k => .entitiesListed k (f.entities.filter (·.kind == k))
    | .create => (f.data.bind Entity.ofJson?).map fun e => .entityCreated e f.callback
    | .delete => f.id.map .entityDeleted
    | .add => do return .memberAdded (← f.dataText? "id") (← f.id)
    | .remove => do return .memberRemoved (← f.dataText? "id") (← f.id)
    | .children => f.id.map fun g => .membersListed g (f.entities.filterMap Entity.user?)
    | .get => f.id.map fun id => .propertiesLoaded id f.properties
    | .update => f.id.map fun id => .entityUpdated id f.properties
    | .unknown => none

end Frame

/-- Model of `message_from_text`: the message that a text stands for; none when it is no frame. -/
def Message.ofText? (s : String) : Option Message := (Frame.ofText? s).bind Frame.message?

end RosterPanel
