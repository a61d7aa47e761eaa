import RosterPanel.Drag
import RosterPanel.Frame
import RosterPanel.Placeholder
import RosterPanel.Proofs.Json.Reading

/-!
# On the wire

Requests and frames are written and read by definitions that share nothing but the names of fields.
Results:

* `Command.ofText?_request`: `to_json` of a request is read as the object that is documented for it,
  whatever texts it is made from.
* `Command.messageOfText?_request`: `message_from_text` takes a request that comes back as it went
  out for the news that it was granted.
* `DragPayload.userIdOfText?_text`: a dragged user is dropped as that user.
-/

namespace RosterPanel

open Json (Raw Record Value Token)

/-- A table that is built from a list holds each field at its place. -/
theorem Json.Value.ofTable_ofList (l : List (String × Value)) :
    Value.ofTable (Table.ofList l) =
      .object (l.foldl (fun placed e => Table.place e.1 e.2 placed) []) := by
  have hinsert : ∀ t : Table Value, (t.insertAll l).entries =
      l.foldl (fun placed e => Table.place e.1 e.2 placed) t.entries := by
    induction l with
    | nil => exact fun _ => rfl
    | cons e rest ih => exact fun t => ih (t.insert e.1 e.2)
  exact congrArg Value.object (hinsert ∅)

/-! ## Commands -/

/-- A request that the panel makes, by what it is made from. -/
inductive Command
  /-- Creation under a placeholder that is drawn from a source. -/
  | create (kind : EntityKind) (source : Words)
  | delete (entity : Entity)
  | list (kind : EntityKind)
  | addToGroup (userId groupId : String)
  | removeFromGroup (userId groupId : String)
  | listMembers (groupId : String)
  | getProperties (id : String)
  | updateProperty (id key value : String)

namespace Command

/-- The request as it is built. -/
def request : Command → Request
  | .create k source => (Placeholder.create k source).1
  | .delete e => .delete e
  | .list k => .list k
  | .addToGroup userId groupId => .addToGroup userId groupId
  | .removeFromGroup userId groupId => .removeFromGroup userId groupId
  | .listMembers groupId => .listMembers groupId
  | .getProperties id => .getProperties id
  | .updateProperty id key value => .updateProperty id key value

/-- The object that is documented for a command, for a way to make objects from fields. -/
def layout (object : List (String × Value) → Value) : Command → Value
  | .create .group source =>
    object [
      ("command", .string "CREATE"),
      ("data", object [
        ("type", .string "Group"),
        ("name", .string ("New group_" ++ toString (Placeholder.draw source).1))])]
  | .create .user source =>
    object [
      ("command", .string "CREATE"),
      ("callback", .string "test"),
      ("data", object [
        ("type", .string "User"),
        ("name", .string (toString (Placeholder.draw source).1)),
        ("realName", .string ("New user_" ++ toString (Placeholder.draw source).1))])]
  | .delete e =>
    object [
      ("command", .string "DELETE"),
      ("id", .string e.id),
      ("data", object [
        ("type", .string e.kind.name),
        ("name", .string e.name),
        ("id", .string e.id)])]
  | .list k =>
    object [("command", .string "LIST"), ("data", object [("type", .string k.name)])]
  | .addToGroup userId groupId =>
    object [
      ("command", .string "ADD"),
      ("id", .string groupId),
      ("data", object [("id", .string userId)])]
  | .removeFromGroup userId groupId =>
    object [
      ("command", .string "REMOVE"),
      ("id", .string groupId),
      ("data", object [("id", .string userId)])]
  | .listMembers groupId =>
    object [("command", .string "CHILDREN"), ("id", .string groupId)]
  | .getProperties id =>
    object [("command", .string "GET"), ("id", .string id)]
  | .updateProperty id key value =>
    object [
      ("command", .string "UPDATE"),
      ("id", .string id),
      ("data", object [(key, .string value)])]

/-- The documented object with its fields in the order in which they are written. -/
def written (c : Command) : Value := c.layout .object

/-- The news that a command was carried out, if the command itself has all that there is to tell.
Of a creation it lacks the new id. -/
def confirmation? : Command → Option Message
  | .create _ _ => none
  | .delete e => some (.entityDeleted e.id)
  | .list k => some (.entitiesListed k [])
  | .addToGroup userId groupId => some (.memberAdded userId groupId)
  | .removeFromGroup userId groupId => some (.memberRemoved userId groupId)
  | .listMembers groupId => some (.membersListed groupId [])
  | .getProperties id => some (.propertiesLoaded id ∅)
  | .updateProperty id key value =>
    some (.entityUpdated id ((∅ : Properties).insert key (.string value)))

/-! ## Writing -/

theorem json_request (c : Command) : c.request.json = c.written := by
  cases c with
  | create k source => cases k <;> rfl
  | _ => rfl

theorem exact_written (c : Command) : c.written.Exact := by
  unfold written
  fun_cases layout Value.object c <;> simp [Value.Exact, Value.tokens, Value.fieldTokens]

/-- A request is read as the tree that was written. -/
theorem rawOfText?_request (c : Command) :
    Raw.ofText? c.request.text = some (.ofValue c.written) := by
  rw [Request.text, json_request]
  exact Raw.ofText?_text_of_exact c.exact_written

/-! ## Reading -/

/-- What a creation describes is no entity yet, for it has no id. -/
theorem ofJson?_new (name realName : String) :
    Entity.ofJson? (.ofTable (Table.ofList [("type", .string "Group"), ("name", .string name)])) =
        none ∧
      Entity.ofJson? (.ofTable (Table.ofList [("type", .string "User"), ("name", .string name),
        ("realName", .string realName)])) = none := by
  constructor <;>
    · simp only [Value.ofTable_ofList, List.foldl_cons, List.foldl_nil, Table.place,
        String.reduceLT, String.reduceEq, if_true, if_false]
      rfl

/-- What comes back tells the message: a group and a user are not mixed up, and a property keeps
its value. -/
theorem message?_written (c : Command) :
    (Frame.ofRaw? (.ofValue c.written)).bind Frame.message? = c.confirmation? := by
  unfold written
  fun_cases layout Value.object c <;>
    simp [Frame.ofRaw?, Raw.record?, Record.get?, Record.optional?, lookup_cons_ite, Raw.text?,
      Raw.ofValue, Raw.ofFields, Raw.maxDepth, Raw.value?, Raw.fieldValues?]
  case case1 => exact congrArg (Option.map _) (ofJson?_new _ "").1
  case case2 => exact congrArg (Option.map _) (ofJson?_new _ _).2
  case case4 k => cases k <;> rfl
  all_goals rfl

/-- For every request `c` that a builder makes, of whatever texts, `message_from_text` of its
`to_json` is the message that confirms `c` itself, and none for CREATE, whose answer has to bring
the new id. -/
theorem messageOfText?_request (c : Command) :
    Message.ofText? c.request.text = c.confirmation? := by
  rw [Message.ofText?, Frame.ofText?, rawOfText?_request, Option.bind_some, message?_written]

end Command

/-! ## Drags -/

namespace DragPayload

/-- What a dragged user carries is read as what was written. -/
theorem ofText?_text (userId : String) :
    (Raw.ofText? (user userId).text).bind ofRaw? = some (user userId) := by
  have hexact : (user userId).json.Exact := by
    simp [json, Value.Exact, Value.tokens, Value.fieldTokens]
  rw [text, Raw.ofText?_text_of_exact hexact]
  simp [ofRaw?, json, user, userKind, Raw.record?, Record.text?, Record.get?, lookup_cons_ite,
    Raw.text?, Raw.ofValue, Raw.ofFields]

/-- A text stands for a user if it is read as the payload of that user, who is to have a name. -/
theorem userIdOfText?_eq_some_iff {s userId : String} :
    userIdOfText? s = some userId ↔
      (Raw.ofText? s).bind ofRaw? = some (user userId) ∧ userId ≠ "" := by
  have hbind : userIdOfText? s = ((Raw.ofText? s).bind ofRaw?).bind userId? := by
    rw [Option.bind_assoc]
    rfl
  rw [hbind]
  cases (Raw.ofText? s).bind ofRaw? with
  | none => simp
  | some p =>
    obtain ⟨kind, id⟩ := p
    simp only [Option.bind_some, userId?, Option.ite_none_right_eq_some, Option.some.injEq, user,
      DragPayload.mk.injEq]
    grind

/-- A dragged user is dropped as that user. -/
theorem userIdOfText?_text {userId : String} (h : userId ≠ "") :
    userIdOfText? (user userId).text = some userId :=
  userIdOfText?_eq_some_iff.2 ⟨ofText?_text userId, h⟩

end DragPayload

end RosterPanel
