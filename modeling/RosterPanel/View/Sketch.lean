import RosterPanel.Page.Document
import RosterPanel.Panel
import RosterPanel.Slot

/-!
# Sketches of the panel's blocks

What the panel puts on a page, as trees that depend on nothing but what they show: the block of a
group, of a user, of a member in a group, the buttons that add, and the property panel. The marks
in a sketch name the slots under which elements are remembered, and listeners hold what a gesture
on them means at the time of drawing.
-/

namespace RosterPanel

/-- What a listener does: the closures that `guarded_control`, `append_group_element`,
`append_user_element`, `add_drop_target`, `make_draggable` and `property_row` hand to `listen`. -/
inductive Handler
  /-- A click hands a message to the panel. -/
  | post (message : Message)
  /-- A click hands a message to the panel, unless the control is disabled or a question that comes
  first is denied. -/
  | control (message : Message) (question : Option String)
  /-- A drag takes a user along. -/
  | carryUser (userId : String)
  /-- Something is dragged over the block. -/
  | hover
  /-- What was dragged leaves the block. -/
  | leave
  /-- Something is dropped on the block of a group. -/
  | dropOn (groupId : String)
  /-- An input field is committed as the value of a property. -/
  | commit (id key : String)

/-- A tree to be put on a page. -/
abbrev Sketch := Page.Node (Option Slot) Handler

namespace Sketch

open Page (Element)

/-- Model of `create_with_class`: an element with a class. -/
def styled (tag className : String) : Element (Option Slot) Handler where
  mark := none
  tag := tag
  attributes := (∅ : Table String).insert "class" className

/-- An element without attributes. -/
def plain (tag : String) : Element (Option Slot) Handler where
  mark := none
  tag := tag

/-- Model of `listen`: adds a listener behind the ones that are there. -/
def on (e : Element (Option Slot) Handler) (event : String) (handler : Handler) :
    Element (Option Slot) Handler :=
  { e with listeners := e.listeners ++ [⟨event, handler⟩] }

/-- Names the slot of an element. -/
def inSlot (e : Element (Option Slot) Handler) (slot : Slot) : Element (Option Slot) Handler :=
  { e with mark := some slot }

/-- The children of an element that holds just a text. -/
def textNodes (text : String) : List Sketch := if text.isEmpty then [] else [.text text]

/-- Model of `icon`: an image with a text in `title` and `alt`, as far as there is one. -/
def icon (source className title : String) : Element (Option Slot) Handler :=
  let e := (styled "img" className).setAttribute "src" source
  if title.isEmpty then e else (e.setAttribute "title" title).setAttribute "alt" title

/-- The class of icons that delete, remove or close. -/
def deleteClass : String := "delete_icon button"

/-- Model of `guarded_control`: makes an element a control that posts a message when it is clicked;
`latched` tells which controls wait for an answer. -/
def controlled (e : Element (Option Slot) Handler) (c : Control) (latched : Control → Bool)
    (message : Message) (question : Option String) : Element (Option Slot) Handler :=
  let e := if latched c then e.setDisabled true else e
  inSlot (on e "click" (.control message question)) (.control c)

/-- Model of `append_label`: an icon, a name that opens the property panel, and the id. -/
def label (source nameClass name id : String) (target : Target) : List Sketch :=
  [.element (icon source "typeIcon" "") [],
    .element (on (styled "b" nameClass) "click" (.post (.editProperties target)))
      (textNodes name),
    .element (styled "span" "id") (textNodes (" [" ++ id ++ "]"))]

/-- The block that `append_group_element` builds, which users can be dropped on. -/
def groupBlock (latched : Control → Bool) (g : Group) : Sketch :=
  let e := Entity.group g
  let root := styled "div" ("nested top group " ++ g.id ++ "_")
  let root := on (on (on root "dragover" .hover) "dragleave" .leave) "drop" (.dropOn g.id)
  .element (inSlot root (.group g.id)) <|
    label "icon/group.png" "name" g.name g.id ⟨e.ref, none⟩ ++
    [.element (controlled (icon "icon/group_delete.png" deleteClass ("Delete Group " ++ g.id))
      (.delete e.ref) latched (.requestDelete e) (some ("Delete group '" ++ g.name ++ "'?"))) []]

/-- The block that `append_user_element` builds for a member of a group, with an icon that ends the
membership. -/
def memberBlock (groupId : String) (u : User) : Sketch :=
  .element (inSlot (styled "div" ("nested user " ++ u.id ++ "_")) (.member groupId u.id)) <|
    label "icon/user.png" "realName" u.displayName u.id ⟨⟨u.id, .user⟩, some groupId⟩ ++
    [.element (on (icon "icon/user_delete.png" deleteClass
        ("Remove user " ++ u.id ++ " from group " ++ groupId))
      "click" (.post (.removeUser u.id groupId))) []]

/-- The block that `append_user_element` builds for the list of users, which `make_draggable` lets
be dragged. -/
def userBlock (latched : Control → Bool) (u : User) : Sketch :=
  let e := Entity.user u
  let root := (styled "div" ("nested user " ++ u.id ++ "_")).setAttribute "draggable" "true"
  .element (inSlot (on root "dragstart" (.carryUser u.id)) (.user u.id)) <|
    label "icon/user.png" "realName" u.displayName u.id ⟨e.ref, none⟩ ++
    [.element (controlled (icon "icon/delete.png" deleteClass ("Delete user " ++ u.id))
      (.delete e.ref) latched (.requestDelete e)
      (some ("Delete user '" ++ u.displayName ++ "'?"))) []]

/-- Model of `add_button`, made a control: a button with an icon and a caption. -/
def addButton (className source caption : String) (c : Control) (latched : Control → Bool)
    (message : Message) : Sketch :=
  .element (controlled (styled "button" (className ++ " button")) c latched message none)
    [.element (icon source "" caption) [], .text (" " ++ caption)]

/-- The button at the end of `render_groups`. -/
def addGroupButton (latched : Control → Bool) : Sketch :=
  addButton "add_group_icon" "icon/group_add.png" "Add Group" .addGroup latched
    .requestCreateGroup

/-- The button at the end of `render_users`. -/
def addUserButton (latched : Control → Bool) : Sketch :=
  addButton "add_user_icon" "icon/user_add.png" "Add User" .addUser latched .requestCreateUser

/-! ## The property panel -/

/-- The constant `READ_ONLY_KEYS`: properties that are shown but cannot be changed. -/
def isReadOnly (key : String) : Bool := key == "id" || key == "type"

/-- Model of `property_row`: its key, and its value as a text or in a field. -/
def propertyRow (id : String) (property : String × Json.Value) : Sketch :=
  let shown := property.2.display
  .element (plain "tr")
    [.element (styled "td" "key") (textNodes property.1),
      .element (styled "td" "value") <|
        if isReadOnly property.1 then textNodes shown
        else
          let field := (plain "input").setAttribute "name" property.1
          [.element (on (field.fill shown) "change" (.commit id property.1)) []]]

/-- The panel that `render_properties` builds: an icon that closes it, and a row for each property
once they are known. -/
def propertyPanel (e : Editor) : Sketch :=
  .element (styled "div" "properties")
    [.element (on (icon "icon/delete.png" deleteClass "Close properties") "click"
        (.post (.editProperties e.target))) [],
      match e.properties with
      | none => .element (styled "span" "loading") [.text "Loading..."]
      | some properties =>
        .element (plain "table") (properties.entries.map (propertyRow e.target.entity.id))]

end Sketch

end RosterPanel
