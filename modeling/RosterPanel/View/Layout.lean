import RosterPanel.View.Canvas

/-!
# Layout

The frame of the page: style sheets, the main area with its heading, and the containers for groups
and users. What the page already has is adopted as it is.
-/

namespace RosterPanel

open Page (Document Node)

/-- A rule of a style sheet. -/
structure StyleRule where
  selector : String
  declarations : String

namespace StyleRule

/-- The text of a style sheet, a line for each rule. -/
def sheet (rules : List StyleRule) : String :=
  "\n" ++ String.join (rules.map fun r => r.selector ++ "\x7b" ++ r.declarations ++ "\x7d\n")

end StyleRule

namespace Layout

/-- Puts a plain tree behind the children of an element. Gives the number of its root. -/
def put (d : Document Handler) (parent : Nat) (sketch : Sketch) : Nat × Document Handler :=
  let (node, entered) := d.enter sketch
  (d.fresh, entered.append parent (node.mapMark (·.2)))

def rootNumber? (tree : Option (Node Nat Handler)) : Option Nat :=
  (tree.bind Node.element?).map (·.mark)

/-- Model of `ensure_styles`: puts a style sheet on the page, unless one with its id is there: into
the head, or else into the body. None when there is neither. -/
def ensureStyles? (d : Document Handler) (id : String) (rules : List StyleRule) :
    Option (Document Handler) :=
  if (d.byId? id).isSome then some d
  else
    ((rootNumber? d.head).or (rootNumber? d.body)).map fun parent =>
      (put d parent (.element ((Sketch.plain "style").setAttribute "id" id)
        [.text (StyleRule.sheet rules)])).2

def styleId : String := "usergroup-admin-styles"

def styles : List StyleRule :=
  [⟨"#main", "display:flex;flex-wrap:wrap;gap:24px;font-family:Arial,Helvetica,sans-serif"⟩,
    ⟨"#main .header", "flex-basis:100%"⟩,
    ⟨".column", "flex:1;min-width:280px"⟩,
    ⟨".nested",
      "border:1px solid #cbd5e1;border-radius:4px;padding:6px 8px;margin:6px 0;background:#fff"⟩,
    ⟨".nested .nested", "margin-left:16px;background:#f8fafc"⟩,
    ⟨".user[draggable=true]", "cursor:move"⟩,
    ⟨".typeIcon", "vertical-align:middle;margin-right:4px"⟩,
    ⟨".delete_icon", "float:right;cursor:pointer"⟩,
    ⟨"b.name,b.realName", "cursor:pointer"⟩,
    ⟨".groupHover", "background:#dbeafe"⟩,
    ⟨".disabled", "opacity:.4;pointer-events:none"⟩,
    ⟨".properties", "margin-top:6px;border-top:1px dashed #cbd5e1;padding-top:4px"⟩,
    ⟨".properties td", "padding:2px 6px"⟩]

/-- The main area with its heading, as `create_base_ui` builds it. -/
def mainArea : Sketch :=
  .element ((Sketch.plain "div").setAttribute "id" "main")
    [.element (Sketch.styled "div" "header")
      [.element (Sketch.plain "h1") [.text "Users and Groups"]]]

/-- The main area, which is put into the body if it is missing; none when there is no body. -/
def ensureMain? (d : Document Handler) : Option (Nat × Document Handler) :=
  match d.byId? "main" with
  | some n => some (n, d)
  | none => (rootNumber? d.body).map fun parent => put d parent mainArea

/-- Model of `ensure_container`: a container, which is put into the main area if it is missing. -/
def ensureContainer (d : Document Handler) (main : Nat) (id : String) : Nat × Document Handler :=
  match d.byId? id with
  | some n => (n, d)
  | none => put d main (.element ((Sketch.styled "div" "column").setAttribute "id" id) [])

/-- What is said when the page has no body. -/
def noBody : String := "No body found"

/-- Model of `create_base_ui`: lays out the page. When it fails, what has been done so far stays. -/
def mount (d : Document Handler) : Except String View × Document Handler :=
  match ensureStyles? d styleId styles with
  | none => (.error noBody, d)
  | some d =>
    match ensureMain? d with
    | none => (.error noBody, d)
    | some (main, d) =>
      let (groups, d) := ensureContainer d main "groups"
      let (users, d) := ensureContainer d main "users"
      (.ok { groups, users }, d)

end Layout

end RosterPanel
