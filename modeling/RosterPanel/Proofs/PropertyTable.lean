import RosterPanel.Proofs.Json.Reading
import RosterPanel.Proofs.MountedRun
import RosterPanel.Proofs.Outgoing
import RosterPanel.Proofs.Separation

/-!
# The property table

The table on the page and the properties that the panel knows: a row for each property, and a field
in it unless the property cannot be changed. Results:

* `Json.Value.ShownAs`, `Json.Value.shownAs_display`: what is shown of a value is `""` for `null`,
  `s` for a string `s`, and for all else a JSON text that is read back as the value.
* `ShowsProperty`: a row of the table shows a property.
* `App.Commits`: what is put into a field and committed is the update of one property.
* `App.Tabulates`: the table on the page, with all that gestures in the property panel can send.
* `App.tabulates_afterStart`: whatever happens, the table of `render_properties` is on the page once
  the properties are known, as long as the block of the target is.
-/

namespace RosterPanel

open Page (Document Element Node)
open Page.Document (hasMark)
open Page.Node (Like LikeAll)

/-! ## Values -/

namespace Json.Value

/-- All numbers in a value are whole and in the range `-2^63 ≤ i < 2^64`. -/
def IsWhole (v : Value) : Prop :=
  ∀ n, Token.number (some n) ∈ v.tokens → ∃ i : Int, n = .integer i ∧ -2 ^ 63 ≤ i ∧ i < 2 ^ 64

/-- A text shows a value: a string bare, `null` as nothing, and all else as JSON. -/
structure ShownAs (v : Value) (text : String) : Prop where
  null : v = .null → text = ""
  string : ∀ s, v = .string s → text = s
  /-- The text is read back as the value, with each number as its own text is read. -/
  json : v ≠ .null → (∀ s, v ≠ .string s) → Raw.ofText? text = some (Raw.reread v)
  /-- It is read back as the value itself if all numbers are whole and in range. -/
  whole : v ≠ .null → (∀ s, v ≠ .string s) → v.IsWhole → Raw.ofText? text = some (Raw.ofValue v)
  /-- The text of a number stands for it: a double is the one that the decimal rounds to. -/
  number : ∀ n, v = .number n →
    ∃ numeral, Numeral.ofChars? text.toList = some numeral ∧ numeral.Denotes n

theorem IsWhole.exact {v : Value} (h : v.IsWhole) : v.Exact := by
  intro n hn
  obtain ⟨i, rfl, hrange⟩ := h n hn
  exact Number.reread_integer hrange

/-- The text that `display` gives shows the value. -/
theorem shownAs_display (v : Value) : v.ShownAs v.display := by
  have htext : v ≠ .null → (∀ s, v ≠ .string s) → v.display = v.text := by
    intro hnull hstring
    cases v with
    | null => exact absurd rfl hnull
    | string s => exact absurd rfl (hstring s)
    | _ => rfl
  refine ⟨?_, ?_, fun hnull hstring => ?_, fun hnull hstring hwhole => ?_, ?_⟩
  · rintro rfl
    rfl
  · rintro s rfl
    rfl
  · rw [htext hnull hstring, Raw.ofText?_text]
  · rw [htext hnull hstring, Raw.ofText?_text_of_exact hwhole.exact]
  · rintro n rfl
    obtain ⟨s, hchars, hdenotes⟩ := n.exists_spelling
    have hdisplay : (Value.number n).display.toList = n.chars := by
      rw [htext (by simp) (by simp), text, String.toList_ofList]
      exact List.append_nil _
    exact ⟨s.numeral, by rw [hdisplay, ← hchars, s.ofChars?_chars], hdenotes⟩

end Json.Value

/-! ## Rows -/

namespace Page.Node

variable {M H : Type}

/-- The input fields in a tree. -/
def fields (node : Node M H) : List (Element M H) := node.selves.filter (·.isField)

end Page.Node

/-- A row of a table shows a property: its key in one cell, and its value in another, as a text for
`id` and `type` and else in the only field of the row. A field shows the value as long as no text
was put into it. -/
structure ShowsProperty (typed : List Nat) (property : String × Json.Value)
    (row : Node Nat Handler) : Prop where
  cells : ∃ self key value content,
    row = .element self [.element key (Node.texts property.1), .element value content] ∧
      self.tag = "tr" ∧ key.tag = "td" ∧ value.tag = "td" ∧
        (property.1 ∈ ["id", "type"] → content = Node.texts property.2.display)
  readOnly : property.1 ∈ ["id", "type"] → row.fields = []
  editable : property.1 ∉ ["id", "type"] → ∃ field, row.fields = [field] ∧
    field.attribute? "name" = some property.1 ∧
      (field.mark ∉ typed → field.fieldText? = some property.2.display)
  shown : property.2.ShownAs property.2.display

namespace Sketch

theorem isReadOnly_iff {key : String} : isReadOnly key = true ↔ key ∈ ["id", "type"] := by
  simp [isReadOnly]

/-- The field of a property that can be changed. -/
def propertyField (id : String) (property : String × Json.Value) :
    Element (Option Slot) Handler :=
  on (((plain "input").setAttribute "name" property.1).fill property.2.display) "change"
    (.commit id property.1)

theorem propertyField_spec (id : String) (property : String × Json.Value) :
    (propertyField id property).tag = "input" ∧
      (propertyField id property).attribute? "name" = some property.1 ∧
        (propertyField id property).value = some property.2.display ∧
          (propertyField id property).listeners = [⟨"change", .commit id property.1⟩] := by
  refine ⟨rfl, ?_, rfl, rfl⟩
  show Element.attribute? (Element.setAttribute _ "name" _) "name" = _
  rw [Element.attribute?_setAttribute, if_pos rfl]

theorem propertyRow_eq (id : String) (property : String × Json.Value) :
    propertyRow id property = .element (plain "tr")
      [.element (styled "td" "key") (textNodes property.1),
        .element (styled "td" "value") (if isReadOnly property.1 then
          textNodes property.2.display else [.element (propertyField id property) []])] := rfl

end Sketch

section Row

variable {typed : List Nat} {id : String} {property : String × Json.Value} {row : Node Nat Handler}

/-- What a row is that is drawn for a property. -/
theorem exists_row (h : Like (Resembles typed) row (Sketch.propertyRow id property)) :
    ∃ self key value content,
      row = .element self [.element key (Node.texts property.1), .element value content] ∧
      Resembles typed self (Sketch.plain "tr") ∧ Resembles typed key (Sketch.styled "td" "key") ∧
      Resembles typed value (Sketch.styled "td" "value") ∧
      (property.1 ∈ ["id", "type"] → content = Node.texts property.2.display) ∧
      (property.1 ∉ ["id", "type"] → ∃ field, content = [.element field []] ∧
        Resembles typed field (Sketch.propertyField id property)) := by
  rw [Sketch.propertyRow_eq] at h
  cases h with
  | element hself hcells =>
    cases hcells with
    | cons hkey hrest =>
      cases hkey with
      | element hkey hname =>
        cases hrest with
        | cons hvalue hnil =>
          cases hvalue with
          | element hvalue hcontent =>
            cases hnil
            obtain rfl := texts_of_like hname
            refine ⟨_, _, _, _, rfl, hself, hkey, hvalue, fun hread => ?_, fun hread => ?_⟩
            · rw [if_pos (Sketch.isReadOnly_iff.2 hread)] at hcontent
              exact texts_of_like hcontent
            · rw [if_neg (Sketch.isReadOnly_iff.not.2 hread)] at hcontent
              cases hcontent with
              | cons hfield hnone =>
                cases hnone
                cases hfield with
                | element hfield hempty =>
                  cases hempty
                  exact ⟨_, rfl, hfield⟩

theorem showsProperty_of_like (h : Like (Resembles typed) row (Sketch.propertyRow id property)) :
    ShowsProperty typed property row := by
  obtain ⟨self, key, value, content, rfl, hself, hkey, hvalue, htext, hfield⟩ := exists_row h
  have hplain : self.isField = false ∧ key.isField = false ∧ value.isField = false := by
    simp only [Element.isField, hself.tag, hkey.tag, hvalue.tag]
    decide
  have hfields : Node.fields (.element self [.element key (Node.texts property.1),
      .element value content]) = (content.flatMap Node.selves).filter (·.isField) := by
    simp [Node.fields, hplain]
  refine ⟨⟨self, key, value, content, rfl, hself.tag, hkey.tag, hvalue.tag, htext⟩,
    fun hread => ?_, fun hread => ?_, property.2.shownAs_display⟩
  · rw [hfields, htext hread, Node.selves_texts, List.filter_nil]
  · obtain ⟨field, rfl, hsame⟩ := hfield hread
    obtain ⟨htag, hname, hvalue, -⟩ := Sketch.propertyField_spec id property
    have hinput : field.isField = true := by rw [Element.isField, hsame.tag, htag]; rfl
    refine ⟨field, by rw [hfields]; simp [hinput], ?_, fun hfresh => ?_⟩
    · rw [hsame.attributes "name" (by decide), hname]
    · rw [Element.fieldText?, if_pos hinput, hsame.value hfresh, hvalue]
      rfl

end Row

/-! ## The property panel -/

namespace Sketch

/-- The table of a property panel, once properties are known. -/
theorem propertyPanel_eq {e : Editor} {properties : Properties}
    (h : e.properties = some properties) :
    propertyPanel e = .element (styled "div" "properties")
      [.element (on (icon "icon/delete.png" deleteClass "Close properties") "click"
          (.post (.editProperties e.target))) [],
        .element (plain "table")
          (properties.entries.map (propertyRow e.target.entity.id))] := by
  rw [propertyPanel, h]

/-- The elements of a row: only the field of a property that can be changed has a listener. -/
theorem mem_selves_propertyRow {id : String} {property : String × Json.Value}
    {s : Element (Option Slot) Handler} (hs : s ∈ (propertyRow id property).selves) :
    s.tag ≠ "table" ∧ (s.listeners = [] ∨ property.1 ∉ ["id", "type"] ∧
      s.listeners = [⟨"change", .commit id property.1⟩]) := by
  rw [propertyRow_eq] at hs
  simp only [Node.selves_element, List.flatMap_cons, List.flatMap_nil, List.append_nil,
    List.cons_append, flatMap_selves_textNodes, List.nil_append, List.mem_cons] at hs
  rcases hs with rfl | rfl | rfl | hs
  · exact ⟨by decide, Or.inl rfl⟩
  · exact ⟨by decide, Or.inl rfl⟩
  · exact ⟨by decide, Or.inl rfl⟩
  · split at hs
    · rw [flatMap_selves_textNodes] at hs
      cases hs
    · next hread =>
      obtain rfl : s = propertyField id property := by simpa using hs
      obtain ⟨htag, -, -, hlisteners⟩ := propertyField_spec id property
      exact ⟨by rw [htag]; decide, Or.inr ⟨isReadOnly_iff.not.1 hread, hlisteners⟩⟩

end Sketch

/-- A request updates no property but those of an entity that can be changed, one at a time. -/
def Request.Spares (id : String) (properties : Properties) (r : Request) : Prop :=
  r.verb = .update → ∃ key value, key ∉ ["id", "type"] ∧ (properties.find? key).isSome ∧
    r = .updateProperty id key value

namespace Sketch

/-- What the listeners of the property panel ask for. -/
theorem asksOnly_propertyPanel {e : Editor} {properties : Properties}
    (h : e.properties = some properties) {s : Element (Option Slot) Handler}
    (hs : s ∈ (propertyPanel e).selves) :
    ∀ l ∈ s.listeners, l.handler.AsksOnly (Request.Spares e.target.entity.id properties) := by
  intro l hl
  rw [propertyPanel_eq h] at hs
  simp only [Node.selves_element, List.flatMap_cons, List.flatMap_nil, List.append_nil,
    List.cons_append, List.nil_append, List.mem_cons, List.mem_flatMap, List.mem_map] at hs
  rcases hs with rfl | rfl | rfl | ⟨row, ⟨property, hproperty, rfl⟩, hs⟩
  · cases hl
  · obtain rfl : l = ⟨"click", .post (.editProperties e.target)⟩ := by simpa using hl
    have hposts : (Handler.post (.editProperties e.target)).AsksOnly (·.verb ≠ .update) :=
      Handler.asksOnly_of_not_updates trivial rfl
    exact hposts.mono fun r hr hverb => absurd hverb hr
  · cases hl
  · rcases (mem_selves_propertyRow hs).2 with hnone | ⟨hread, hsome⟩
    · rw [hnone] at hl
      cases hl
    · rw [hsome, List.mem_singleton] at hl
      rw [hl]
      refine (Handler.asksOnly_commit e.target.entity.id property.1).mono ?_
      rintro r ⟨value, rfl⟩ -
      refine ⟨property.1, value, hread, ?_, rfl⟩
      rw [properties.mem_entries.1 hproperty]
      rfl

end Sketch

/-! ## Committing a field -/

namespace App

variable {a : App}

/-- Putting a text into a field changes nothing about what is heard. -/
theorem heard_fill (hsound : a.shell.document.Sound) (n : Nat) (text : String) (m : Nat)
    (event : String) : (a.fill n text).heard m event = a.heard m event := by
  have hresponses : ∀ e : Element Nat Handler,
      (if e.mark = n then e.fill text else e).responses event = e.responses event := by
    intro e
    split
    · rw [Element.responses, e.listeners_fill, e.mark_fill, Element.responses]
    · rfl
  show ((a.shell.document.adjustElement n (Element.fill text)).path m).flatMap _ = _
  rw [hsound.path_adjustElement (Element.mark_fill text), List.flatMap_map]
  exact List.flatMap_congr fun e _ => hresponses e

/-- A field has the text that has been put into it. -/
theorem element?_fill (hsound : a.shell.document.Sound) {e : Element Nat Handler}
    (he : e ∈ a.shell.document.trees.flatMap Node.selves) (text : String) :
    (a.fill e.mark text).shell.document.element? e.mark = some (e.fill text) := by
  have hmem : e.fill text ∈ (a.fill e.mark text).shell.document.trees.flatMap Node.selves := by
    show _ ∈ (a.shell.document.adjustElement e.mark (Element.fill text)).trees.flatMap _
    rw [hsound.trees_adjustElement, List.flatMap_map]
    obtain ⟨tree, htree, he⟩ := List.mem_flatMap.1 he
    refine List.mem_flatMap.2 ⟨tree, htree, ?_⟩
    rw [Node.selves_mapSelf]
    exact List.mem_map.2 ⟨e, he, if_pos rfl⟩
  have hfound := (hsound.adjustElement e.mark (Element.mark_fill text)).element?_of_mem
    (e := e.fill text) (List.mem_flatMap.2 ?_)
  · rwa [e.mark_fill] at hfound
  · obtain ⟨tree, htree, hin⟩ := List.mem_flatMap.1 hmem
    exact ⟨tree, List.mem_append_left _ htree, hin⟩

/-- A text that is put into an element and committed is the update of a property: that is the one
message that the panel gets, and the one command that goes out, by whichever socket commands go
out. -/
def Commits (a : App) (n : Nat) (id key : String) : Prop :=
  ∀ text, ∀ g : Gesture, g.event = "change" →
    ((a.fill n text).fire n g).app = (a.fill n text).post (.updateProperty id key text) ∧
      ∀ s, a.shell.Wired s → (a.fill n text).Sends s n g [.updateProperty id key text]

/-- A field commits if its own listener is all that hears of changes there. -/
theorem commits_of_heard (hsound : a.shell.document.Sound) {e : Element Nat Handler}
    (he : e ∈ a.shell.document.trees.flatMap Node.selves) (hfield : e.isField = true)
    {id key : String} (hheard : a.heard e.mark "change" = [(e.mark, .commit id key)]) :
    a.Commits e.mark id key := by
  intro text g hg
  have htext : (e.fill text).fieldText? = some text := by
    rw [Element.fill, if_pos hfield]
    exact if_pos hfield
  have hfire : ((a.fill e.mark text).fire e.mark g).app =
      (a.fill e.mark text).post (.updateProperty id key text) := by
    have hkind : g.kind.isA EventKind.event = true := by cases g.kind <;> rfl
    have hself : Firing.element? e.mark { app := a.fill e.mark text, transfer := g.transfer } =
        some (e.fill text) := element?_fill hsound he text
    rw [← heard_fill hsound e.mark text, ← hg] at hheard
    rw [fire_of_heard hheard]
    simp only [Firing.handle, Handler.kind, hkind, hself, Option.bind_some, htext, Firing.post,
      Bool.not_true, Bool.false_eq_true, if_false]
  refine ⟨hfire, fun s hwired => ?_⟩
  exact sends_of_post hfire rfl rfl (hwired.of_wire rfl) (by simp) rfl

/-! ## The table on the page -/

end App

/-- An element on the page is remembered under a slot. -/
def Shell.ShowsAt (s : Shell) (slot : Slot) (n : Nat) : Prop :=
  ∃ c, s.canvas? = some c ∧ c.slot? slot = some n ∧ n ∈ c.shown

namespace App

variable {a : App}

/-- The table for the properties of an editor is on the page of an application: below the element
with the number `anchor` hangs the property panel, and in it the only table of the page, old ones
aside. -/
structure Tabulates (tables typed : List Nat) (a : App) (e : Editor) (properties : Properties)
    (anchor : Nat) (panel : Node Nat Handler) (rows : List (Node Nat Handler)) : Prop where
  mounted : ∃ tree ∈ a.shell.document.trees, Node.Hangs anchor panel tree
  table : ∃ root close table,
    panel = .element root [.element close [], .element table rows] ∧ table.tag = "table" ∧
      ∀ x ∈ a.shell.document.trees.flatMap Node.selves, x.tag = "table" →
        x = table ∨ x.mark ∈ tables
  /-- Keys are in ascending order, and so no two are the same. -/
  keys : properties.keys.Pairwise (· < ·)
  /-- There is one row for each key, and it shows the property. -/
  shows : List.Forall₂ (ShowsProperty typed) properties.entries rows
  /-- What is put into the field in the row of a key and committed is the update of that key. -/
  commits : List.Forall₂
    (fun key (row : Node Nat Handler) =>
      ∀ field ∈ row.fields, a.Commits field.mark e.target.entity.id key)
    properties.keys rows
  /-- No gesture on anything in the property panel sends another update. -/
  spares : ∀ n ∈ panel.marks, ∀ g,
    a.shell.SendsOnly (Request.Spares e.target.entity.id properties) (a.fire n g).app.shell

/-- What the property panel consists of once properties are known. -/
theorem exists_table {typed : List Nat} {e : Editor} {properties : Properties}
    (hproperties : e.properties = some properties) {t : Node Nat Handler}
    (h : Like (Resembles typed) t (Sketch.propertyPanel e)) :
    ∃ root close table rows, t = .element root [.element close [], .element table rows] ∧
      Resembles typed root (Sketch.styled "div" "properties") ∧
      close.tag = "img" ∧ Resembles typed table (Sketch.plain "table") ∧
      List.Forall₂ (fun property row =>
          Like (Resembles typed) row (Sketch.propertyRow e.target.entity.id property))
        properties.entries rows := by
  rw [Sketch.propertyPanel_eq hproperties] at h
  cases h with
  | element hroot hparts =>
    cases hparts with
    | cons hclose hrest =>
      cases hclose with
      | element hclose hnone =>
        cases hnone
        cases hrest with
        | cons htable hnil =>
          cases htable with
          | element htable hrows =>
            cases hnil
            refine ⟨_, _, _, _, rfl, hroot, hclose.tag.trans (Sketch.tag_icon _ _ _), htable, ?_⟩
            rw [List.forall₂_map_right_iff] at hrows
            exact hrows.flip

namespace Holds

variable {tables typed : List Nat} {e : Editor} {properties : Properties} {c : Canvas}
  {anchor : Nat} {t : Node Nat Handler}

/-- No gesture in the property panel sends an update but of a property that can be changed. -/
theorem sendsOnly_of_carries (htame : a.shell.Tame) (hproperties : e.properties = some properties)
    (hc : a.shell.canvas? = some c) {away : List Nat} {editor : Option Editor}
    (hheld : c.Holds tables typed away editor) (ht : c.Carries typed away e anchor t) {n : Nat}
    (hn : n ∈ t.marks) (g : Gesture) :
    a.shell.SendsOnly (Request.Spares e.target.entity.id properties) (a.fire n g).app.shell := by
  have hdocument := (Shell.canvas?_eq_some_iff.1 hc).2.2
  obtain ⟨around, hpath, haround⟩ := hheld.exists_path ht hn
  rw [hdocument] at hpath
  refine sendsOnly_fire htame fun l hl => ?_
  obtain ⟨x, hx, hl⟩ := List.mem_flatMap.1 hl
  obtain ⟨listener, hlistener, rfl⟩ := List.mem_map.1 hl
  have hlistener := (List.mem_filter.1 hlistener).1
  have hposts := htame.path hx listener hlistener
  rw [hpath, List.mem_append] at hx
  rcases hx with hx | hx
  · obtain ⟨s, hs, hres⟩ := Node.exists_of_forall₂_left ht.like.selves
      (Node.mem_selves_of_mem_pathTo hx)
    exact Sketch.asksOnly_propertyPanel hproperties hs listener (hres.listeners ▸ hlistener)
  · have hspared := Handler.asksOnly_of_not_updates hposts ((haround x hx).2 listener hlistener).2
    exact hspared.mono fun r hr hverb => absurd hverb hr

/-- The field in a row of the table is all that hears of changes there. -/
theorem heard_field (hc : a.shell.canvas? = some c) {away : List Nat} {editor : Option Editor}
    (hheld : c.Holds tables typed away editor) {root close table : Element Nat Handler}
    {rows : List (Node Nat Handler)}
    (ht : c.Carries typed away e anchor (.element root [.element close [], .element table rows]))
    {self value field : Element Nat Handler} {cell : Node Nat Handler}
    (hrow : .element self [cell, .element value [.element field []]] ∈ rows)
    (hsilent : ∀ x ∈ [value, self, table, root], x.listeners = []) {id key : String}
    (hfield : field.listeners = [⟨"change", .commit id key⟩]) :
    a.heard field.mark "change" = [(field.mark, .commit id key)] := by
  obtain ⟨i, hi⟩ := List.mem_iff_getElem?.1 hrow
  have hplace : Node.below? [1, i, 1, 0]
      (Node.element root [.element close [], .element table rows]) =
        some (.element field []) := by
    simp [Node.below?, Node.children, hi]
  have habove : Node.above [1, i, 1, 0]
      (Node.element root [.element close [], .element table rows]) =
        [value, self, table, root] := by
    simp [Node.above, Node.children, Node.element?, hi]
  have hfirst : (Node.element field []).pathTo (hasMark field.mark) = [field] := by
    simp [Node.pathTo, Document.hasMark]
  obtain ⟨around, hpath, haround⟩ := hheld.exists_path_below ht hplace (n := field.mark) (by simp)
  have hdeaf : ∀ x ∈ [value, self, table, root] ++ around, x.Deaf "change" := by
    intro x hx
    rcases List.mem_append.1 hx with hx | hx
    · rw [Element.Deaf, hsilent x hx]
      exact List.forall_mem_nil _
    · exact fun l hl => ((haround x hx).2 l hl).1
  rw [heard, ← (Shell.canvas?_eq_some_iff.1 hc).2.2, hpath, hfirst, habove, List.append_assoc,
    List.singleton_append, List.flatMap_cons, Element.flatMap_responses_of_deaf hdeaf,
    List.append_nil, Element.responses, hfield]
  rfl

/-- The field in the row of a property commits that property. -/
theorem commits_of_carries (hc : a.shell.canvas? = some c) {away : List Nat}
    {editor : Option Editor} (hheld : c.Holds tables typed away editor)
    {root close table : Element Nat Handler} {rows : List (Node Nat Handler)}
    (ht : c.Carries typed away e anchor (.element root [.element close [], .element table rows]))
    (hroot : root.listeners = []) (htable : table.listeners = []) {row : Node Nat Handler}
    (hrow : row ∈ rows) {id : String} {property : String × Json.Value}
    (hlike : Like (Resembles typed) row (Sketch.propertyRow id property))
    {field : Element Nat Handler} (hfield : field ∈ row.fields) :
    a.Commits field.mark id property.1 := by
  have hdocument := (Shell.canvas?_eq_some_iff.1 hc).2.2
  have hshows := showsProperty_of_like hlike
  have hshown : field ∈ a.shell.document.trees.flatMap Node.selves := by
    obtain ⟨tree, htree, hhangs⟩ := ht.hangs
    refine List.mem_flatMap.2 ⟨tree, hdocument ▸ htree, hhangs.selves_subset ?_⟩
    simp only [Node.selves_element, List.flatMap_cons, List.flatMap_nil, List.append_nil,
      List.cons_append, List.nil_append, List.mem_cons, List.mem_flatMap]
    exact Or.inr (Or.inr (Or.inr ⟨row, hrow, List.mem_of_mem_filter hfield⟩))
  obtain ⟨self, key, value, content, rfl, hself, -, hvalue, -, heditable⟩ := exists_row hlike
  by_cases hread : property.1 ∈ ["id", "type"]
  · rw [hshows.readOnly hread] at hfield
    cases hfield
  obtain ⟨only, honly, -⟩ := hshows.editable hread
  obtain ⟨inner, rfl, hinner⟩ := heditable hread
  obtain ⟨htag, -, -, hlisteners⟩ := Sketch.propertyField_spec id property
  have hinput : inner.isField = true := by rw [Element.isField, hinner.tag, htag]; rfl
  have hmem : inner ∈ Node.fields (.element self [.element key (Node.texts property.1),
      .element value [.element inner []]]) := List.mem_filter.2 ⟨by simp, hinput⟩
  rw [honly, List.mem_singleton] at hmem hfield
  obtain rfl : field = inner := hfield.trans hmem.symm
  have hsilent : ∀ x ∈ [value, self, table, root], x.listeners = [] := by
    simpa only [List.forall_mem_cons] using
      ⟨hvalue.listeners, hself.listeners, htable, hroot, List.forall_mem_nil _⟩
  exact commits_of_heard (hdocument ▸ hheld.orderly.sound) hshown hinput
    (heard_field hc hheld ht hrow hsilent (hinner.listeners.trans hlisteners))

/-- The table is the only one on the page, old ones aside. -/
theorem eq_table {away : List Nat} {editor : Option Editor}
    (hheld : c.Holds tables typed away editor) {root close table : Element Nat Handler}
    {rows : List (Node Nat Handler)}
    (ht : c.Carries typed away e anchor (.element root [.element close [], .element table rows]))
    (hroot : root.tag ≠ "table") (hclose : close.tag ≠ "table")
    (hrows : ∀ row ∈ rows, ∀ x ∈ row.selves, x.tag ≠ "table") {x : Element Nat Handler}
    (hx : x ∈ c.document.trees.flatMap Node.selves) (htag : x.tag = "table") :
    x = table ∨ x.mark ∈ tables := by
  by_contra hother
  have hforeign := hheld.foreign_of_notMem ht hx fun hmem => ?_
  · exact hother (Or.inr (hforeign.1 htag))
  simp only [Node.selves_element, List.flatMap_cons, List.flatMap_nil, List.append_nil,
    List.cons_append, List.nil_append, List.mem_cons, List.mem_flatMap] at hmem
  rcases hmem with rfl | rfl | rfl | ⟨row, hrow, hx⟩
  · exact hroot htag
  · exact hclose htag
  · exact hother (Or.inl rfl)
  · exact hrows row hrow x hx htag

/-- The table is on the page if its properties are known and the block of its target is there. -/
theorem tabulates (h : a.Holds tables typed) (heditor : a.panel.editor = some e)
    (hproperties : e.properties = some properties)
    (hanchor : a.shell.ShowsAt (Slot.ofTarget e.target) anchor) :
    ∃ panel rows, Tabulates tables typed a e properties anchor panel rows := by
  obtain ⟨c, hc, hslot, hshown⟩ := hanchor
  have hdocument := (Shell.canvas?_eq_some_iff.1 hc).2.2
  have hheld := h.shell c hc
  obtain ⟨t, ht⟩ := hheld.carries e anchor heditor hslot hshown
  obtain ⟨root, close, table, rows, rfl, hroot, hclose, htable, hrows⟩ :=
    exists_table hproperties ht.like
  refine ⟨_, rows, hdocument ▸ ht.hangs, ⟨root, close, table, rfl, htable.tag, ?_⟩, ?_, ?_, ?_,
    fun n hn g => sendsOnly_of_carries h.tame hproperties hc hheld ht hn g⟩
  · rw [← hdocument]
    refine fun x hx => eq_table hheld ht ?_ ?_ (fun row hrow y hy htag => ?_) hx
    · rw [hroot.tag]
      decide
    · rw [hclose]
      decide
    · obtain ⟨property, -, hlike⟩ := Node.exists_of_forall₂_right hrows hrow
      obtain ⟨s, hs, hres⟩ := Node.exists_of_forall₂_left hlike.selves hy
      exact (Sketch.mem_selves_propertyRow hs).1 (hres.tag.symm.trans htag)
  · exact List.pairwise_map.2 properties.ascending
  · exact hrows.imp fun _ _ hlike => showsProperty_of_like hlike
  · rw [Table.keys, List.forall₂_map_left_iff]
    exact Node.forall₂_imp_of_mem hrows fun property _ row hrow hlike field hfield =>
      commits_of_carries hc hheld ht hroot.listeners htable.listeners hrow hlike hfield

end Holds

/-- After `start` and any happenings, when the property panel is open with properties and the block
of its target is on the page: below that block is the one table that was not there before `start`,
with a row of `property_row` for each property, in ascending order of keys, whose field, or cell for
`id` and `type`, shows the value as `ShownAs` says (`""` for `null`, a string bare, else a JSON text
of it). Committing a text in a field sends the one `update_property` of that key, and no gesture on
the panel sends another UPDATE. -/
theorem tabulates_afterStart {d : Document Handler} (hsound : d.Sound) (hsilent : d.Silent)
    (words : Words) (b : Browser) (htimers : b.timers = []) (endpoint : Option Endpoint)
    (xs : List Happening) {e : Editor} {properties : Properties} {anchor : Nat}
    (heditor : (afterStart words b d endpoint xs).panel.editor = some e)
    (hproperties : e.properties = some properties)
    (hanchor : (afterStart words b d endpoint xs).shell.ShowsAt (Slot.ofTarget e.target) anchor) :
    ∃ panel rows, Tabulates d.numbers (xs.filterMap Happening.filled?)
      (afterStart words b d endpoint xs) e properties anchor panel rows :=
  (holds_afterStart hsound hsilent words b htimers endpoint xs).tabulates heditor hproperties
    hanchor

/-- A group is listed, its label is clicked, and the backend answers with three properties: the
field of the first shows `red`, there is none for the second, and that of the third shows `42`. -/
theorem tabulates_afterStart_clicked :
    let b : Browser := { host := some "panel", protocol := some "http:" }
    let listing : Frame := ⟨.list, none, none, none, none, none,
      some [(Entity.group ⟨"1", "Staff"⟩).json]⟩
    let properties : Properties :=
      (((∅ : Properties).insert "id" (.string "1")).insert "color" (.string "red")).insert "size"
        (.number (.integer 42))
    let answer : Frame := ⟨.get, some "1", none, none, none, some (.ofTable properties), none⟩
    let click : Gesture := { event := "click", kind := .mouse }
    let e : Editor := ⟨⟨⟨"1", .group⟩, none⟩, some answer.properties⟩
    let a := afterStart { ahead := [] } b .blank none
      [.socket 0 .opened, .receive listing, .gesture 10 click, .receive answer]
    ((Document.blank : Document Handler).Sound ∧ (Document.blank : Document Handler).Silent ∧
        b.timers = []) ∧
      a.panel.editor = some e ∧ a.shell.ShowsAt (Slot.ofTarget e.target) 8 ∧ a.shell.Wired 0 ∧
        answer.properties.keys = ["color", "id", "size"] ∧
          ∃ panel rows, Tabulates (Document.blank : Document Handler).numbers [] a e
              answer.properties 8 panel rows ∧
            ∃ color id size c s, rows = [color, id, size] ∧
              color.fields = [c] ∧ c.attribute? "name" = some "color" ∧ c.fieldText? = some "red" ∧
              id.fields = [] ∧
              size.fields = [s] ∧ s.attribute? "name" = some "size" ∧ s.fieldText? = some "42" := by
  intro b listing properties answer click e a
  have hsound : (Document.blank : Document Handler).Sound := ⟨by decide, by decide⟩
  let asked := afterStart { ahead := [] } b .blank none
    [.socket 0 .opened, .receive listing, .gesture 10 click]
  have heditor : a.panel.editor = some e := by
    have hopen : asked.panel.editor.map (fun e => (e.target, e.properties.isNone)) =
        some (e.target, true) := by decide +kernel
    obtain ⟨e₀, he₀, heq⟩ := Option.map_eq_some_iff.1 hopen
    obtain ⟨htarget, -⟩ := Prod.mk.inj heq
    have hanswered : a = asked.post (.propertiesLoaded "1" answer.properties) := rfl
    have hsame := Panel.editor_eq_of_withoutLatches (withoutLatches_dispatch_of_ne Shell.host
      (m := .propertiesLoaded "1" answer.properties) nofun (asked.panel, asked.shell))
    rw [Panel.editor_react, he₀, Message.onEditor, Editor.shown, Option.map_some, htarget,
      if_pos rfl] at hsame
    rw [hanswered]
    exact hsame
  have hanchor : a.shell.ShowsAt (Slot.ofTarget e.target) 8 := by
    have hsome : a.shell.canvas?.isSome = true := by decide +kernel
    obtain ⟨c, hc⟩ := Option.isSome_iff_exists.1 hsome
    have hslot : a.shell.canvas?.bind (·.slot? (Slot.ofTarget e.target)) = some 8 := by
      decide +kernel
    have hshown : a.shell.canvas?.map (fun c => decide (8 ∈ c.shown)) = some true := by
      decide +kernel
    rw [hc] at hslot hshown
    exact ⟨c, hc, hslot, of_decide_eq_true (Option.some.inj hshown)⟩
  have hwired : a.shell.Wired 0 := by
    have hinstalled : a.shell.installed = some 0 := by decide +kernel
    have hlink : a.shell.network.links[0]?.map (fun l => (l.phase, l.socket)) =
        some (.connected, some 0) := by decide +kernel
    have hsocket : a.shell.browser.sockets[0]?.map (fun x => (x.sendErrors, x.sendError)) =
        some ([], none) := by decide +kernel
    obtain ⟨l, hl, heq⟩ := Option.map_eq_some_iff.1 hlink
    obtain ⟨x, hx, hwilling⟩ := Option.map_eq_some_iff.1 hsocket
    obtain ⟨hphase, hin⟩ := Prod.mk.inj heq
    obtain ⟨herrors, herror⟩ := Prod.mk.inj hwilling
    exact ⟨⟨0, l, hinstalled, hl, hphase, hin⟩, x, hx, by simp [herrors], herror⟩
  obtain ⟨panel, rows, htable⟩ :=
    tabulates_afterStart hsound Document.silent_blank _ b rfl none _ heditor rfl hanchor
  refine ⟨⟨hsound, Document.silent_blank, rfl⟩, heditor, hanchor, hwired, by decide +kernel,
    panel, rows, htable, ?_⟩
  have hentries : answer.properties.entries =
      [("color", .string "red"), ("id", .string "1"), ("size", .number (.integer 42))] := rfl
  have hshows := htable.shows
  rw [hentries] at hshows
  obtain ⟨color, behind, hcolor, hbehind, rfl⟩ := List.forall₂_cons_left_iff.1 hshows
  obtain ⟨id, last, hid, hlast, rfl⟩ := List.forall₂_cons_left_iff.1 hbehind
  obtain ⟨size, none, hsize, hnone, rfl⟩ := List.forall₂_cons_left_iff.1 hlast
  obtain rfl := List.forall₂_nil_left_iff.1 hnone
  obtain ⟨c, hc, hname, htext⟩ := hcolor.editable (by decide)
  obtain ⟨s, hs, hname', htext'⟩ := hsize.editable (by decide)
  have hforty : (Json.Value.number (.integer 42)).display = "42" := by decide +kernel
  exact ⟨color, id, size, c, s, rfl, hc, hname, htext List.not_mem_nil, hid.readOnly (by decide),
    hs, hname', by rw [htext' List.not_mem_nil, hforty]⟩

end App

end RosterPanel
