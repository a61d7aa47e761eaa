import RosterPanel.Proofs.Json.Written
import RosterPanel.Proofs.Wire

/-!
# Reading back what was written

Entities, references, verbs and requests are each written by one definition and read by another.
Results:

* `read_written`: entities, references, verbs and requests that describe an entity are read back as
  they were.
* `Request.ofRaw?_json`: reading a request is reading its body.
* `Description.ofRaw?_property`: what a single property is taken for where an entity may be
  described.
* `Command.reread_iff`: of the requests that the builders make, `from_str` gives back all as they
  were but those of `update_property`, unless the property is `type` and its value is not the name
  of a kind.
-/

namespace RosterPanel

open Json (Raw Record Textual Value Token)

theorem EntityKind.ofName?_name (k : EntityKind) : ofName? k.name = some k := by
  cases k <;> rfl

theorem Verb.ofRaw?_json (v : Verb) : ofRaw? (.ofValue v.json) = some v := by
  cases v <;> rfl

theorem Verb.ofText?_json (v : Verb) : ofText? v.json.text = some v := by
  rw [ofText?, json, Raw.ofText?_text_of_exact (Value.exact_string v.name)]
  exact v.ofRaw?_json

/-! ## Entities -/

namespace Group

theorem textual_fields (g : Group) : Textual g.fields := by
  simp [Textual, fields]

theorem ofRaw?_json (g : Group) : ofRaw? (.ofValue g.json) = some g := by
  have hnames : (g.fields.map (·.1)).Sublist ["id", "name"] := List.Sublist.refl _
  rw [ofRaw?, json, Raw.record?_object_of_sublist (by decide) 1 hnames]
  rfl

end Group

namespace User

theorem fields_eq (u : User) :
    u.fields = [("id", .string u.id), ("name", .string u.name)] ++
      (u.realName.map fun real => ("realName", .string real)).toList := by
  rw [fields, Option.toList_map]

theorem textual_fields (u : User) : Textual u.fields := by
  have hfixed : Textual [("id", .string u.id), ("name", .string u.name)] := by simp [Textual]
  rw [fields_eq]
  exact hfixed.append (.toList_map "realName" (fun real => real) u.realName)

theorem sublist_names (u : User) : (u.fields.map (·.1)).Sublist ["id", "name", "realName"] := by
  rw [fields_eq, List.map_append]
  exact (List.Sublist.refl _).append (Json.sublist_names_toList_map "realName" _ _)

theorem lookup_realName (u : User) :
    u.fields.lookup "realName" = u.realName.map .string := by
  rw [fields_eq, List.lookup_append, Table.lookup_toList_map, if_pos rfl]
  rfl

theorem ofRaw?_json (u : User) : ofRaw? (.ofValue u.json) = some u := by
  have hreal : (Record.ofFields u.fields).optional? "realName" Raw.text? = some u.realName :=
    Record.optionalText?_eq_some u.lookup_realName
  rw [ofRaw?, json, Raw.record?_object_of_sublist (by decide) 1 u.sublist_names]
  simp only [Option.bind_eq_bind, Option.bind_some, hreal]
  rfl

theorem ofText?_json (u : User) : ofText? u.json.text = some u := by
  rw [ofText?, json, Raw.ofText?_text_of_exact u.textual_fields.exact_object]
  exact u.ofRaw?_json

end User

namespace EntityRef

theorem ofText?_json (r : EntityRef) : ofText? r.json.text = some r := by
  have htextual : Textual [("id", .string r.id), ("type", r.kind.json)] := by
    simp [Textual, EntityKind.json]
  have hnames : ([("id", .string r.id), ("type", r.kind.json)].map (·.1)).Sublist ["id", "type"] :=
    List.Sublist.refl _
  have hkind : ((Record.ofFields [("id", .string r.id), ("type", r.kind.json)]).get? "type").bind
      EntityKind.ofRaw? = some r.kind := r.kind.ofName?_name
  rw [ofText?, json, Raw.ofText?_text_of_exact htextual.exact_object, Option.bind_some, ofRaw?,
    Raw.record?_object_of_sublist (by decide) 2 hnames]
  simp only [Option.bind_eq_bind, Option.bind_some, hkind]
  rfl

end EntityRef

namespace Entity

theorem textual_fields (e : Entity) : Textual (("type", e.kind.json) :: e.fields) := by
  have hkind : Textual [("type", e.kind.json)] := by simp [Textual, EntityKind.json]
  cases e with
  | user u => exact hkind.append u.textual_fields
  | group g => exact hkind.append g.textual_fields

theorem name_ne_type (e : Entity) : ∀ f ∈ e.fields, f.1 ≠ "type" := by
  have hknown : ∀ f ∈ e.fields, f.1 ∈ ["id", "name", "realName"] := by
    intro f hf
    cases e with
    | user u => exact u.sublist_names.subset (List.mem_map_of_mem hf)
    | group g => exact List.subset_append_left _ ["realName"] (List.mem_map_of_mem hf)
  intro f hf htype
  have hmem := hknown f hf
  rw [htype] at hmem
  exact absurd hmem (by decide)

/-- The tag of an entity may stand before or behind its other fields. -/
theorem ofRaw?_fields (e : Entity) {before after : List (String × Value)}
    (h : before ++ after = e.fields) :
    ofRaw? (.ofValue (.object (before ++ ("type", e.kind.json) :: after))) = some e := by
  have hother : ∀ f ∈ before ++ after, f.1 ≠ "type" := by
    rw [h]
    exact e.name_ne_type
  rw [ofRaw?, EntityKind.json, Raw.tagged?_object hother, h]
  simp only [Option.bind_eq_bind, Option.bind_some, EntityKind.ofName?_name]
  cases e with
  | user u => exact congrArg (Option.map Entity.user) u.ofRaw?_json
  | group g => exact congrArg (Option.map Entity.group) g.ofRaw?_json

theorem rawOfText?_json (e : Entity) : Raw.ofText? e.json.text = some (.ofValue e.json) :=
  Raw.ofText?_text_of_exact e.textual_fields.exact_object

/-- As a value an entity has its fields in ascending order, so that the tag comes last. -/
theorem value?_json (e : Entity) :
    Raw.value? Raw.maxDepth (.ofValue e.json) =
      some (.object (e.fields ++ [("type", e.kind.json)])) := by
  have hvalue : Raw.value? Raw.maxDepth (.ofValue e.json) = _ := e.textual_fields.value?_object 126
  have hsorted : Value.ofTable (Table.ofList (("type", e.kind.json) :: e.fields)) =
      .object (e.fields ++ [("type", e.kind.json)]) := by
    rw [Value.ofTable_ofList]
    cases e with
    | user u =>
      obtain ⟨_, _, _ | _⟩ := u <;>
        simp only [fields, User.fields, Option.toList_none, Option.toList_some, List.map_nil,
          List.map_cons, List.append_nil, List.cons_append, List.nil_append, List.foldl_cons,
          List.foldl_nil, Table.place, String.reduceLT, String.reduceEq, if_true, if_false]
    | group g =>
      simp only [fields, Group.fields, List.foldl_cons, List.foldl_nil, List.cons_append,
        List.nil_append, Table.place, String.reduceLT, String.reduceEq, if_true, if_false]
  rw [hvalue, hsorted]

theorem ofText?_json (e : Entity) : ofText? e.json.text = some e := by
  rw [ofText?, rawOfText?_json]
  simp only [Option.bind_eq_bind, Option.bind_some, value?_json]
  exact e.ofRaw?_fields (List.nil_append _)

/-- Also by way of a value an entity is read as it was. -/
theorem ofJson?_json (e : Entity) : (Value.ofText? e.json.text).bind ofJson? = some e := by
  rw [Value.ofText?, rawOfText?_json, Option.bind_some, value?_json, Option.bind_some]
  exact e.ofRaw?_fields (List.append_nil _)

end Entity

/-! ## Requests -/

namespace Description

theorem textual_fields (d : Description) : Textual d.fields :=
  (((Textual.toList_map "type" EntityKind.name d.kind).append
    (.toList_map "name" (fun s => s) d.name)).append
    (.toList_map "realName" (fun s => s) d.realName)).append (.toList_map "id" (fun s => s) d.id)

theorem sublist_names (d : Description) :
    (d.fields.map (·.1)).Sublist ["type", "name", "realName", "id"] := by
  simp only [fields, List.map_append]
  exact (((Json.sublist_names_toList_map "type" _ d.kind).append
    (Json.sublist_names_toList_map "name" _ d.name)).append
    (Json.sublist_names_toList_map "realName" _ d.realName)).append
    (Json.sublist_names_toList_map "id" _ d.id)

theorem lookup_fields (d : Description) :
    d.fields.lookup "type" = d.kind.map EntityKind.json ∧
      d.fields.lookup "name" = d.name.map .string ∧
      d.fields.lookup "realName" = d.realName.map .string ∧
      d.fields.lookup "id" = d.id.map .string := by
  simp [fields, List.lookup_append, Table.lookup_toList_map]

theorem ofRaw?_json (d : Description) : ofRaw? (.ofValue d.json) = some d := by
  obtain ⟨hkind, hname, hreal, hid⟩ := d.lookup_fields
  have hread : (Record.ofFields d.fields).optional? "type" EntityKind.ofRaw? = some d.kind :=
    Record.optional?_eq_some EntityKind.json (fun _ => nofun) EntityKind.ofName?_name hkind
  rw [ofRaw?, json, Raw.record?_object_of_sublist (by decide) 4 d.sublist_names]
  simp only [Option.bind_eq_bind, Option.bind_some, hread, Record.optionalText?_eq_some hname,
    Record.optionalText?_eq_some hreal, Record.optionalText?_eq_some hid]
  rfl

/-- A body that describes an entity is read as that description. -/
theorem bodyOfRaw?_json (d : Description) (room : Nat) :
    Body.ofRaw? (room + 1) (.ofValue d.json) = some (.description d) := by
  rw [Body.ofRaw?, json, d.textual_fields.value?_object, ← json, ofRaw?_json]
  rfl

end Description

namespace Request

/-- The fields of a request that are there, in their fixed order. -/
def fields (r : Request) : List (String × Value) :=
  [("command", r.verb.json)] ++
    (r.id.map fun s => ("id", Value.string s)).toList ++
    (r.callback.map fun s => ("callback", Value.string s)).toList ++
    (r.body.map fun b => ("data", b.json)).toList

theorem json_eq (r : Request) : r.json = .object r.fields := rfl

theorem sublist_names (r : Request) :
    (r.fields.map (·.1)).Sublist ["command", "id", "callback", "data"] := by
  simp only [fields, List.map_append]
  exact (((List.Sublist.refl ["command"]).append
    (Json.sublist_names_toList_map "id" _ r.id)).append
    (Json.sublist_names_toList_map "callback" _ r.callback)).append
    (Json.sublist_names_toList_map "data" _ r.body)

theorem lookup_fields (r : Request) :
    r.fields.lookup "command" = some r.verb.json ∧
      r.fields.lookup "id" = r.id.map .string ∧
      r.fields.lookup "callback" = r.callback.map .string ∧
      r.fields.lookup "data" = r.body.map Body.json := by
  simp [fields, List.lookup_append, Table.lookup_toList_map, lookup_cons_ite]

/-- Reading a request is reading its body. -/
theorem ofRaw?_json (r : Request) :
    ofRaw? (.ofValue r.json) =
      (r.body.elim (some none) fun b =>
        (Body.ofRaw? (Raw.maxDepth - 1) (.ofValue b.json)).map some).map
      fun body => { r with body } := by
  obtain ⟨hverb, hid, hcallback, hbody⟩ := r.lookup_fields
  have hread : ((Record.ofFields r.fields).get? "command").bind Verb.ofRaw? = some r.verb := by
    rw [Record.get?_ofFields, hverb]
    exact r.verb.ofRaw?_json
  have hdata := Record.optional?_ofFields Body.json (fun b => by cases b <;> nofun)
    (Body.ofRaw? (Raw.maxDepth - 1)) hbody
  rw [json_eq, ofRaw?, Raw.record?_object_of_sublist (by decide) 4 r.sublist_names]
  simp only [Option.bind_eq_bind, Option.bind_some, hread, hdata,
    Record.optionalText?_eq_some hid, Record.optionalText?_eq_some hcallback]
  cases r.body.elim (some none) fun b =>
    (Body.ofRaw? (Raw.maxDepth - 1) (.ofValue b.json)).map some <;> rfl

/-- The numbers of a request are those of its body. -/
theorem exact_json (r : Request) (h : ∀ b ∈ r.body, b.json.Exact) : r.json.Exact := by
  have htexts : Textual ([("command", r.verb.json)] ++
      (r.id.map fun s => ("id", Value.string s)).toList ++
      (r.callback.map fun s => ("callback", Value.string s)).toList) := by
    have hverb : Textual [("command", r.verb.json)] := by simp [Textual, Verb.json]
    exact (hverb.append (.toList_map "id" (fun s => s) r.id)).append
      (.toList_map "callback" (fun s => s) r.callback)
  rw [json_eq]
  refine Value.exact_object fun f hf => ?_
  rcases List.mem_append.1 hf with hf | hf
  · obtain ⟨s, hs⟩ := htexts f hf
    rw [hs]
    exact Value.exact_string s
  · obtain ⟨b, hb, rfl⟩ := Option.map_eq_some_iff.1 (Option.mem_toList.1 hf)
    exact h b hb

/-- Requests that describe an entity, or have no body, are read back as they were. -/
theorem ofText?_text (verb : Verb) (id callback : Option String) (d : Option Description) :
    let r : Request := { verb, id, callback, body := d.map .description }
    ofText? r.text = some r := by
  intro r
  have hexact : ∀ b ∈ r.body, b.json.Exact := by
    intro b hb
    obtain ⟨d, -, rfl⟩ := Option.map_eq_some_iff.1 hb
    exact d.textual_fields.exact_object
  rw [ofText?, text, Raw.ofText?_text_of_exact (r.exact_json hexact), Option.bind_some, ofRaw?_json]
  cases d with
  | none => rfl
  | some d =>
    show Option.map _ (Option.map _ (Body.ofRaw? (125 + 1) (.ofValue d.json))) = _
    rw [d.bodyOfRaw?_json]
    rfl

end Request

/-- For all texts, `Entity`, `User`, `EntityRef`, `CommandKind` and envelopes whose data is an
`EntityPayload` or missing are read back from their JSON text as they were; `Entity` also by way of
`Value`, as `from_value` reads it. -/
theorem read_written :
    (∀ e : Entity, Entity.ofText? e.json.text = some e ∧
      (Value.ofText? e.json.text).bind Entity.ofJson? = some e) ∧
    (∀ u : User, User.ofText? u.json.text = some u) ∧
    (∀ r : EntityRef, EntityRef.ofText? r.json.text = some r) ∧
    (∀ v : Verb, Verb.ofText? v.json.text = some v) ∧
    ∀ (verb : Verb) (id callback : Option String) (d : Option Description),
      let r : Request := { verb, id, callback, body := d.map .description }
      Request.ofText? r.text = some r :=
  ⟨fun e => ⟨e.ofText?_json, e.ofJson?_json⟩, User.ofText?_json, EntityRef.ofText?_json,
    Verb.ofText?_json, Request.ofText?_text⟩

/-! ## Properties -/

/-- What a single property is taken for where an entity may be described. Names that are not those
of its parts are skipped, so that there is no trace of the property then. -/
def Description.ofProperty? (key value : String) : Option Description :=
  if key = "type" then (EntityKind.ofName? value).map fun k => { kind := some k }
  else some {
    name := if key = "name" then some value else none
    realName := if key = "realName" then some value else none
    id := if key = "id" then some value else none }

theorem Description.ofRaw?_property (key value : String) :
    ofRaw? (.ofValue (.object [(key, .string value)])) = ofProperty? key value := by
  have hlookup : ∀ name ∈ ["type", "name", "realName", "id"],
      ([(key, Value.string value)].filter fun f =>
        ["type", "name", "realName", "id"].contains f.1).lookup name =
      (if key = name then some value else none).map .string := by
    intro name hname
    rw [lookup_filter (fun k => ["type", "name", "realName", "id"].contains k),
      if_pos (List.contains_iff_mem.2 hname), lookup_cons_ite]
    split <;> rfl
  have hnodup : (([(key, Value.string value)].filter fun f =>
      ["type", "name", "realName", "id"].contains f.1).map (·.1)).Nodup :=
    List.Nodup.sublist (List.filter_sublist.map _) (by simp)
  have hkind := Record.optional?_ofFields .string Record.string_ne_null EntityKind.ofRaw?
    (hlookup "type" (by decide))
  rw [ofRaw?, Raw.record?_object]
  simp only [if_pos hnodup, Option.bind_eq_bind, Option.bind_some, hkind,
    Record.optionalText?_eq_some (hlookup "name" (by decide)),
    Record.optionalText?_eq_some (hlookup "realName" (by decide)),
    Record.optionalText?_eq_some (hlookup "id" (by decide))]
  unfold ofProperty?
  by_cases htype : key = "type"
  · subst htype
    show (Option.map some (EntityKind.ofName? value)).bind _ = _
    cases EntityKind.ofName? value <;> rfl
  · rw [if_neg htype, if_neg htype]
    rfl

/-- A property is mistaken for a description unless it is a `type` that is no kind. -/
theorem Description.ofProperty?_eq_none_iff {key value : String} :
    ofProperty? key value = none ↔ key = "type" ∧ EntityKind.ofName? value = none := by
  unfold ofProperty?
  by_cases htype : key = "type"
  · rw [if_pos htype, Option.map_eq_none_iff]
    exact (and_iff_right htype).symm
  · rw [if_neg htype]
    exact ⟨nofun, fun h => absurd h.1 htype⟩

/-- The body of a request that sets one property, as it is read. -/
theorem Body.ofRaw?_property (key value : String) :
    ofRaw? (Raw.maxDepth - 1) (.ofValue (.object [(key, .string value)])) =
      some (match Description.ofProperty? key value with
        | some d => .description d
        | none => .properties ((∅ : Properties).insert key (.string value))) := by
  have htextual : Textual [(key, .string value)] := by simp [Textual]
  have hvalue : Raw.value? (Raw.maxDepth - 1) (.ofValue (.object [(key, .string value)])) = _ :=
    htextual.value?_object 125
  rw [ofRaw?, hvalue, Description.ofRaw?_property]
  cases Description.ofProperty? key value <;> rfl

namespace Command

/-- What is read of a command's request. -/
def reread : Command → Request
  | .updateProperty id key value =>
    { verb := .update
      id
      body := some (match Description.ofProperty? key value with
        | some d => .description d
        | none => .properties ((∅ : Properties).insert key (.string value))) }
  | c => c.request

theorem ofText?_text_request (c : Command) : Request.ofText? c.request.text = some c.reread := by
  cases c with
  | create k source => cases k <;> exact Request.ofText?_text _ _ _ (some _)
  | delete | list | addToGroup | removeFromGroup => exact Request.ofText?_text _ _ _ (some _)
  | listMembers | getProperties => exact Request.ofText?_text _ _ _ none
  | updateProperty id key value =>
    rw [Request.ofText?, rawOfText?_request, Option.bind_some, ← json_request,
      Request.ofRaw?_json]
    show Option.map _ (Option.map _ (Body.ofRaw? _ (.ofValue (.object [(key, .string value)])))) = _
    rw [Body.ofRaw?_property]
    rfl

/-- A property is read back if it is not mistaken for a description. -/
theorem reread_updateProperty_iff (id key value : String) :
    (updateProperty id key value).reread = (updateProperty id key value).request ↔
      Description.ofProperty? key value = none := by
  rw [reread, request, Request.updateProperty]
  cases Description.ofProperty? key value <;> simp

/-- For every request `c` that a builder makes, `from_str` of `to_json` gives an envelope with the
same command, id and callback; it is the same envelope if and only if `c` is no `update_property`,
or sets the key `type` to a value that names no kind. All other properties are read as an
`EntityPayload`, which `CommandData` tries first. -/
theorem reread_iff (c : Command) :
    Request.ofText? c.request.text = some c.reread ∧
      (∃ body, c.reread = { c.request with body }) ∧
      (c.reread = c.request ↔ ∀ id key value, c = .updateProperty id key value →
        key = "type" ∧ EntityKind.ofName? value = none) := by
  refine ⟨c.ofText?_text_request, ?_⟩
  cases c with
  | updateProperty id key value =>
    refine ⟨⟨_, rfl⟩, ?_⟩
    rw [reread_updateProperty_iff, Description.ofProperty?_eq_none_iff]
    refine ⟨fun h id key value heq => ?_, fun h => h id key value rfl⟩
    cases heq
    exact h
  | create | delete | list | addToGroup | removeFromGroup | listMembers | getProperties =>
    exact ⟨⟨_, rfl⟩, iff_of_true rfl nofun⟩

/-- A colour that `update_property` sets is gone when the envelope is read: it comes back as an
empty `EntityPayload`. -/
theorem reread_color :
    let r := Request.updateProperty "u1" "color" "red"
    Request.ofText? r.text = some { r with body := some (.description {}) } ∧
      Request.ofText? r.text ≠ some r := by
  intro r
  have hread : Request.ofText? r.text = _ :=
    ofText?_text_request (.updateProperty "u1" "color" "red")
  rw [hread]
  refine ⟨rfl, fun h => ?_⟩
  have := (reread_updateProperty_iff _ _ _).1 (Option.some.inj h)
  exact absurd this nofun

end Command

end RosterPanel
