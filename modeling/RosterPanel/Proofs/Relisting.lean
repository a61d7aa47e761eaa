import RosterPanel.Proofs.Coherence
import RosterPanel.Proofs.RoundTrip
import RosterPanel.Proofs.Updating

/-!
# Updates against listings

There are two ways in which the panel gets to know that an entity has changed. An update brings
some properties, of which the panel picks the names for its records; a listing brings the whole
entity, which is read. Laying the properties over what was written of a record and reading the
outcome should be the same as the update. Results:

* `Raw.exists_record?_overlaid`: where properties are laid over an object, each field is read from
  them or else from the object.
* `Entity.ofJson?_overlaid`: the tag makes no difference, as long as no property replaces it.
* `Group.patch_eq_of_relisted`, `User.patch_eq_of_relisted`: an update does to a group what reading
  does, and so it does to a user unless the real name is set to `null`.
* `Panel.relisted_iff`: `update` on `EntityUpdated` leaves every record as it would be read with the
  properties laid over it, if and only if they do not set the `realName` of a user who has one to
  `null`.
* `Panel.relisted_nameless`: such a user keeps a `realName` that is gone.
-/

namespace RosterPanel

open Json (Raw Record Value)

/-! ## Overlays -/

/-- An object with fields laid over it, which replace its own ones. -/
def Json.Value.overlaid (v : Value) (added : Table Value) : Value :=
  match v.table? with
  | some t => .ofTable (t.insertAll added.entries)
  | none => v

theorem Table.find?_overlay {α : Type} {fields : List (String × α)}
    (h : (fields.map (·.1)).Nodup) (added : Table α) (k : String) :
    ((Table.ofList fields).insertAll added.entries).find? k =
      (added.find? k).or (fields.lookup k) := by
  rw [find?_insertAll _ added.nodup_keys, ofList, find?_insertAll _ h, find?_empty, Option.or_none]
  rfl

/-- An object with fields laid over it is read as a record of the fields that then count. -/
theorem Json.Raw.exists_record?_overlaid {fields : List (String × Value)}
    (h : (fields.map (·.1)).Nodup) (added : Table Value) (names : List String) (least : Nat) :
    ∃ r, (Raw.ofValue ((Value.object fields).overlaid added)).record? names least = some r ∧
      ∀ name ∈ names,
        r.get? name = ((added.find? name).or (fields.lookup name)).map .ofValue := by
  obtain ⟨r, hr, hget⟩ := exists_record?_ofTable names least
    ((Table.ofList fields).insertAll added.entries)
  refine ⟨r, hr, fun name hname => ?_⟩
  rw [hget name hname, Table.find?_overlay h]

namespace Json.Record

variable {r : Record} {name : String} {added : Option Value}

/-- A text with a text under it is read as one of the two. -/
theorem textOrEmpty?_overlaid {old new : String}
    (h : r.get? name = (added.or (some (.string old))).map .ofValue)
    (hread : r.textOrEmpty? name = some new) : new = (added.bind Value.string?).getD old := by
  rw [textOrEmpty?, h] at hread
  cases added with
  | none => exact (Option.some.inj hread).symm
  | some v =>
    have hstring : v.string? = some new := (Raw.text?_ofValue v).symm.trans hread
    rw [Option.bind_some, hstring, Option.getD_some]

/-- With `null` over it, a text that was there is gone. -/
theorem optionalText?_overlaid {old new : Option String}
    (h : r.get? name = (added.or (old.map .string)).map .ofValue)
    (hread : r.optional? name Raw.text? = some new) :
    (added = some .null ∧ new = none) ∨
      (added ≠ some .null ∧ new = (added.bind Value.string?).or old) := by
  rw [optional?, h] at hread
  cases added with
  | none =>
    refine Or.inr ⟨(Option.some_ne_none _).symm, ?_⟩
    cases old <;> exact (Option.some.inj hread).symm
  | some v =>
    cases v with
    | null => exact Or.inl ⟨rfl, (Option.some.inj hread).symm⟩
    | string s =>
      refine Or.inr ⟨fun heq => string_ne_null s (Option.some.inj heq), ?_⟩
      exact (Option.some.inj hread).symm
    | bool | number | array | object => cases hread

end Json.Record

/-! ## Reading what is overlaid -/

theorem Group.nodup_names (g : Group) : (g.fields.map (·.1)).Nodup :=
  (by decide : ["id", "name"].Nodup)

theorem User.nodup_names (u : User) : (u.fields.map (·.1)).Nodup :=
  List.Nodup.sublist u.sublist_names (by decide)

section

variable {properties : Properties}

/-- No property replaces the tag, so that the kind is found and the rest is overlaid as before. -/
theorem Entity.tagged?_overlaid (e : Entity) (htype : "type" ∉ properties.keys) :
    (Raw.ofValue (e.json.overlaid properties)).tagged? "type" =
      some (e.kind.name, .ofValue ((Value.object e.fields).overlaid properties)) := by
  have hnone : properties.find? "type" = none := Table.find?_eq_none.2 htype
  have hnodup : (e.fields.map (·.1)).Nodup := by
    cases e with
    | user u => exact u.nodup_names
    | group g => exact g.nodup_names
  have hnodup' : ((("type", e.kind.json) :: e.fields).map (·.1)).Nodup := by
    refine List.nodup_cons.2 ⟨fun hmem => ?_, hnodup⟩
    obtain ⟨f, hf, heq⟩ := List.mem_map.1 hmem
    exact e.name_ne_type f hf heq
  have hfind := Table.find?_overlay hnodup' properties
  have hrest := Table.find?_overlay hnodup properties
  have htag := hfind "type"
  rw [hnone, Option.none_or] at htag
  refine (Raw.tagged?_ofTable htag).trans ?_
  -- Both tables find the same under every name: neither has a tag.
  congr 3
  refine congrArg Value.ofTable (Table.ext_find? fun k => ?_)
  rw [Table.find?_erase, hfind, hrest]
  split
  · next heq =>
    have hplain : e.fields.lookup "type" = none :=
      List.lookup_eq_none_iff.2 fun f hf => bne_iff_ne.2 (Ne.symm (e.name_ne_type f hf))
    rw [heq, hnone, hplain, Option.none_or]
  · next hne => rw [lookup_cons_ite, if_neg (Ne.symm hne)]

/-- An entity is read as what its kind makes of it without the tag. -/
theorem Entity.ofJson?_overlaid (e : Entity) (htype : "type" ∉ properties.keys) :
    ofJson? (e.json.overlaid properties) =
      let raw := Raw.ofValue ((Value.object e.fields).overlaid properties)
      match e.kind with
      | .user => (User.ofRaw? raw).map .user
      | .group => (Group.ofRaw? raw).map .group := by
  rw [ofJson?, ofRaw?, e.tagged?_overlaid htype]
  show (EntityKind.ofName? e.kind.name).bind _ = _
  rw [EntityKind.ofName?_name]
  rfl

/-- For groups, `update` on `EntityUpdated` does what reading the group with the properties laid
over it does. -/
theorem Group.patch_eq_of_relisted {g g' : Group} (hid : "id" ∉ properties.keys)
    (h : ofRaw? (.ofValue (g.json.overlaid properties)) = some g') :
    (Panel.Patch.ofProperties properties).group g = g' := by
  obtain ⟨r, hr, hget⟩ := Raw.exists_record?_overlaid g.nodup_names properties ["id", "name"] 1
  obtain ⟨r', hr', h⟩ := Option.bind_eq_some_iff.1 h
  cases hr.symm.trans hr'
  obtain ⟨id, hsame, h⟩ := Option.bind_eq_some_iff.1 h
  obtain ⟨name, hname, h⟩ := Option.bind_eq_some_iff.1 h
  cases h
  rw [Record.text?, hget "id" (by decide), Table.find?_eq_none.2 hid] at hsame
  cases hsame
  have hnew := Record.textOrEmpty?_overlaid (hget "name" (by decide)) hname
  rw [hnew]
  rfl

/-- For users `update` does so unless `realName` is set to `null`: then it is gone where the user is
read, and stays where the user is patched. -/
theorem User.patch_eq_of_relisted {u v : User} (hid : "id" ∉ properties.keys)
    (h : ofRaw? (.ofValue (u.json.overlaid properties)) = some v) :
    let patched := (Panel.Patch.ofProperties properties).user u
    (properties.find? "realName" ≠ some .null → patched = v) ∧
      (properties.find? "realName" = some .null →
        v.realName = none ∧ patched = { v with realName := u.realName }) := by
  intro patched
  obtain ⟨r, hr, hget⟩ :=
    Raw.exists_record?_overlaid u.nodup_names properties ["id", "name", "realName"] 1
  obtain ⟨r', hr', h⟩ := Option.bind_eq_some_iff.1 h
  cases hr.symm.trans hr'
  obtain ⟨id, hsame, h⟩ := Option.bind_eq_some_iff.1 h
  obtain ⟨name, hname, h⟩ := Option.bind_eq_some_iff.1 h
  obtain ⟨real, hreal, h⟩ := Option.bind_eq_some_iff.1 h
  cases h
  rw [Record.text?, hget "id" (by decide), Table.find?_eq_none.2 hid] at hsame
  cases hsame
  have hnew := Record.textOrEmpty?_overlaid (hget "name" (by decide)) hname
  have hgetReal := hget "realName" (by decide)
  rw [u.lookup_realName] at hgetReal
  rw [hnew]
  rcases Record.optionalText?_overlaid hgetReal hreal with ⟨hnull, rfl⟩ | ⟨hnull, rfl⟩
  · refine ⟨fun hne => absurd hnull hne, fun _ => ⟨rfl, ?_⟩⟩
    show User.mk _ _ (((properties.find? "realName").bind Value.string?).or u.realName) = _
    rw [hnull]
    rfl
  · exact ⟨fun _ => rfl, fun h => absurd h hnull⟩

/-- The exception makes a difference where there is a real name to be kept. -/
theorem User.patch_eq_iff_of_relisted {u v : User} (hid : "id" ∉ properties.keys)
    (h : ofRaw? (.ofValue (u.json.overlaid properties)) = some v) :
    (Panel.Patch.ofProperties properties).user u = v ↔
      (properties.find? "realName" = some .null → u.realName = none) := by
  obtain ⟨hother, hnull⟩ := patch_eq_of_relisted hid h
  by_cases hclear : properties.find? "realName" = some .null
  · obtain ⟨hnone, hpatched⟩ := hnull hclear
    rw [hpatched]
    constructor
    · intro heq _
      exact (congrArg User.realName heq).trans hnone
    · intro hreal
      rw [hreal hclear, ← hnone]
  · exact iff_of_true (hother hclear) fun h => absurd h hclear

end

/-! ## What the panel keeps -/

namespace Panel

/-- Every copy that one panel keeps of a user is another user in another panel. -/
structure Turns (p q : Panel) (u v : User) : Prop where
  users : ∀ i : Nat, p.users[i]? = some u → q.users[i]? = some v
  members : ∀ groupId, ∀ i : Nat,
    (p.membersOf groupId)[i]? = some u → (q.membersOf groupId)[i]? = some v

variable {p q : Panel}

/-- A user who is kept turns into one user at most. -/
theorem Turns.unique {u v w : User} (hu : p.Holds u) (hv : p.Turns q u v) (hw : p.Turns q u w) :
    v = w := by
  rcases hu with hu | ⟨groupId, hu⟩
  · obtain ⟨i, hi⟩ := List.mem_iff_getElem?.1 hu
    exact Option.some.inj ((hv.users i hi).symm.trans (hw.users i hi))
  · obtain ⟨i, hi⟩ := List.mem_iff_getElem?.1 hu
    exact Option.some.inj ((hv.members groupId i hi).symm.trans (hw.members groupId i hi))

/-- An update patches every record under its id. -/
theorem turns_entityUpdated (h : p.ListsApart) (u : User) (properties : Properties) :
    p.Turns (p.react (.entityUpdated u.id properties)).1 u
      ((Patch.ofProperties properties).user u) := by
  obtain ⟨-, husers, hmembers⟩ := lists_entityUpdated h u.id properties
  constructor
  · intro i hi
    show (p.entityUpdated u.id properties).1.users[i]? = _
    rw [husers, List.getElem?_map, hi, Option.map_some, if_pos rfl]
  · intro groupId i hi
    show ((p.entityUpdated u.id properties).1.membersOf groupId)[i]? = _
    rw [membersOf_eq_map hmembers, List.getElem?_map, hi, Option.map_some, if_pos rfl]

/-- So what a user who is kept turns into is what the patch makes of the user. -/
theorem turns_entityUpdated_iff (h : p.ListsApart) {u v : User} (hu : p.Holds u)
    (properties : Properties) :
    p.Turns (p.react (.entityUpdated u.id properties)).1 u v ↔
      (Patch.ofProperties properties).user u = v := by
  have hturns := turns_entityUpdated h u properties
  exact ⟨fun hv => hturns.unique hu hv, fun heq => heq ▸ hturns⟩

/-- For a panel whose lists have distinct ids and an update with properties other than `id` and
`type`: `update` on `EntityUpdated` turns each record of a user `u` into what is read of `u` with
the properties laid over its JSON, if and only if `realName` is not set to `null` or `u` has none.
If it is, the record keeps the `realName` that is gone where the user is read, since `as_str` takes
`null` for absent. For groups the two always agree. -/
theorem relisted_iff (h : p.ListsApart) {properties : Properties}
    (hid : "id" ∉ properties.keys) (htype : "type" ∉ properties.keys) :
    (∀ u v, p.Holds u →
      Entity.ofJson? ((Entity.user u).json.overlaid properties) = some (.user v) →
      let q := (p.react (.entityUpdated u.id properties)).1
      (p.Turns q u v ↔ (properties.find? "realName" = some .null → u.realName = none)) ∧
      (properties.find? "realName" = some .null →
        v.realName = none ∧ p.Turns q u { v with realName := u.realName })) ∧
    ∀ g g', Entity.ofJson? ((Entity.group g).json.overlaid properties) = some (.group g') →
      let q := (p.react (.entityUpdated g.id properties)).1
      ∀ i : Nat, p.groups[i]? = some g → q.groups[i]? = some g' := by
  constructor
  · intro u v hu hread q
    rw [Entity.ofJson?_overlaid _ htype] at hread
    obtain ⟨v', hv, heq⟩ := Option.map_eq_some_iff.1 hread
    cases heq
    have hiff : ∀ w, p.Turns q u w ↔ (Patch.ofProperties properties).user u = w :=
      fun w => turns_entityUpdated_iff h hu properties
    refine ⟨(hiff v).trans (User.patch_eq_iff_of_relisted hid hv), fun hclear => ?_⟩
    obtain ⟨hnone, hpatched⟩ := (User.patch_eq_of_relisted hid hv).2 hclear
    exact ⟨hnone, (hiff _).2 hpatched⟩
  · intro g g' hread q i hi
    rw [Entity.ofJson?_overlaid _ htype] at hread
    obtain ⟨v, hv, heq⟩ := Option.map_eq_some_iff.1 hread
    cases heq
    obtain ⟨hgroups, -, -⟩ := lists_entityUpdated h g.id properties
    show (p.entityUpdated g.id properties).1.groups[i]? = _
    rw [hgroups, List.getElem?_map, hi, Option.map_some, if_pos rfl,
      Group.patch_eq_of_relisted hid hv]

/-- Jane gets another name, and her group too. Then her real name is set to `null`. -/
theorem relisted_iff_renamed :
    let jane : User := ⟨"7", "jane", some "Jane"⟩
    let staff : Group := ⟨"1", "Staff"⟩
    let p : Panel := { fresh { ahead := [] } with
      groups := [staff]
      users := [jane]
      members := (∅ : Table (List User)).insert "1" [jane] }
    let named : Properties :=
      (∅ : Properties).insertAll [("name", .string "joan"), ("color", .string "red")]
    let cleared : Properties := (∅ : Properties).insert "realName" .null
    p.ListsApart ∧ p.Holds jane ∧
      p.Turns (p.react (.entityUpdated "7" named)).1 jane ⟨"7", "joan", some "Jane"⟩ ∧
      (p.react (.entityUpdated "1" named)).1.groups[0]? = some ⟨"1", "joan"⟩ ∧
      ¬ p.Turns (p.react (.entityUpdated "7" cleared)).1 jane ⟨"7", "jane", none⟩ := by
  intro jane staff p named cleared
  have hempty : Apart p.groups p.users ∅ := ⟨by decide, by decide, fun _ _ hfind => by cases hfind⟩
  have hp : p.ListsApart := hempty.insert "1" (by decide)
  have hjane : p.Holds jane := Or.inl List.mem_cons_self
  have hnamedKeys : "id" ∉ named.keys ∧ "type" ∉ named.keys := by decide
  have hclearedKeys : "id" ∉ cleared.keys ∧ "type" ∉ cleared.keys := by decide
  obtain ⟨husers, hgroups⟩ := relisted_iff hp hnamedKeys.1 hnamedKeys.2
  obtain ⟨hnamed, -⟩ := husers jane ⟨"7", "joan", some "Jane"⟩ hjane (by decide)
  have hstaff := hgroups staff ⟨"1", "joan"⟩ (by decide) 0 rfl
  obtain ⟨hcleared, -⟩ := (relisted_iff hp hclearedKeys.1 hclearedKeys.2).1
    jane ⟨"7", "jane", none⟩ hjane (by decide)
  have hkeeps : cleared.find? "realName" = some .null := rfl
  refine ⟨hp, hjane, hnamed.2 nofun, hstaff, fun hturns => ?_⟩
  exact absurd (hcleared.1 hturns hkeeps) (by decide)

/-- For a user with `realName` Jane and the property `realName: null`: as it is read the user has no
`realName` any more; the record still has it. -/
theorem relisted_nameless :
    let jane : User := ⟨"7", "jane", some "Jane"⟩
    let p := ((fresh { ahead := [] }).reactAll [.entitiesListed .user [.user jane]]).1
    let properties : Properties := (∅ : Properties).insert "realName" .null
    let q := (p.react (.entityUpdated "7" properties)).1
    p.ListsApart ∧ "id" ∉ properties.keys ∧ "type" ∉ properties.keys ∧
      p.users[0]? = some jane ∧
      Entity.ofJson? ((Entity.user jane).json.overlaid properties) =
        some (.user ⟨"7", "jane", none⟩) ∧
      q.users[0]? ≠ some ⟨"7", "jane", none⟩ := by
  intro jane p properties q
  have hp : p.ListsApart := ⟨by decide, by decide, fun _ _ hfind => by cases hfind⟩
  exact ⟨hp, by decide, by decide, rfl, by decide, by decide⟩

end Panel

end RosterPanel
