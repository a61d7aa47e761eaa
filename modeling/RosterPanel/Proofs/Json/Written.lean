import RosterPanel.Proofs.Json.Reading
import RosterPanel.Json.Record

/-!
# Records that were written

A typed object is written with its fields in their fixed order, less those that are absent. Results:

* `Raw.record?_object`: an object is read as its known fields, if none comes twice.
* `Record.optional?_eq_some`: an optional field is read as what was written of it, also if nothing
  was.
* `Raw.tagged?_object`: a tag is found wherever it stands among the other fields.
* `Raw.exists_record?_ofTable`, `Raw.tagged?_ofTable`: the same for the object of a table, whatever
  else it holds.
* `Textual.exact_object`, `Textual.value?_object`: an object of texts is read from its text, as the
  value that holds its fields in ascending order.
-/

namespace RosterPanel

/-! ## Fields -/

namespace Table

variable {α β : Type}

/-- What is found of an entry that may be absent. -/
theorem lookup_toList_map (k name : String) (f : β → α) (o : Option β) :
    (o.map fun b => (name, f b)).toList.lookup k = if name = k then o.map f else none := by
  cases o with
  | none => simp
  | some b => exact lookup_cons_ite k (name, f b) []

end Table

namespace Json

theorem Raw.ofFields_eq_map (fields : List (String × Value)) :
    Raw.ofFields fields = fields.map fun f => (some f.1, .ofValue f.2) := by
  induction fields with
  | nil => rfl
  | cons f rest ih => rw [Raw.ofFields, ih, List.map_cons]

/-- The record that fields were written from. -/
def Record.ofFields (fields : List (String × Value)) : Record :=
  ⟨fields.map fun f => (f.1, .ofValue f.2)⟩

theorem Record.get?_ofFields (fields : List (String × Value)) (name : String) :
    (Record.ofFields fields).get? name = (fields.lookup name).map .ofValue :=
  lookup_map_snd name _ fields

theorem Raw.mapM_named (fields : List (String × Value)) :
    (Raw.ofFields fields).mapM (fun (name, item) => name.map fun name => (name, item)) =
      some (Record.ofFields fields).fields := by
  induction fields with
  | nil => rfl
  | cons f rest ih =>
    rw [Raw.ofFields, List.mapM_cons, ih]
    rfl

/-- An object is read as its fields with known names, unless one of them comes twice. -/
theorem Raw.record?_object (names : List String) (least : Nat) (fields : List (String × Value)) :
    (Raw.ofValue (.object fields)).record? names least =
      let known := fields.filter fun f => names.contains f.1
      if (known.map (·.1)).Nodup then some (.ofFields known) else none := by
  have hfilter : (Record.ofFields fields).fields.filter (fun f => names.contains f.1) =
      (Record.ofFields (fields.filter fun f => names.contains f.1)).fields := by
    rw [Record.ofFields, List.filter_map]
    rfl
  have hnames : ∀ l, (Record.ofFields l).fields.map (·.1) = l.map (·.1) := by
    intro l
    rw [Record.ofFields, List.map_map]
    rfl
  rw [Raw.ofValue, record?, mapM_named, Option.bind_eq_bind, Option.bind_some]
  simp only [hfilter, hnames]

/-- Known fields in their order are read as they were written. -/
theorem Raw.record?_object_of_sublist {names : List String} (hnames : names.Nodup) (least : Nat)
    {fields : List (String × Value)} (h : (fields.map (·.1)).Sublist names) :
    (Raw.ofValue (.object fields)).record? names least = some (.ofFields fields) := by
  have hknown : fields.filter (fun f => names.contains f.1) = fields :=
    List.filter_eq_self.2 fun f hf => List.contains_iff_mem.2 (h.subset (List.mem_map_of_mem hf))
  rw [record?_object, hknown]
  exact if_pos (hnames.sublist h)

/-- The name of an entry that may be absent. -/
theorem sublist_names_toList_map {α : Type} (name : String) (write : α → Value) (o : Option α) :
    ((o.map fun a => (name, write a)).toList.map (·.1)).Sublist [name] := by
  cases o with
  | none => exact List.nil_sublist _
  | some a => exact List.Sublist.refl _

namespace Record

variable {fields : List (String × Value)} {name : String}

/-- Reading an optional field is reading what was written of it, if anything was. -/
theorem optional?_ofFields {α β : Type} (write : α → Value) (hnull : ∀ a, write a ≠ .null)
    (read : Raw → Option β) {o : Option α} (h : fields.lookup name = o.map write) :
    (ofFields fields).optional? name read =
      o.elim (some none) fun a => (read (.ofValue (write a))).map some := by
  rw [optional?, get?_ofFields, h]
  cases o with
  | none => rfl
  | some a =>
    have hfull : Raw.ofValue (write a) ≠ .null := by
      have hne := hnull a
      cases hw : write a <;> first | exact absurd hw hne | simp [Raw.ofValue]
    simp only [Option.map_some]
    rfl

/-- An optional field is read as what was written of it. -/
theorem optional?_eq_some {α : Type} (write : α → Value) (hnull : ∀ a, write a ≠ .null)
    {read : Raw → Option α} (hread : ∀ a, read (.ofValue (write a)) = some a) {o : Option α}
    (h : fields.lookup name = o.map write) :
    (ofFields fields).optional? name read = some o := by
  rw [optional?_ofFields write hnull read h]
  cases o with
  | none => rfl
  | some a => rw [Option.elim_some, hread, Option.map_some]

theorem string_ne_null (s : String) : Value.string s ≠ .null := nofun

theorem optionalText?_eq_some {o : Option String} (h : fields.lookup name = o.map .string) :
    (ofFields fields).optional? name Raw.text? = some o :=
  optional?_eq_some .string string_ne_null (fun _ => rfl) h

end Record

/-- A tag is found wherever it stands, and the other fields are left in their order. -/
theorem Raw.tagged?_object {tag name : String} {before after : List (String × Value)}
    (h : ∀ f ∈ before ++ after, f.1 ≠ tag) :
    (Raw.ofValue (.object (before ++ (tag, .string name) :: after))).tagged? tag =
      some (name, .ofValue (.object (before ++ after))) := by
  have hother : ∀ l ⊆ before ++ after,
      (Raw.ofFields l).partition (·.1 == some tag) = ([], Raw.ofFields l) := by
    intro l hl
    have hne : ∀ f ∈ Raw.ofFields l, ¬ (f.1 == some tag) = true := by
      intro f hf
      rw [ofFields_eq_map] at hf
      obtain ⟨e, he, rfl⟩ := List.mem_map.1 hf
      simpa using h e (hl he)
    rw [List.partition_eq_filter_filter, List.filter_eq_nil_iff.2 hne,
      List.filter_eq_self.2 fun f hf => by simpa using hne f hf]
  have hbefore := hother before (List.subset_append_left _ _)
  have hafter := hother after (List.subset_append_right _ _)
  have hfields : Raw.ofFields (before ++ (tag, .string name) :: after) =
      Raw.ofFields before ++ (some tag, .string (some name)) :: Raw.ofFields after := by
    simp only [ofFields_eq_map, List.map_append, List.map_cons, ofValue]
  have hrest : Raw.ofFields (before ++ after) = Raw.ofFields before ++ Raw.ofFields after := by
    simp only [ofFields_eq_map, List.map_append]
  rw [List.partition_eq_filter_filter, Prod.mk.injEq] at hbefore hafter
  have hpartition : (Raw.ofFields (before ++ (tag, .string name) :: after)).partition
      (·.1 == some tag) = ([(some tag, .string (some name))], Raw.ofFields (before ++ after)) := by
    rw [hfields, hrest, List.partition_eq_filter_filter, List.filter_append, List.filter_append,
      List.filter_cons_of_pos (by simp), List.filter_cons_of_neg (by simp), hbefore.1, hbefore.2,
      hafter.1, hafter.2]
    rfl
  rw [ofValue, ofValue, tagged?, hpartition]

/-! ## Tables -/

theorem Raw.text?_ofValue (v : Value) : (ofValue v).text? = v.string? := by
  cases v <;> rfl

/-- The object of a table is always read as a record, as names come once in a table. -/
theorem Raw.exists_record?_ofTable (names : List String) (least : Nat) (t : Table Value) :
    ∃ r, (Raw.ofValue (.ofTable t)).record? names least = some r ∧
      ∀ name ∈ names, r.get? name = (t.find? name).map .ofValue := by
  refine ⟨.ofFields (t.filter names.contains).entries, ?_, fun name hname => ?_⟩
  · rw [Value.ofTable, record?_object]
    exact if_pos (t.filter names.contains).nodup_keys
  · have hfind : (t.filter names.contains).entries.lookup name = t.find? name :=
      (t.find?_filter _ name).trans (if_pos (List.contains_iff_mem.2 hname))
    rw [Record.get?_ofFields, hfind]

/-- A tag is taken out of the object of a table. -/
theorem Raw.tagged?_ofTable {tag name : String} {t : Table Value}
    (h : t.find? tag = some (.string name)) :
    (Raw.ofValue (.ofTable t)).tagged? tag = some (name, .ofValue (.ofTable (t.erase tag))) := by
  obtain ⟨before, after, hentries⟩ := List.append_of_mem (Table.mem_entries.2 h)
  have hnodup : (t.entries.map (·.1)).Nodup := t.nodup_keys
  rw [hentries, (List.perm_middle.map _).nodup_iff, List.map_cons, List.nodup_cons] at hnodup
  have hother : ∀ f ∈ before ++ after, f.1 ≠ tag := by
    rintro f hf rfl
    exact hnodup.1 (List.mem_map.2 ⟨f, hf, rfl⟩)
  have herase : (t.erase tag).entries = before ++ after := by
    show t.entries.filter (fun e => e.1 != tag) = _
    rw [hentries, List.filter_append, List.filter_cons_of_neg (by simp), ← List.filter_append]
    exact List.filter_eq_self.2 fun f hf => by simpa using hother f hf
  rw [Value.ofTable, Value.ofTable, herase, hentries]
  exact tagged?_object hother

/-! ## Texts -/

namespace Value

theorem exact_string (s : String) : (string s).Exact := by
  intro n hn
  cases List.mem_singleton.1 hn

/-- The numbers of an object are those of its fields. -/
theorem exact_object {fields : List (String × Value)} (h : ∀ f ∈ fields, f.2.Exact) :
    (object fields).Exact := by
  have hfields : ∀ n, Token.number (some n) ∈ fieldTokens fields → n.reread = some n := by
    intro n hn
    induction fields with
    | nil => cases hn
    | cons f rest ih =>
      obtain ⟨name, v⟩ := f
      have hvalue := h (name, v) List.mem_cons_self
      have hrest := ih fun f hf => h f (List.mem_cons_of_mem _ hf)
      cases rest with
      | nil =>
        rw [fieldTokens, List.mem_cons, List.mem_cons] at hn
        rcases hn with hn | hn | hn
        · cases hn
        · cases hn
        · exact hvalue n hn
      | cons g rest =>
        rw [fieldTokens_cons, List.mem_append, List.mem_cons, List.mem_cons, List.mem_cons] at hn
        rcases hn with (hn | hn | hn) | hn | hn
        · cases hn
        · cases hn
        · exact hvalue n hn
        · cases hn
        · exact hrest hn
  intro n hn
  rw [tokens, List.mem_append, List.mem_cons, List.mem_singleton] at hn
  rcases hn with (hn | hn) | hn
  · cases hn
  · exact hfields n hn
  · cases hn

end Value

/-- Fields that hold texts. -/
def Textual (fields : List (String × Value)) : Prop := ∀ f ∈ fields, ∃ s, f.2 = .string s

namespace Textual

variable {fields more : List (String × Value)}

theorem append (h : Textual fields) (hmore : Textual more) : Textual (fields ++ more) := by
  intro f hf
  exact (List.mem_append.1 hf).elim (h f) (hmore f)

theorem toList_map {α : Type} (name : String) (write : α → String) (o : Option α) :
    Textual (o.map fun a => (name, .string (write a))).toList := by
  intro f hf
  obtain ⟨a, -, rfl⟩ := Option.map_eq_some_iff.1 (Option.mem_toList.1 hf)
  exact ⟨_, rfl⟩

theorem exact_object (h : Textual fields) : (Value.object fields).Exact := by
  refine Value.exact_object fun f hf => ?_
  obtain ⟨s, hs⟩ := h f hf
  rw [hs]
  exact Value.exact_string s

theorem value?_object (h : Textual fields) (room : Nat) :
    Raw.value? (room + 1) (.ofValue (.object fields)) = some (.ofTable (Table.ofList fields)) := by
  have hfields : Raw.fieldValues? room (Raw.ofFields fields) = some fields := by
    induction fields with
    | nil => rfl
    | cons f rest ih =>
      obtain ⟨s, hs⟩ := h f List.mem_cons_self
      obtain ⟨name, v⟩ := f
      cases hs
      rw [Raw.ofFields, Raw.fieldValues?, ih fun f hf => h f (List.mem_cons_of_mem _ hf)]
      rfl
  rw [Raw.ofValue, Raw.value?, hfields]
  rfl

end Textual

end Json

end RosterPanel
