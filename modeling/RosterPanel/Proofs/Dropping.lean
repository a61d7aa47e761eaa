import Mathlib.Data.List.Nodup
import RosterPanel.Proofs.Wire

/-!
# Texts that are dropped

A text that is dropped on a group may come from a user's block, and as well from anywhere else. It
stands for a user only if it is a payload as the panel itself would accept it from its own blocks.
Results:

* `Raw.IsPayload`: the two forms that a payload may have, an object or an array.
* `DragPayload.ofRaw?_eq_some_iff`: these forms are all that is read as a payload.
* `DragPayload.userIdOfText?_iff`: `parse_user_drag s = some userId` if and only if `s` is JSON for
  such a payload of the kind `user` with the id `userId`, and that is not empty.
-/

namespace RosterPanel

open Json (Raw Record)

/-! ## Fields of an object -/

namespace Table

variable {α : Type} {name : String} {l : List (String × α)}

/-- All that stands under a name in a list of fields. -/
def under (name : String) (l : List (String × α)) : List α :=
  (l.filter (·.1 == name)).map (·.2)

theorem under_eq_nil (h : name ∉ l.map (·.1)) : under name l = [] := by
  rw [under, List.map_eq_nil_iff, List.filter_eq_nil_iff]
  intro e he heq
  exact h (eq_of_beq heq ▸ List.mem_map_of_mem he)

/-- Among fields with distinct names, what is found under a name is all that stands under it. -/
theorem lookup_eq_some_iff_under (h : (l.map (·.1)).Nodup) {a : α} :
    l.lookup name = some a ↔ under name l = [a] := by
  induction l with
  | nil => simp [under]
  | cons e rest ih =>
    rw [List.map_cons, List.nodup_cons] at h
    by_cases hname : e.1 = name
    · have hrest : under name rest = [] := under_eq_nil (hname ▸ h.1)
      have hall : under name (e :: rest) = e.2 :: under name rest := by simp [under, hname]
      rw [lookup_cons_ite, if_pos hname, hall, hrest, Option.some.injEq, List.cons.injEq]
      exact (and_iff_left rfl).symm
    · have hall : under name (e :: rest) = under name rest := by simp [under, hname]
      rw [lookup_cons_ite, if_neg hname, hall]
      exact ih h.2

theorem under_filter (q : String → Bool) (hname : q name = true) :
    under name (l.filter fun e => q e.1) = under name l := by
  rw [under, List.filter_filter, under]
  congr 1
  refine List.filter_congr fun e _ => ?_
  by_cases heq : e.1 = name
  · simp [heq, hname]
  · simp [heq]

/-- Names are distinct if at most one field stands under each. -/
theorem nodup_filter_of_under {q : String → Bool}
    (h : ∀ name, q name = true → (under name l).length ≤ 1) :
    ((l.filter fun e => q e.1).map (·.1)).Nodup := by
  refine List.nodup_iff_count_le_one.2 fun name => ?_
  by_cases hname : q name = true
  · have hcount : ((l.filter fun e => q e.1).map (·.1)).count name =
        (under name (l.filter fun e => q e.1)).length := by
      rw [List.count, List.countP_map, List.countP_eq_length_filter, under, List.length_map]
      rfl
    rw [hcount, under_filter q hname]
    exact h name hname
  · rw [List.count_eq_zero.2]
    · exact Nat.zero_le 1
    · intro hmem
      obtain ⟨e, he, rfl⟩ := List.mem_map.1 hmem
      exact hname (List.mem_filter.1 he).2

end Table

namespace Json

/-- All names of fields are texts if they can be read. -/
theorem Raw.mapM_named_eq_some_iff {fields : List (Option String × Raw)}
    {named : List (String × Raw)} :
    fields.mapM (fun (name, item) => name.map fun name => (name, item)) = some named ↔
      fields = named.map fun f => (some f.1, f.2) := by
  induction fields generalizing named with
  | nil => cases named <;> simp
  | cons f rest ih =>
    obtain ⟨name, item⟩ := f
    cases name with
    | none => cases named <;> simp [List.mapM_cons]
    | some name =>
      cases named with
      | nil => simp [List.mapM_cons, Option.bind_eq_some_iff]
      | cons g more =>
        have hcons := @ih more
        simp only [List.mapM_cons, Option.map_some, Option.bind_eq_bind, Option.bind_some,
          Option.bind_eq_some_iff, Option.pure_def, Option.some.injEq, List.cons.injEq,
          List.map_cons, Prod.mk.injEq]
        constructor
        · rintro ⟨more', hmore, rfl, rfl⟩
          exact ⟨⟨rfl, rfl⟩, hcons.1 hmore⟩
        · rintro ⟨⟨rfl, rfl⟩, hmore⟩
          exact ⟨more, hcons.2 hmore, rfl, rfl⟩

theorem Raw.text?_eq_some_iff {raw : Raw} {s : String} :
    raw.text? = some s ↔ raw = .string (some s) := by
  cases raw <;> simp [text?]

theorem Record.text?_eq_some_iff {r : Record} {name s : String} :
    r.text? name = some s ↔ r.get? name = some (.string (some s)) := by
  simp [text?, Option.bind_eq_some_iff, Raw.text?_eq_some_iff]

/-- An object is read by its known fields, if all names are texts and no known one comes twice. -/
theorem Raw.record?_object_eq_some_iff {names : List String} {least : Nat}
    {fields : List (Option String × Raw)} {r : Record} :
    (Raw.object fields).record? names least = some r ↔
      ∃ named : List (String × Raw), fields = named.map (fun f => (some f.1, f.2)) ∧
        ((named.filter fun f => names.contains f.1).map (·.1)).Nodup ∧
          r = ⟨named.filter fun f => names.contains f.1⟩ := by
  simp only [record?, Option.bind_eq_bind, Option.bind_eq_some_iff, mapM_named_eq_some_iff]
  refine exists_congr fun named => and_congr_right fun _ => ?_
  split
  · next hnodup => rw [Option.some.injEq, and_iff_right hnodup, eq_comm]
  · next hnodup =>
    exact ⟨fun hnone => absurd hnone (Option.some_ne_none r).symm, fun h => absurd h.1 hnodup⟩

/-- A known field is found if and only if it comes once among all the fields. -/
theorem Record.get?_known {names : List String} {named : List (String × Raw)}
    (hnodup : ((named.filter fun f => names.contains f.1).map (·.1)).Nodup) {name : String}
    (hname : names.contains name = true) {item : Raw} :
    Record.get? ⟨named.filter fun f => names.contains f.1⟩ name = some item ↔
      Table.under name named = [item] := by
  have hunder := Table.under_filter (l := named) (fun name => names.contains name) hname
  rw [get?, Table.lookup_eq_some_iff_under hnodup, hunder]

/-- An array of two items holds the fields in their order. -/
theorem Raw.eq_of_record?_array {items : List Raw} {r : Record}
    (hr : (Raw.array items).record? ["type", "id"] 2 = some r) {kind id : Raw}
    (hkind : r.get? "type" = some kind) (hid : r.get? "id" = some id) : items = [kind, id] := by
  rw [record?] at hr
  split at hr
  · next hlength =>
    obtain ⟨first, second, rfl⟩ : ∃ first second, items = [first, second] :=
      List.length_eq_two.1 (Nat.le_antisymm hlength.2 hlength.1)
    cases hr
    have hne : ¬ "type" = "id" := by decide
    simp only [Record.get?, List.zip_cons_cons, lookup_cons_ite, if_neg hne, if_pos,
      Option.some.injEq] at hkind hid
    rw [hkind, hid]
  · cases hr

/-- What is a payload: an object with one `type` and one `id`, whatever else is in it, or an array
of the two. -/
inductive Raw.IsPayload (kind id : String) : Raw → Prop
  | named {fields : List (String × Raw)} :
      Table.under "type" fields = [.string (some kind)] →
      Table.under "id" fields = [.string (some id)] →
      IsPayload kind id (.object (fields.map fun f => (some f.1, f.2)))
  | positional : IsPayload kind id (.array [.string (some kind), .string (some id)])

end Json

namespace DragPayload

/-- What is named just once is known just once. -/
theorem nodup_known {fields : List (String × Raw)} {kind id : Raw}
    (hkind : Table.under "type" fields = [kind]) (hid : Table.under "id" fields = [id]) :
    ((fields.filter fun f => ["type", "id"].contains f.1).map (·.1)).Nodup := by
  refine Table.nodup_filter_of_under fun name hname => ?_
  have hname : name = "type" ∨ name = "id" := by simpa using hname
  rcases hname with rfl | rfl
  · rw [hkind]
    exact Nat.le_refl 1
  · rw [hid]
    exact Nat.le_refl 1

/-- A payload is read from its two forms and from nothing else. -/
theorem ofRaw?_eq_some_iff {raw : Raw} {p : DragPayload} :
    ofRaw? raw = some p ↔ raw.IsPayload p.kind p.id := by
  obtain ⟨kind, id⟩ := p
  have hread : ofRaw? raw = some ⟨kind, id⟩ ↔ ∃ r, raw.record? ["type", "id"] 2 = some r ∧
      r.get? "type" = some (.string (some kind)) ∧ r.get? "id" = some (.string (some id)) := by
    simp [ofRaw?, Option.bind_eq_some_iff, Record.text?_eq_some_iff]
  rw [hread]
  constructor
  · rintro ⟨r, hr, htype, hid⟩
    cases raw with
    | array items =>
      rw [Raw.eq_of_record?_array hr htype hid]
      exact .positional
    | object fields =>
      obtain ⟨named, rfl, hnodup, rfl⟩ := Raw.record?_object_eq_some_iff.1 hr
      exact .named ((Record.get?_known hnodup (by decide)).1 htype)
        ((Record.get?_known hnodup (by decide)).1 hid)
    | _ => cases hr
  · intro h
    cases h with
    | positional => exact ⟨_, rfl, rfl, rfl⟩
    | @named fields htype hid =>
      have hnodup := nodup_known htype hid
      exact ⟨_, Raw.record?_object_eq_some_iff.2 ⟨fields, rfl, hnodup, rfl⟩,
        (Record.get?_known hnodup (by decide)).2 htype,
        (Record.get?_known hnodup (by decide)).2 hid⟩

/-- For all texts `s` and ids: `parse_user_drag` gives `userId` if and only if `userId` is not empty
and `s` is JSON for a payload with `type` `user` and that `id`, an object with each of the two once
or the array of the two. So it gives back the id of `to_json` of `user` (`DragPayload`), unless that
is empty. -/
theorem userIdOfText?_iff :
    (∀ userId, userIdOfText? (user userId).text = if userId = "" then none else some userId) ∧
    (∀ s userId, userIdOfText? s = some userId ↔
      userId ≠ "" ∧ ∃ raw, Raw.ofText? s = some raw ∧ raw.IsPayload "user" userId) ∧
    ∀ s userId, userIdOfText? s = some userId →
      userIdOfText? (user userId).text = some userId := by
  have hwritten : ∀ userId,
      userIdOfText? (user userId).text = if userId = "" then none else some userId := by
    intro userId
    split
    · next hempty =>
      refine Option.eq_none_iff_forall_ne_some.2 fun other hother => ?_
      obtain ⟨hread, hne⟩ := userIdOfText?_eq_some_iff.1 hother
      rw [ofText?_text userId] at hread
      cases hread
      exact hne hempty
    · next hne => exact userIdOfText?_text hne
  refine ⟨hwritten, fun s userId => ?_, fun s userId hs => ?_⟩
  · rw [userIdOfText?_eq_some_iff, Option.bind_eq_some_iff, and_comm]
    exact and_congr_right fun _ => exists_congr fun raw => and_congr_right fun _ =>
      ofRaw?_eq_some_iff
  · rw [hwritten, if_neg (userIdOfText?_eq_some_iff.1 hs).2]

/-- A payload from elsewhere, as an array with a blank in it. What the panel writes for the same
user is the object without blanks. -/
theorem userIdOfText?_foreign :
    userIdOfText? "[\"user\", \"7\"]" = some "7" ∧ (user "7").text ≠ "[\"user\", \"7\"]" ∧
      userIdOfText? (user "7").text = some "7" := by
  have hforeign : userIdOfText? "[\"user\", \"7\"]" = some "7" := by decide +kernel
  exact ⟨hforeign, by decide +kernel, userIdOfText?_iff.2.2 _ _ hforeign⟩

end DragPayload

end RosterPanel
