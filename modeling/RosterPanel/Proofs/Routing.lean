import Mathlib.Data.List.Basic
import RosterPanel.Frame
import RosterPanel.Proofs.Latching

/-!
# What becomes of a frame

A frame of the backend stands for a message, and the panel takes that in. Here the two are put
together for lists and for failures. Results:

* `Frame.Lists`: which kind of entities a listing is about.
* `Frame.Means`, `Frame.means_of_message?`: the message that a frame stands for, by verb.
* `Interspersed`: a list with more elements put in between; `Frame.message?_of_junk` and
  `Frame.message?_of_notUser` say what can be put between results without any effect.
* `Panel.relists_of_listing`: on LIST, `route` and `update` replace the list of its kind by what it
  lists.
* `Panel.only_releases_of_failure`: on a code of at least 400 they release at most one control, and
  give a notice.
-/

namespace RosterPanel

open Json (Value)

/-! ## The message of a frame -/

namespace Frame

variable {f : Frame}

theorem errorCode?_eq_some_iff {code : Nat} :
    f.errorCode? = some code ↔ f.code = some code ∧ 400 ≤ code := by
  constructor
  · intro h
    obtain ⟨c, hc, h⟩ := Option.bind_eq_some_iff.1 h
    split at h
    · next hle =>
      cases h
      exact ⟨hc, hle⟩
    · cases h
  · rintro ⟨hc, hle⟩
    rw [errorCode?, hc, Option.bind_some, if_pos (show firstErrorCode ≤ code from hle)]

theorem errorCode?_eq_none_iff :
    f.errorCode? = none ↔ ∀ code, f.code = some code → code < 400 := by
  simp only [Option.eq_none_iff_forall_ne_some, ne_eq, errorCode?_eq_some_iff, not_and, Nat.not_le]

/-- The kind that the data names. -/
def namedKind? (f : Frame) : Option EntityKind :=
  f.data.bind fun v => (v.field? "type").bind EntityKind.ofJson?

/-- Whether a listing is about entities of a kind: the data says so, or it names no kind and the
first entity is of that one. -/
def Lists (f : Frame) (k : EntityKind) : Prop :=
  f.namedKind? = some k ∨ f.namedKind? = none ∧ ∃ e rest, f.entities = e :: rest ∧ e.kind = k

theorem listedKind?_eq_some_iff {k : EntityKind} : f.listedKind? = some k ↔ f.Lists k := by
  show f.namedKind?.or (f.entities.head?.map Entity.kind) = some k ↔ _
  rw [Option.or_eq_some_iff, Lists, Option.map_eq_some_iff]
  refine or_congr_right (and_congr_right fun _ => ?_)
  constructor
  · rintro ⟨e, he, hk⟩
    obtain ⟨rest, hrest⟩ := List.head?_eq_some_iff.1 he
    exact ⟨e, rest, hrest, hk⟩
  · rintro ⟨e, rest, hrest, hk⟩
    exact ⟨e, by rw [hrest, List.head?_cons], hk⟩

/-- The message that a frame stands for. Unless it is a failure, that depends on the verb. -/
inductive Means (f : Frame) : Message → Prop
  | failed {code : Nat} : f.code = some code → 400 ≤ code →
      f.Means (.commandFailed f.verb code (f.message.getD "Unknown error"))
  | listed {k : EntityKind} : f.verb = .list → f.Lists k →
      f.Means (.entitiesListed k (f.entities.filter (·.kind == k)))
  | created {e : Entity} : f.verb = .create → f.data.bind Entity.ofJson? = some e →
      f.Means (.entityCreated e f.callback)
  | deleted {id : String} : f.verb = .delete → f.id = some id → f.Means (.entityDeleted id)
  | added {userId groupId : String} : f.verb = .add → f.dataText? "id" = some userId →
      f.id = some groupId → f.Means (.memberAdded userId groupId)
  | removed {userId groupId : String} : f.verb = .remove → f.dataText? "id" = some userId →
      f.id = some groupId → f.Means (.memberRemoved userId groupId)
  | peopled {groupId : String} : f.verb = .children → f.id = some groupId →
      f.Means (.membersListed groupId (f.entities.filterMap Entity.user?))
  | loaded {id : String} : f.verb = .get → f.id = some id →
      f.Means (.propertiesLoaded id f.properties)
  | updated {id : String} : f.verb = .update → f.id = some id →
      f.Means (.entityUpdated id f.properties)

/-- The message that `route` gives for a frame is what the frame means, verb by verb. -/
theorem means_of_message? {m : Message} (h : f.message? = some m) : f.Means m := by
  unfold message? at h
  cases hcode : f.errorCode? with
  | some code =>
    rw [hcode] at h
    cases h
    obtain ⟨hcode, hle⟩ := errorCode?_eq_some_iff.1 hcode
    exact .failed hcode hle
  | none =>
    rw [hcode] at h
    cases hverb : f.verb with
    | unknown =>
      rw [hverb] at h
      cases h
    | list =>
      rw [hverb] at h
      obtain ⟨k, hk, rfl⟩ := Option.map_eq_some_iff.1 h
      exact .listed hverb (listedKind?_eq_some_iff.1 hk)
    | create =>
      rw [hverb] at h
      obtain ⟨e, he, rfl⟩ := Option.map_eq_some_iff.1 h
      exact .created hverb he
    | delete | children | get | update =>
      rw [hverb] at h
      obtain ⟨id, hid, rfl⟩ := Option.map_eq_some_iff.1 h
      first
        | exact .deleted hverb hid
        | exact .peopled hverb hid
        | exact .loaded hverb hid
        | exact .updated hverb hid
    | add | remove =>
      rw [hverb] at h
      obtain ⟨userId, huser, h⟩ := Option.bind_eq_some_iff.1 h
      obtain ⟨groupId, hgroup, h⟩ := Option.bind_eq_some_iff.1 h
      cases h
      first
        | exact .added hverb huser hgroup
        | exact .removed hverb huser hgroup

theorem message?_of_failed {code : Nat} (hcode : f.code = some code) (hle : 400 ≤ code) :
    f.message? = some (.commandFailed f.verb code (f.message.getD "Unknown error")) := by
  rw [message?, errorCode?_eq_some_iff.2 ⟨hcode, hle⟩]

theorem message?_of_list (hverb : f.verb = .list)
    (hcode : ∀ code, f.code = some code → code < 400) :
    f.message? =
      f.listedKind?.map fun k => .entitiesListed k (f.entities.filter (·.kind == k)) := by
  rw [message?, errorCode?_eq_none_iff.2 hcode, hverb]

theorem message?_of_children (hverb : f.verb = .children)
    (hcode : ∀ code, f.code = some code → code < 400) :
    f.message? = f.id.map fun g => .membersListed g (f.entities.filterMap Entity.user?) := by
  rw [message?, errorCode?_eq_none_iff.2 hcode, hverb]

end Frame

/-! ## Results that do not count -/

/-- The second list is the first with more elements of some sort put in, wherever and however
many. -/
inductive Interspersed {α : Type} (p : α → Prop) : List α → List α → Prop
  | nil : Interspersed p [] []
  | keep (a : α) {l m : List α} : Interspersed p l m → Interspersed p (a :: l) (a :: m)
  | insert {a : α} {l m : List α} : p a → Interspersed p l m → Interspersed p l (a :: m)

/-- What is put in makes no difference to a reader who skips it. -/
theorem Interspersed.filterMap {α β : Type} {p : α → Prop} {l m : List α} (h : Interspersed p l m)
    {read : α → Option β} (hskip : ∀ a, p a → read a = none) :
    m.filterMap read = l.filterMap read := by
  induction h with
  | nil => rfl
  | keep a _ ih => rw [List.filterMap_cons, List.filterMap_cons, ih]
  | insert ha _ ih => rw [List.filterMap_cons_none (hskip _ ha), ih]

namespace Frame

variable {f : Frame} {values : List Value}

/-- All that counts of the results are the entities among them. -/
theorem message?_congr_entities
    (h : values.filterMap Entity.ofJson? = f.entities) :
    { f with result := some values }.message? = f.message? := by
  have hentities : { f with result := some values }.entities = f.entities := h
  unfold message? listedKind?
  rw [hentities]
  rfl

/-- For the members of a group, only the users count. -/
theorem message?_congr_users (hverb : f.verb = .children)
    (h : (values.filterMap Entity.ofJson?).filterMap Entity.user? =
      f.entities.filterMap Entity.user?) :
    { f with result := some values }.message? = f.message? := by
  let f' : Frame := { f with result := some values }
  have husers : f'.entities.filterMap Entity.user? = f.entities.filterMap Entity.user? := h
  show f'.message? = f.message?
  cases hcode : f.errorCode? with
  | some code =>
    obtain ⟨hcode, hle⟩ := errorCode?_eq_some_iff.1 hcode
    rw [message?_of_failed hcode hle, message?_of_failed (f := f') hcode hle]
  | none =>
    have hcode := errorCode?_eq_none_iff.1 hcode
    rw [message?_of_children hverb hcode, message?_of_children (f := f') hverb hcode, husers]

theorem message?_of_junk
    (h : Interspersed (fun v => Entity.ofJson? v = none) (f.result.getD []) values) :
    { f with result := some values }.message? = f.message? :=
  message?_congr_entities (h.filterMap fun _ hv => hv)

theorem message?_of_notUser (hverb : f.verb = .children)
    (h : Interspersed (fun v => ∀ u, Entity.ofJson? v ≠ some (.user u)) (f.result.getD []) values) :
    { f with result := some values }.message? = f.message? := by
  refine message?_congr_users hverb ?_
  rw [entities, List.filterMap_filterMap, List.filterMap_filterMap]
  refine h.filterMap fun v hv => ?_
  cases he : Entity.ofJson? v with
  | none => rfl
  | some e =>
    cases e with
    | user u => exact absurd he (hv u)
    | group g => rfl

end Frame

/-! ## Listings -/

namespace Panel

/-- What a panel makes of the entities that a listing of a kind brings: it takes over those of the
kind and keeps all else. Of the members it keeps those of groups that are listed, and asks for the
members of all these groups anew. -/
def Relists (p : Panel) (es : List Entity) : EntityKind → Reaction → Prop
  | .user, r => ∃ users, users.map Entity.user = es.filter (·.kind == .user) ∧
      r = ({ p with users, usersListed := true }, [.draw .users])
  | .group, r => ∃ groups members, groups.map Entity.group = es.filter (·.kind == .group) ∧
      (∀ id, members.find? id = if id ∈ groups.map (·.id) then p.members.find? id else none) ∧
      r = ({ p with groups, members, groupsListed := true },
        .draw .groups :: groups.map fun g => .send { verb := .children, id := some g.id })

/-- Entities of one kind are all there again when they have been taken for what they are. -/
theorem map_filterMap_of_kind {α : Type} {k : EntityKind} {read : Entity → Option α}
    {make : α → Entity} (h : ∀ e, e.kind = k → (read e).map make = some e) (es : List Entity) :
    ((es.filter (·.kind == k)).filterMap read).map make = es.filter (·.kind == k) := by
  rw [List.map_filterMap]
  have hread : ∀ e ∈ es.filter (·.kind == k), (read e).map make = some e := fun e he =>
    h e (by simpa using (List.mem_filter.1 he).2)
  rw [List.filterMap_congr hread, List.filterMap_some]

theorem relists_react (p : Panel) (es : List Entity) (k : EntityKind) :
    p.Relists es k (p.react (.entitiesListed k (es.filter (·.kind == k)))) := by
  cases k with
  | user =>
    refine ⟨_, map_filterMap_of_kind (fun e he => ?_) es, rfl⟩
    cases e with
    | user u => rfl
    | group g => cases he
  | group =>
    refine ⟨_, _, map_filterMap_of_kind (fun e he => ?_) es, fun id => ?_, rfl⟩
    · cases e with
      | user u => cases he
      | group g => rfl
    · rw [Table.find?_filter]
      simp only [List.any_eq_true, List.mem_map, beq_iff_eq]

/-- What `route` and `update` make of a frame without an error code. On LIST of a kind `k` (the one
that `data.type` names, or else that of the first result that `decode_entities` keeps), the list
becomes the decoded entities of kind `k`, and for groups `members` is cut down to these and CHILDREN
is sent for each; without a kind there is no message. Results that are no entity change nothing, nor
do those that are no user on CHILDREN, wherever they stand. -/
theorem relists_of_listing (p : Panel) (f : Frame) :
    (f.verb = .list → (∀ code, f.code = some code → code < 400) →
      (∀ k, f.Lists k → ∃ m, f.message? = some m ∧ p.Relists f.entities k (p.react m)) ∧
      ((∀ k, ¬ f.Lists k) → f.message? = none)) ∧
    (∀ values, Interspersed (fun v => Entity.ofJson? v = none) (f.result.getD []) values →
      { f with result := some values }.message? = f.message?) ∧
    (f.verb = .children → ∀ values,
      Interspersed (fun v => ∀ u, Entity.ofJson? v ≠ some (.user u)) (f.result.getD []) values →
      { f with result := some values }.message? = f.message?) := by
  refine ⟨fun hverb hcode => ⟨fun k hk => ?_, fun hnone => ?_⟩,
    fun _ => Frame.message?_of_junk, fun hverb _ => Frame.message?_of_notUser hverb⟩
  · refine ⟨_, ?_, p.relists_react f.entities k⟩
    rw [Frame.message?_of_list hverb hcode, Frame.listedKind?_eq_some_iff.2 hk, Option.map_some]
  · have hkind : f.listedKind? = none :=
      Option.eq_none_iff_forall_ne_some.2 fun k hk => hnone k (Frame.listedKind?_eq_some_iff.1 hk)
    rw [Frame.message?_of_list hverb hcode, hkind, Option.map_none]

/-- Two groups with a user between them. -/
def mixed : List Entity :=
  [.group ⟨"2", "Guests"⟩, .user ⟨"7", "jane", none⟩, .group ⟨"3", "Board"⟩]

/-- An answer that brings them and does not say what it lists. -/
def mixedAnswer (v : Verb) : Frame where
  verb := v
  id := some "2"
  callback := none
  code := some 200
  message := none
  data := none
  result := some (mixed.map Entity.json)

/-- As a listing it is one of groups, whatever else comes with it; as a list of members it counts
for the user alone. -/
theorem relists_of_listing_mixed :
    let p : Panel := { fresh { ahead := [] } with
      groups := [⟨"1", "Staff"⟩, ⟨"2", "Guests"⟩]
      members := ((∅ : Table (List User)).insert "1" []).insert "2" [] }
    let f := mixedAnswer .list
    let g := mixedAnswer .children
    (f.Lists .group ∧ ∃ m, f.message? = some m ∧ p.Relists mixed .group (p.react m)) ∧
      { f with result := some (.null :: mixed.map Entity.json) }.message? = f.message? ∧
      { g with result := some (mixed.map Entity.json ++ [Entity.json (.group ⟨"4", "Cooks"⟩)])
        }.message? = g.message? := by
  intro p f g
  have hlists : f.Lists .group := Or.inr ⟨rfl, _, _, rfl, rfl⟩
  have hcode : ∀ code, f.code = some code → code < 400 := by
    rintro code ⟨⟩
    decide
  obtain ⟨hlisting, hjunk, -⟩ := p.relists_of_listing f
  obtain ⟨-, -, husers⟩ := p.relists_of_listing g
  refine ⟨⟨hlists, (hlisting rfl hcode).1 .group hlists⟩, hjunk _ (.insert rfl ?_), husers rfl _ ?_⟩
  · exact .keep _ (.keep _ (.keep _ .nil))
  · exact .keep _ (.keep _ (.keep _ (.insert nofun .nil)))

/-! ## Failures -/

theorem commandFailed_eq (p : Panel) (v : Verb) (text : String) :
    p.commandFailed v text =
      ({ p with latches := ⟨p.latches.pending.eraseP (·.verb == v)⟩ },
        ((p.latches.pending.find? (·.verb == v)).toList.map fun a => .free a.control) ++
          [.notify .error (v.name ++ " failed: " ++ text)]) := by
  rw [commandFailed, Latches.releaseVerb, Latches.releaseFirst_eq]
  cases p.latches.pending.find? (·.verb == v) <;> rfl

/-- On a frame with `code` at least 400, `route` and `update` release the oldest latch of its
command, as `resolve_kind` does, and give the notice `<command> failed: <message>`, or
`Unknown error` for want of a message; nothing else changes. A frame without such a code is never
taken as `CommandFailed`. -/
theorem only_releases_of_failure (p : Panel) (f : Frame) :
    (∀ code, f.code = some code → 400 ≤ code → ∃ m, f.message? = some m ∧
      p.react m = ({ p with latches := ⟨p.latches.pending.eraseP (·.verb == f.verb)⟩ },
        ((p.latches.pending.find? (·.verb == f.verb)).toList.map fun a => .free a.control) ++
          [.notify .error (f.verb.name ++ " failed: " ++ f.message.getD "Unknown error")])) ∧
    ((∀ code, f.code = some code → code < 400) →
      ∀ v code text, f.message? ≠ some (.commandFailed v code text)) := by
  constructor
  · intro code hcode hle
    exact ⟨_, Frame.message?_of_failed hcode hle, p.commandFailed_eq _ _⟩
  · intro hcode v code text hm
    cases Frame.means_of_message? hm with
    | failed hfailed hle => exact absurd (hcode _ hfailed) (Nat.not_lt.2 hle)

/-- A creation that the backend refuses, though it describes the entity in full, frees the control
that has waited longest, and a deletion with a code of its own is no failure. -/
theorem only_releases_of_failure_taken :
    let p : Panel := { fresh { ahead := [] } with
      latches := ⟨[⟨.addUser, .create⟩, ⟨.addGroup, .create⟩]⟩ }
    let f : Frame := { mixedAnswer .create with
      code := some 422
      message := some "name taken"
      data := some (Entity.json (.group ⟨"2", "Guests"⟩)) }
    (∃ m, f.message? = some m ∧ p.react m = ({ p with latches := ⟨[⟨.addGroup, .create⟩]⟩ },
      [.free .addUser, .notify .error "CREATE failed: name taken"])) ∧
    ∀ v code text, (mixedAnswer .delete).message? ≠ some (.commandFailed v code text) := by
  intro p f
  refine ⟨(p.only_releases_of_failure f).1 422 rfl (by decide),
    (p.only_releases_of_failure (mixedAnswer .delete)).2 ?_⟩
  rintro code ⟨⟩
  decide

end Panel

end RosterPanel
