/-!
# Tables

Finite maps from text to values, kept as lists of entries in strictly ascending order of their
keys (by code point). The order is part of the type, so a table is determined by what it finds:

* `Table.ext_find?`: two tables that find the same under every key are equal.
* `Table.find?_insert`, `Table.find?_insertAll`, `Table.find?_erase`, `Table.find?_filter`,
  `Table.find?_map`: what each operation does to the finite map that the table stands for.
* `Table.mem_keys`: the keys are those under which something is found.
-/

namespace RosterPanel

universe u v w

/-! ## Lists of entries -/

section Lookup

variable {κ : Type w} {α : Type u} {β : Type v} [DecidableEq κ]

theorem lookup_cons_ite (k : κ) (e : κ × α) (l : List (κ × α)) :
    (e :: l).lookup k = if e.1 = k then some e.2 else l.lookup k := by
  rw [List.lookup_cons]
  by_cases h : e.1 = k
  · rw [if_pos h, beq_iff_eq.2 h.symm]
  · rw [if_neg h, beq_eq_false_iff_ne.2 (Ne.symm h)]

theorem lookup_filter (p : κ → Bool) (k : κ) (l : List (κ × α)) :
    (l.filter fun e => p e.1).lookup k = if p k then l.lookup k else none := by
  induction l with
  | nil => simp
  | cons head rest ih =>
    by_cases hh : head.1 = k <;> by_cases hp : p head.1 <;> simp_all [lookup_cons_ite]

theorem lookup_map_snd (k : κ) (f : α → β) (l : List (κ × α)) :
    (l.map fun e => (e.1, f e.2)).lookup k = (l.lookup k).map f := by
  induction l with
  | nil => rfl
  | cons head rest ih =>
    rw [List.map_cons, lookup_cons_ite, lookup_cons_ite, ih]
    split <;> rfl

end Lookup

/-- A finite map from text to `α`, its entries in strictly ascending order of keys. -/
structure Table (α : Type u) where
  entries : List (String × α)
  ascending : entries.Pairwise (fun a b => a.1 < b.1)

namespace Table

variable {α : Type u} {β : Type v}

/-! ## Ascending entries -/

/-- Puts an entry at its place in an ascending list, over an older one under the same key. -/
def place (key : String) (value : α) : List (String × α) → List (String × α)
  | [] => [(key, value)]
  | head :: rest =>
    if key < head.1 then (key, value) :: head :: rest
    else if key = head.1 then (key, value) :: rest
    else head :: place key value rest

theorem mem_place {key : String} {value : α} {l : List (String × α)} {e : String × α}
    (h : e ∈ place key value l) : e = (key, value) ∨ e ∈ l := by
  induction l with
  | nil => simpa [place] using h
  | cons head rest ih =>
    unfold place at h
    split at h
    · simpa using h
    · split at h
      · rcases List.mem_cons.1 h with h | h
        · exact Or.inl h
        · exact Or.inr (List.mem_cons_of_mem _ h)
      · rcases List.mem_cons.1 h with h | h
        · exact Or.inr (h ▸ List.mem_cons_self)
        · exact (ih h).imp_right (List.mem_cons_of_mem _)

theorem lt_of_not_lt_of_ne {a b : String} (h : ¬ a < b) (hne : a ≠ b) : b < a := by
  apply Decidable.byContradiction
  intro h'
  exact hne (String.le_antisymm (String.not_lt.1 h') (String.not_lt.1 h))

theorem place_ascending (key : String) (value : α) {l : List (String × α)}
    (h : l.Pairwise (fun a b => a.1 < b.1)) :
    (place key value l).Pairwise (fun a b => a.1 < b.1) := by
  induction l with
  | nil => simp [place]
  | cons head rest ih =>
    obtain ⟨hhead, hrest⟩ := List.pairwise_cons.1 h
    unfold place
    split
    · next hlt =>
      refine List.pairwise_cons.2 ⟨fun e he => ?_, h⟩
      rcases List.mem_cons.1 he with rfl | he
      · exact hlt
      · exact String.lt_trans hlt (hhead e he)
    · next hlt =>
      split
      · next heq => exact List.pairwise_cons.2 ⟨fun e he => heq ▸ hhead e he, hrest⟩
      · next hne =>
        refine List.pairwise_cons.2 ⟨fun e he => ?_, ih hrest⟩
        rcases mem_place he with rfl | he
        · exact lt_of_not_lt_of_ne hlt hne
        · exact hhead e he

theorem lookup_eq_none_of_lt {key : String} {l : List (String × α)} (h : ∀ e ∈ l, key < e.1) :
    l.lookup key = none := by
  refine List.lookup_eq_none_iff.2 fun e he => bne_iff_ne.2 fun heq => ?_
  exact String.lt_irrefl key (heq ▸ h e he)

theorem lookup_of_mem {key : String} {value : α} {l : List (String × α)}
    (hl : l.Pairwise (fun a b => a.1 < b.1)) (h : (key, value) ∈ l) :
    l.lookup key = some value := by
  obtain ⟨before, after, rfl⟩ := List.append_of_mem h
  refine List.lookup_eq_some_iff.2 ⟨before, after, rfl, fun e he => bne_iff_ne.2 fun heq => ?_⟩
  have hlt := (List.pairwise_append.1 hl).2.2 e he (key, value) List.mem_cons_self
  exact String.lt_irrefl key (heq ▸ hlt)

theorem lookup_place (key k : String) (value : α) {l : List (String × α)}
    (hl : l.Pairwise (fun a b => a.1 < b.1)) :
    (place key value l).lookup k = if key = k then some value else l.lookup k := by
  induction l with
  | nil => rw [place, lookup_cons_ite]
  | cons head rest ih =>
    obtain ⟨-, hrest⟩ := List.pairwise_cons.1 hl
    unfold place
    split
    · rw [lookup_cons_ite]
    · split
      · next heq => by_cases hk : key = k <;> simp_all [lookup_cons_ite]
      · next hne =>
        rw [lookup_cons_ite, lookup_cons_ite, ih hrest]
        by_cases hh : head.1 = k
        · have hk : key ≠ k := fun h => hne (h.trans hh.symm)
          rw [if_pos hh, if_neg hk, if_pos hh]
        · rw [if_neg hh, if_neg hh]

theorem eq_of_lookup {l m : List (String × α)} (hl : l.Pairwise (fun a b => a.1 < b.1))
    (hm : m.Pairwise (fun a b => a.1 < b.1)) (h : ∀ k, l.lookup k = m.lookup k) : l = m := by
  induction l generalizing m with
  | nil =>
    cases m with
    | nil => rfl
    | cons e rest => simpa [lookup_cons_ite] using h e.1
  | cons d l' ih =>
    cases m with
    | nil => simpa [lookup_cons_ite] using h d.1
    | cons e m' =>
      obtain ⟨hd, hl'⟩ := List.pairwise_cons.1 hl
      obtain ⟨he, hm'⟩ := List.pairwise_cons.1 hm
      have hkey : d.1 = e.1 := by
        apply Decidable.byContradiction
        intro hne
        rcases Decidable.em (d.1 < e.1) with hlt | hlt
        · have hnone : (e :: m').lookup d.1 = none := by
            refine lookup_eq_none_of_lt fun x hx => ?_
            rcases List.mem_cons.1 hx with rfl | hx
            · exact hlt
            · exact String.lt_trans hlt (he x hx)
          have hfound := h d.1
          rw [hnone] at hfound
          simp [lookup_cons_ite] at hfound
        · have hgt := lt_of_not_lt_of_ne hlt hne
          have hnone : (d :: l').lookup e.1 = none := by
            refine lookup_eq_none_of_lt fun x hx => ?_
            rcases List.mem_cons.1 hx with rfl | hx
            · exact hgt
            · exact String.lt_trans hgt (hd x hx)
          have hfound := h e.1
          rw [hnone] at hfound
          simp [lookup_cons_ite] at hfound
      have hval : d.2 = e.2 := by simpa [lookup_cons_ite, hkey] using h d.1
      have htail : l' = m' := by
        refine ih hl' hm' fun k => ?_
        by_cases hk : d.1 = k
        · rw [lookup_eq_none_of_lt fun x hx => hk ▸ hd x hx,
            lookup_eq_none_of_lt fun x hx => hk ▸ hkey ▸ he x hx]
        · have hk' : e.1 ≠ k := fun h' => hk (hkey.trans h')
          simpa [lookup_cons_ite, hk, hk'] using h k
      rw [htail, Prod.ext hkey hval]

/-! ## Operations -/

instance : EmptyCollection (Table α) := ⟨⟨[], List.Pairwise.nil⟩⟩

instance : Inhabited (Table α) := ⟨∅⟩

/-- The value under `key`. -/
def find? (t : Table α) (key : String) : Option α :=
  t.entries.lookup key

/-- Whether there is an entry under `key`. -/
def contains (t : Table α) (key : String) : Bool :=
  (t.find? key).isSome

/-- Puts `value` under `key`, in place of an older one. -/
def insert (t : Table α) (key : String) (value : α) : Table α :=
  ⟨place key value t.entries, place_ascending key value t.ascending⟩

/-- Keeps the entries whose key passes. -/
def filter (p : String → Bool) (t : Table α) : Table α :=
  ⟨t.entries.filter fun e => p e.1, t.ascending.filter _⟩

/-- Drops the entry under `key`. -/
def erase (t : Table α) (key : String) : Table α :=
  t.filter (· != key)

/-- Changes every value, the keys staying as they are. -/
def map (f : α → β) (t : Table α) : Table β :=
  ⟨t.entries.map fun e => (e.1, f e.2), List.pairwise_map.2 t.ascending⟩

/-- The keys, ascending. -/
def keys (t : Table α) : List String :=
  t.entries.map (·.1)

/-- Inserts entries one after the other, so that of two under one key the last stays. -/
def insertAll (t : Table α) (l : List (String × α)) : Table α :=
  l.foldl (fun t e => t.insert e.1 e.2) t

/-- The table of a list of entries; of two under one key the last stays. -/
def ofList (l : List (String × α)) : Table α :=
  insertAll ∅ l

/-! ## The finite map of a table -/

theorem ext_find? {s t : Table α} (h : ∀ k, s.find? k = t.find? k) : s = t := by
  obtain ⟨l, hl⟩ := s
  obtain ⟨m, hm⟩ := t
  have : l = m := eq_of_lookup hl hm h
  cases this
  rfl

@[simp] theorem find?_empty (k : String) : (∅ : Table α).find? k = none := rfl

theorem find?_insert (t : Table α) (key : String) (value : α) (k : String) :
    (t.insert key value).find? k = if key = k then some value else t.find? k :=
  lookup_place key k value t.ascending

theorem find?_filter (t : Table α) (p : String → Bool) (k : String) :
    (t.filter p).find? k = if p k then t.find? k else none :=
  lookup_filter p k t.entries

theorem find?_erase (t : Table α) (key k : String) :
    (t.erase key).find? k = if k = key then none else t.find? k := by
  rw [erase, find?_filter]
  by_cases h : k = key <;> simp [h]

theorem find?_map (t : Table α) (f : α → β) (k : String) :
    (t.map f).find? k = (t.find? k).map f :=
  lookup_map_snd k f t.entries

/-- Of entries with distinct keys each replaces what was under its key. -/
theorem find?_insertAll (t : Table α) {l : List (String × α)} (hl : (l.map (·.1)).Nodup)
    (k : String) : (t.insertAll l).find? k = (l.lookup k).or (t.find? k) := by
  induction l generalizing t with
  | nil => rfl
  | cons head rest ih =>
    rw [List.map_cons, List.nodup_cons] at hl
    have hrest := ih (t.insert head.1 head.2) hl.2
    rw [find?_insert] at hrest
    rw [lookup_cons_ite]
    refine hrest.trans ?_
    split
    · next heq =>
      have hnone : rest.lookup k = none := by
        refine List.lookup_eq_none_iff.2 fun e he => bne_iff_ne.2 fun hkey => hl.1 ?_
        exact heq ▸ hkey ▸ List.mem_map_of_mem he
      rw [hnone]
      rfl
    · rfl

theorem map_id (t : Table α) : t.map id = t := by
  refine ext_find? fun k => ?_
  rw [find?_map, Option.map_id_apply]

theorem map_map {γ : Type} (t : Table α) (f : α → β) (g : β → γ) :
    (t.map f).map g = t.map (g ∘ f) := by
  refine ext_find? fun k => ?_
  rw [find?_map, find?_map, find?_map, Option.map_map]

/-- What becomes of the values that are there is all that counts. -/
theorem map_congr {t : Table α} {f g : α → β}
    (h : ∀ key value, t.find? key = some value → f value = g value) : t.map f = t.map g := by
  refine ext_find? fun k => ?_
  rw [find?_map, find?_map]
  cases hfind : t.find? k with
  | none => rfl
  | some value => rw [Option.map_some, Option.map_some, h k value hfind]

theorem mem_entries {t : Table α} {key : String} {value : α} :
    (key, value) ∈ t.entries ↔ t.find? key = some value := by
  refine ⟨lookup_of_mem t.ascending, fun h => ?_⟩
  obtain ⟨before, after, heq, -⟩ := List.lookup_eq_some_iff.1 h
  rw [heq]
  exact List.mem_append_right before List.mem_cons_self

/-! ## Keys -/

/-- The keys are those under which something is found. -/
theorem mem_keys {t : Table α} {key : String} :
    key ∈ t.keys ↔ ∃ value, t.find? key = some value := by
  rw [keys, List.mem_map]
  constructor
  · rintro ⟨e, he, rfl⟩
    exact ⟨e.2, mem_entries.1 he⟩
  · rintro ⟨value, hfind⟩
    exact ⟨(key, value), mem_entries.2 hfind, rfl⟩

theorem nodup_keys (t : Table α) : t.keys.Nodup := by
  refine List.pairwise_map.2 (t.ascending.imp ?_)
  intro a b hlt heq
  rw [heq] at hlt
  exact String.lt_irrefl _ hlt

theorem find?_eq_none {t : Table α} {key : String} : t.find? key = none ↔ key ∉ t.keys := by
  rw [mem_keys, Option.eq_none_iff_forall_ne_some, not_exists]

theorem mem_keys_insert {t : Table α} {key : String} {value : α} {k : String} :
    k ∈ (t.insert key value).keys ↔ k = key ∨ k ∈ t.keys := by
  rw [mem_keys, mem_keys, find?_insert]
  by_cases h : key = k
  · simp [h]
  · simp [h, Ne.symm h]

theorem mem_keys_filter {t : Table α} {p : String → Bool} {k : String} :
    k ∈ (t.filter p).keys ↔ p k = true ∧ k ∈ t.keys := by
  rw [mem_keys, mem_keys, find?_filter]
  by_cases h : p k = true
  · simp [h]
  · simp [h]

theorem keys_map (t : Table α) (f : α → β) : (t.map f).keys = t.keys := by
  rw [keys, keys, map, List.map_map]
  rfl

/-- Nothing changes when an entry is dropped that is not there. -/
theorem erase_eq_self {t : Table α} {key : String} (h : key ∉ t.keys) : t.erase key = t := by
  refine ext_find? fun k => ?_
  rw [find?_erase]
  split
  · next heq => rw [heq, find?_eq_none.2 h]
  · rfl

end Table

end RosterPanel
