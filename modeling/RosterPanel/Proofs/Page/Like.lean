import Mathlib.Data.List.Forall2
import RosterPanel.Proofs.Page.Marks

/-!
# Trees of like shape

Two trees are alike when they have the same shape and texts, and elements that are related
throughout; what the relation of the elements is, is left open. Results:

* `Node.Like.selves`: the elements of like trees are related one by one.
* `Node.Like.mapSelf`, `Node.Like.adjust`, `Node.Like.pruneAmong`: doing the like to both of two
  like trees gives like trees.
* `Node.like_number`: a numbered sketch is like the sketch.
-/

namespace RosterPanel.Page.Node

variable {L M N K H : Type}

/-- The same shape and texts, and related elements throughout. -/
inductive Like (R : Element M H → Element N H → Prop) : Node M H → Node N H → Prop
  | text (content : String) : Like R (.text content) (.text content)
  | element {e : Element M H} {s : Element N H} {cs : List (Node M H)} {ds : List (Node N H)} :
      R e s → List.Forall₂ (Like R) cs ds → Like R (.element e cs) (.element s ds)

/-- Lists of trees that are alike one by one. -/
abbrev LikeAll (R : Element M H → Element N H → Prop) (l : List (Node M H))
    (m : List (Node N H)) : Prop := List.Forall₂ (Like R) l m

variable {R : Element M H → Element N H → Prop} {a : Node M H} {b : Node N H}

theorem LikeAll.append {l₁ l₂ : List (Node M H)} {m₁ m₂ : List (Node N H)} (h₁ : LikeAll R l₁ m₁)
    (h₂ : LikeAll R l₂ m₂) : LikeAll R (l₁ ++ l₂) (m₁ ++ m₂) := List.rel_append h₁ h₂

/-- Something that holds between the children of like trees one by one. -/
theorem forall₂_imp_of_mem {α β : Type} {P Q : α → β → Prop} {l : List α} {m : List β}
    (h : List.Forall₂ P l m) (hPQ : ∀ a ∈ l, ∀ b ∈ m, P a b → Q a b) : List.Forall₂ Q l m := by
  induction h with
  | nil => exact .nil
  | cons hab hrest ih =>
    refine .cons (hPQ _ List.mem_cons_self _ List.mem_cons_self hab) (ih fun a ha b hb => ?_)
    exact hPQ a (List.mem_cons_of_mem _ ha) b (List.mem_cons_of_mem _ hb)

/-- The elements of like trees are related one by one. -/
theorem Like.selves (h : Like R a b) : List.Forall₂ R a.selves b.selves := by
  induction a generalizing b with
  | text content =>
    cases h
    exact .nil
  | element self children ih =>
    cases h with
    | element hself hchildren =>
      rw [selves_element, selves_element]
      refine .cons hself ?_
      rw [List.flatMap_def, List.flatMap_def]
      refine List.rel_flatten ?_
      rw [List.forall₂_map_left_iff, List.forall₂_map_right_iff]
      exact forall₂_imp_of_mem hchildren fun child hchild _ _ hlike => ih child hchild hlike

theorem LikeAll.selves {l : List (Node M H)} {m : List (Node N H)} (h : LikeAll R l m) :
    List.Forall₂ R (l.flatMap Node.selves) (m.flatMap Node.selves) := by
  rw [List.flatMap_def, List.flatMap_def]
  refine List.rel_flatten ?_
  rw [List.forall₂_map_left_iff, List.forall₂_map_right_iff]
  exact h.imp fun _ _ hlike => hlike.selves

theorem exists_of_forall₂_left {α β : Type} {P : α → β → Prop} {l : List α} {m : List β}
    (h : List.Forall₂ P l m) {a : α} (ha : a ∈ l) : ∃ b ∈ m, P a b := by
  induction h with
  | nil => cases ha
  | cons hab _ ih =>
    rcases List.mem_cons.1 ha with rfl | ha
    · exact ⟨_, List.mem_cons_self, hab⟩
    · obtain ⟨b, hb, hP⟩ := ih ha
      exact ⟨b, List.mem_cons_of_mem _ hb, hP⟩

theorem exists_of_forall₂_right {α β : Type} {P : α → β → Prop} {l : List α} {m : List β}
    (h : List.Forall₂ P l m) {b : β} (hb : b ∈ m) : ∃ a ∈ l, P a b := by
  obtain ⟨a, ha, hP⟩ := exists_of_forall₂_left h.flip hb
  exact ⟨a, ha, hP⟩

/-! ## Weaker and stronger relations -/

theorem Like.imp_of_mem {R' : Element M H → Element N H → Prop} (h : Like R a b)
    (hRR' : ∀ e ∈ a.selves, ∀ s ∈ b.selves, R e s → R' e s) : Like R' a b := by
  induction a generalizing b with
  | text content =>
    cases h
    exact .text content
  | element self children ih =>
    cases h with
    | @element _ s _ ds hself hchildren =>
      refine .element (hRR' _ (by simp) _ (by simp) hself) ?_
      refine forall₂_imp_of_mem hchildren fun c hc d hd hlike => ih c hc hlike fun e he t ht => ?_
      refine hRR' e ?_ t ?_
      · rw [selves_element]
        exact List.mem_cons_of_mem _ (List.mem_flatMap.2 ⟨c, hc, he⟩)
      · rw [selves_element]
        exact List.mem_cons_of_mem _ (List.mem_flatMap.2 ⟨d, hd, ht⟩)

theorem LikeAll.imp_of_mem {R' : Element M H → Element N H → Prop} {l : List (Node M H)}
    {m : List (Node N H)} (h : LikeAll R l m)
    (hRR' : ∀ e ∈ l.flatMap Node.selves, ∀ s ∈ m.flatMap Node.selves, R e s → R' e s) :
    LikeAll R' l m := by
  refine forall₂_imp_of_mem h fun c hc d hd hlike => hlike.imp_of_mem fun e he s hs => ?_
  exact hRR' e (List.mem_flatMap.2 ⟨c, hc, he⟩) s (List.mem_flatMap.2 ⟨d, hd, hs⟩)

/-! ## Doing the like to both -/

theorem Like.mapSelf {R' : Element L H → Element K H → Prop} {f : Element M H → Element L H}
    {g : Element N H → Element K H} (h : Like R a b) (hfg : ∀ e s, R e s → R' (f e) (g s)) :
    Like R' (a.mapSelf f) (b.mapSelf g) := by
  induction a generalizing b with
  | text content =>
    cases h
    rw [mapSelf_text, mapSelf_text]
    exact .text content
  | element self children ih =>
    cases h with
    | element hself hchildren =>
      rw [mapSelf_element, mapSelf_element]
      refine .element (hfg _ _ hself) ?_
      rw [List.forall₂_map_left_iff, List.forall₂_map_right_iff]
      exact forall₂_imp_of_mem hchildren fun c hc _ _ hlike => ih c hc hlike

theorem LikeAll.mapSelf {R' : Element L H → Element K H → Prop} {f : Element M H → Element L H}
    {g : Element N H → Element K H} {l : List (Node M H)} {m : List (Node N H)}
    (h : LikeAll R l m) (hfg : ∀ e s, R e s → R' (f e) (g s)) :
    LikeAll R' (l.map (Node.mapSelf f)) (m.map (Node.mapSelf g)) := by
  rw [LikeAll, List.forall₂_map_left_iff, List.forall₂_map_right_iff]
  exact h.imp fun _ _ hlike => hlike.mapSelf hfg

/-- Changing the elements on the left only. -/
theorem LikeAll.mapSelf_left {R' : Element M H → Element N H → Prop}
    {f : Element M H → Element M H} {l : List (Node M H)} {m : List (Node N H)}
    (h : LikeAll R l m) (hf : ∀ e s, R e s → R' (f e) s) :
    LikeAll R' (l.map (Node.mapSelf f)) m := by
  have hmap := h.mapSelf (g := fun s => s) hf
  rwa [map_eq_self fun node _ => mapSelf_eq_self fun _ _ => rfl] at hmap

/-- Changing the elements on the right only. -/
theorem LikeAll.mapSelf_right {R' : Element M H → Element N H → Prop}
    {g : Element N H → Element N H} {l : List (Node M H)} {m : List (Node N H)}
    (h : LikeAll R l m) (hg : ∀ e s, R e s → R' e (g s)) :
    LikeAll R' l (m.map (Node.mapSelf g)) := by
  have hmap := h.mapSelf (f := fun e => e) hg
  rwa [map_eq_self fun node _ => mapSelf_eq_self fun _ _ => rfl] at hmap

/-- To be like a changed tree is to be like the tree, up to the change. -/
theorem Like.of_mapSelf_right {R' : Element M H → Element K H → Prop}
    {g : Element N H → Element K H} (h : Like R' a (b.mapSelf g)) :
    Like (fun e s => R' e (g s)) a b := by
  induction b generalizing a with
  | text content =>
    rw [mapSelf_text] at h
    cases h
    exact .text content
  | element self children ih =>
    rw [mapSelf_element] at h
    cases h with
    | element hself hchildren =>
      refine .element hself ?_
      rw [List.forall₂_map_right_iff] at hchildren
      exact forall₂_imp_of_mem hchildren fun _ _ d hd hlike => ih d hd hlike

section

variable {p : Element M H → Bool} {q : Element N H → Bool}

theorem Like.adjust {f : Element M H → List (Node M H) → Node M H}
    {g : Element N H → List (Node N H) → Node N H} (h : Like R a b)
    (hpq : ∀ e s, R e s → p e = q s)
    (hfg : ∀ e s cs ds, R e s → LikeAll R cs ds → p e = true → Like R (f e cs) (g s ds)) :
    Like R (a.adjust p f) (b.adjust q g) := by
  induction a generalizing b with
  | text content =>
    cases h
    exact .text content
  | element self children ih =>
    cases h with
    | @element _ s _ ds hself hchildren =>
      unfold Node.adjust
      rw [← hpq _ _ hself]
      split
      · next hp => exact hfg _ _ _ _ hself hchildren hp
      · refine .element hself ?_
        rw [adjustAmong_eq, adjustAmong_eq, List.forall₂_map_left_iff, List.forall₂_map_right_iff]
        exact forall₂_imp_of_mem hchildren fun c hc _ _ hlike => ih c hc hlike

/-- Adding like trees to the children of the elements that pass. -/
theorem LikeAll.adjust_append {l : List (Node M H)} {m : List (Node N H)} (h : LikeAll R l m)
    (hpq : ∀ e s, R e s → p e = q s) {more : List (Node M H)} {also : List (Node N H)}
    (hmore : LikeAll R more also) :
    LikeAll R (l.map (Node.adjust p fun e cs => .element e (cs ++ more)))
      (m.map (Node.adjust q fun s ds => .element s (ds ++ also))) := by
  rw [LikeAll, List.forall₂_map_left_iff, List.forall₂_map_right_iff]
  exact h.imp fun _ _ hlike => hlike.adjust hpq fun _ _ _ _ hself hchildren _ =>
    .element hself (hchildren.append hmore)

theorem Like.test_eq (h : Like R a b) (hpq : ∀ e s, R e s → p e = q s) :
    a.test p = b.test q := by
  cases h with
  | text content => rfl
  | element hself _ => exact hpq _ _ hself

theorem forall₂_filter {α β : Type} {P : α → β → Prop} {p : α → Bool} {q : β → Bool} {l : List α}
    {m : List β} (h : List.Forall₂ P l m) (hpq : ∀ a b, P a b → p a = q b) :
    List.Forall₂ P (l.filter p) (m.filter q) := by
  induction h with
  | nil => exact .nil
  | @cons a b _ _ hab _ ih =>
    rw [List.filter_cons, List.filter_cons, ← hpq a b hab]
    split
    · exact .cons hab ih
    · exact ih

theorem LikeAll.pruneAmong {l : List (Node M H)} {m : List (Node N H)} (h : LikeAll R l m)
    (hpq : ∀ e s, R e s → p e = q s) :
    LikeAll R (Node.pruneAmong p l) (Node.pruneAmong q m) := by
  have hnode : ∀ (a : Node M H) (b : Node N H), Like R a b → Like R (a.prune p) (b.prune q) := by
    intro a
    induction a with
    | text content =>
      intro b h
      cases h
      exact .text content
    | element self children ih =>
      intro b h
      cases h with
      | element hself hchildren =>
        refine .element hself ?_
        rw [pruneAmong_eq, pruneAmong_eq, List.forall₂_map_left_iff, List.forall₂_map_right_iff]
        refine forall₂_imp_of_mem (forall₂_filter hchildren fun c d hcd => ?_)
          fun c hc d _ hcd => ih c (List.mem_filter.1 hc).1 d hcd
        rw [hcd.test_eq hpq]
  rw [pruneAmong_eq, pruneAmong_eq, LikeAll, List.forall₂_map_left_iff,
    List.forall₂_map_right_iff]
  refine (forall₂_filter h fun c d hcd => ?_).imp hnode
  rw [hcd.test_eq hpq]

end

/-! ## Numbered sketches -/

/-- Two ways to mark a tree give like trees, if they give related elements. -/
theorem like_mapMark {f : L → M} {g : L → N} {node : Node L H}
    (h : ∀ e ∈ node.selves, R (e.setMark (f e.mark)) (e.setMark (g e.mark))) :
    Like R (node.mapMark f) (node.mapMark g) := by
  induction node with
  | text content => exact .text content
  | element self children ih =>
    rw [selves_element, List.forall_mem_cons] at h
    rw [mapMark, mapMark, mapMarkAll_eq, mapMarkAll_eq]
    refine .element h.1 ?_
    rw [List.forall₂_map_left_iff, List.forall₂_map_right_iff, List.forall₂_same]
    exact fun c hc => ih c hc fun e he => h.2 e (List.mem_flatMap.2 ⟨c, hc, he⟩)

/-- A numbered sketch is like the sketch. -/
theorem like_number {R : Element Nat H → Element M H → Prop} (sketch : Node M H) (next : Nat)
    (h : ∀ e ∈ (sketch.number next).1.selves, R (e.setMark e.mark.2) (e.setMark e.mark.1)) :
    Like R ((sketch.number next).1.mapMark (·.2)) sketch := by
  have hlike := like_mapMark (f := Prod.snd) (g := Prod.fst) h
  rw [show ((sketch.number next).1.mapMark Prod.fst) = sketch from mapMark_number sketch next]
    at hlike
  exact hlike

end RosterPanel.Page.Node
