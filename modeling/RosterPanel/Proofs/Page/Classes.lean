import RosterPanel.Proofs.Page.Trees

/-!
# Class names

Writing class names and reading them again. Results:

* `wordsFrom_intercalate`: the words of a text that was put together from words are those words.
* `Element.classes_setClasses`: what is written is read.
* `Element.classes_addClass`, `Element.classes_removeClass`, `Element.classes_setDisabled`: what
  each change of an element does to its class names.
-/

namespace RosterPanel.Page

/-- Whether a text can be a class name: it is not empty and there is no white space in it. -/
def IsWord (w : String) : Prop := w ≠ "" ∧ ∀ c ∈ w.toList, isBlank c = false

theorem isWord_of_all {w : String} (hne : w ≠ "") (h : w.toList.all (!isBlank ·) = true) :
    IsWord w := by
  refine ⟨hne, fun c hc => ?_⟩
  have hblank := List.all_eq_true.1 h c hc
  simpa using hblank

theorem wordsFrom_append (read w rest : List Char) (hw : ∀ c ∈ w, isBlank c = false) :
    wordsFrom read (w ++ rest) = wordsFrom (w.reverse ++ read) rest := by
  induction w generalizing read with
  | nil => rfl
  | cons c w ih =>
    have hc : isBlank c = false := hw c List.mem_cons_self
    rw [List.cons_append, wordsFrom, if_neg (by simp [hc]), ih _ fun d hd =>
      hw d (List.mem_cons_of_mem c hd)]
    simp

theorem isWord_of_mem_wordsFrom {read text : List Char} (hread : ∀ c ∈ read, isBlank c = false)
    {w : String} (hw : w ∈ wordsFrom read text) : IsWord w := by
  have hdone : ∀ read : List Char, (∀ c ∈ read, isBlank c = false) → read.isEmpty = false →
      IsWord (String.ofList read.reverse) := by
    intro read hread hne
    refine ⟨fun hempty => ?_, fun c hc => ?_⟩
    · have hlist := congrArg String.toList hempty
      rw [String.toList_ofList, String.toList_empty, List.reverse_eq_nil_iff] at hlist
      rw [hlist] at hne
      cases hne
    · rw [String.toList_ofList, List.mem_reverse] at hc
      exact hread c hc
  induction text generalizing read with
  | nil =>
    rw [wordsFrom] at hw
    split at hw
    · cases hw
    · next hne =>
      rw [List.mem_singleton.1 hw]
      exact hdone read hread (by simpa using hne)
  | cons c rest ih =>
    rw [wordsFrom] at hw
    split at hw
    · split at hw
      · exact ih (by simp) hw
      · next hne =>
        rcases List.mem_cons.1 hw with rfl | hw
        · exact hdone read hread (by simpa using hne)
        · exact ih (by simp) hw
    · next hc =>
      refine ih (fun d hd => ?_) hw
      rcases List.mem_cons.1 hd with rfl | hd
      · simpa using hc
      · exact hread d hd

/-- A text put together from words has just these words. -/
theorem wordsFrom_intercalate {ws : List String} (hws : ∀ w ∈ ws, IsWord w) :
    wordsFrom [] (" ".intercalate ws).toList = ws := by
  induction ws with
  | nil => rfl
  | cons w rest ih =>
    rw [List.forall_mem_cons] at hws
    obtain ⟨⟨hne, hblank⟩, hrest⟩ := hws
    have hnonempty : (w.toList.reverse ++ []).isEmpty = false := by
      have hlist : w.toList ≠ [] := fun h => hne (String.toList_eq_nil_iff.1 h)
      simpa using hlist
    have hword : String.ofList (w.toList.reverse ++ []).reverse = w := by
      rw [List.append_nil, List.reverse_reverse, String.ofList_toList]
    by_cases hnil : rest = []
    · subst hnil
      rw [String.intercalate_singleton, ← List.append_nil w.toList, wordsFrom_append _ _ _ hblank,
        wordsFrom, if_neg (by rw [hnonempty]; decide), hword]
    · rw [String.intercalate_cons_of_ne_nil hnil, String.toList_append, String.toList_append,
        List.append_assoc, wordsFrom_append _ _ _ hblank]
      show wordsFrom _ (' ' :: (" ".intercalate rest).toList) = _
      rw [wordsFrom, if_pos (by decide), if_neg (by rw [hnonempty]; decide), hword, ih hrest]

theorem nodup_eraseDups {α : Type} [BEq α] [LawfulBEq α] :
    ∀ l : List α, l.eraseDups.Nodup
  | [] => by simp
  | a :: rest => by
    rw [List.eraseDups_cons, List.nodup_cons, List.mem_eraseDups]
    exact ⟨by simp, nodup_eraseDups _⟩
termination_by l => l.length
decreasing_by
  have := List.length_filter_le (fun b => !b == a) rest
  rw [List.length_cons]
  omega

theorem eraseDups_eq_self {α : Type} [BEq α] [LawfulBEq α] {l : List α} (h : l.Nodup) :
    l.eraseDups = l := by
  induction l with
  | nil => rfl
  | cons a rest ih =>
    rw [List.nodup_cons] at h
    have hfilter : rest.filter (fun b => !b == a) = rest := by
      refine List.filter_eq_self.2 fun b hb => ?_
      have hne : b ≠ a := fun heq => h.1 (heq ▸ hb)
      simp [hne]
    rw [List.eraseDups_cons, hfilter, ih h.2]

namespace Element

variable {M H : Type}

theorem isWord_of_mem_classes {e : Element M H} {w : String} (hw : w ∈ e.classes) : IsWord w := by
  rw [classes, List.mem_eraseDups] at hw
  exact isWord_of_mem_wordsFrom (by simp) hw

theorem nodup_classes (e : Element M H) : e.classes.Nodup := nodup_eraseDups _

/-- Writing class names changes the attributes only. -/
theorem exists_setClasses (e : Element M H) (names : List String) :
    ∃ attributes, e.setClasses names = { e with attributes } := by
  unfold setClasses
  split
  · exact ⟨e.attributes, rfl⟩
  · exact ⟨_, rfl⟩

theorem exists_setDisabled (e : Element M H) (disabled : Bool) :
    ∃ attributes, e.setDisabled disabled = { e with attributes } := by
  cases disabled with
  | true =>
    obtain ⟨attributes, h⟩ := exists_setClasses e
      (if e.hasClass disabledClass then e.classes else e.classes ++ [disabledClass])
    exact ⟨_, congrArg (·.setAttribute "disabled" "disabled") h⟩
  | false =>
    obtain ⟨attributes, h⟩ := exists_setClasses e (e.classes.filter (· != disabledClass))
    exact ⟨_, congrArg (·.removeAttribute "disabled") h⟩

theorem attribute?_setAttribute (e : Element M H) (name value other : String) :
    (e.setAttribute name value).attribute? other =
      if name = other then some value else e.attribute? other :=
  Table.find?_insert e.attributes name value other

theorem attribute?_removeAttribute (e : Element M H) (name other : String) :
    (e.removeAttribute name).attribute? other =
      if other = name then none else e.attribute? other :=
  Table.find?_erase e.attributes name other

/-- Class names that are written are read again. -/
theorem classes_setClasses (e : Element M H) {names : List String} (hnames : ∀ w ∈ names, IsWord w)
    (hnodup : names.Nodup) : (e.setClasses names).classes = names := by
  unfold setClasses
  split
  · next h =>
    rw [Bool.and_eq_true, List.isEmpty_iff, Option.isNone_iff_eq_none] at h
    rw [classes, h.1, h.2]
    rfl
  · rw [classes, attribute?_setAttribute, if_pos rfl]
    show (wordsFrom [] (" ".intercalate names).toList).eraseDups = names
    rw [wordsFrom_intercalate hnames]
    exact eraseDups_eq_self hnodup

/-- Writing class names leaves the other attributes alone. -/
theorem attribute?_setClasses (e : Element M H) (names : List String) {name : String}
    (hname : name ≠ "class") : (e.setClasses names).attribute? name = e.attribute? name := by
  unfold setClasses
  split
  · rfl
  · rw [attribute?_setAttribute, if_neg (Ne.symm hname)]

theorem classes_addClass (e : Element M H) {name : String} (hname : IsWord name) :
    (e.addClass name).classes = if name ∈ e.classes then e.classes else e.classes ++ [name] := by
  have hcontains : e.hasClass name = true ↔ name ∈ e.classes := List.contains_iff_mem
  unfold addClass
  by_cases hmem : name ∈ e.classes
  · rw [if_pos (hcontains.2 hmem), if_pos hmem]
    exact classes_setClasses e (fun w hw => isWord_of_mem_classes hw) e.nodup_classes
  · rw [if_neg fun h => hmem (hcontains.1 h), if_neg hmem]
    refine classes_setClasses e (fun w hw => ?_) ?_
    · rcases List.mem_append.1 hw with hw | hw
      · exact isWord_of_mem_classes hw
      · rw [List.mem_singleton.1 hw]
        exact hname
    · rw [List.nodup_append]
      refine ⟨e.nodup_classes, by simp, fun a ha b hb heq => hmem ?_⟩
      rw [← List.mem_singleton.1 hb, ← heq]
      exact ha

theorem classes_removeClass (e : Element M H) (name : String) :
    (e.removeClass name).classes = e.classes.filter (· != name) := by
  refine classes_setClasses e (fun w hw => ?_) (e.nodup_classes.filter _)
  exact isWord_of_mem_classes (List.mem_filter.1 hw).1

theorem classes_setAttribute (e : Element M H) {name : String} (hname : name ≠ "class")
    (value : String) : (e.setAttribute name value).classes = e.classes := by
  rw [classes, attribute?_setAttribute, if_neg hname, classes]

theorem classes_removeAttribute (e : Element M H) {name : String} (hname : name ≠ "class") :
    (e.removeAttribute name).classes = e.classes := by
  rw [classes, attribute?_removeAttribute, if_neg (Ne.symm hname), classes]

theorem isWord_disabled : IsWord disabledClass := isWord_of_all (by decide) (by decide)

theorem classes_setDisabled (e : Element M H) (disabled : Bool) :
    (e.setDisabled disabled).classes =
      if disabled then
        if disabledClass ∈ e.classes then e.classes else e.classes ++ [disabledClass]
      else e.classes.filter (· != disabledClass) := by
  cases disabled with
  | true =>
    rw [if_pos rfl]
    exact (classes_setAttribute _ (by decide) _).trans (classes_addClass e isWord_disabled)
  | false =>
    rw [if_neg (by decide)]
    exact (classes_removeAttribute _ (by decide)).trans (classes_removeClass e disabledClass)

theorem attribute?_setDisabled (e : Element M H) (disabled : Bool) {name : String}
    (hname : name ≠ "class") :
    (e.setDisabled disabled).attribute? name =
      if name = "disabled" then (if disabled then some "disabled" else none)
      else e.attribute? name := by
  cases disabled with
  | true =>
    show ((e.addClass disabledClass).setAttribute "disabled" "disabled").attribute? name = _
    rw [attribute?_setAttribute, addClass, attribute?_setClasses _ _ hname]
    by_cases h : name = "disabled"
    · simp [h]
    · rw [if_neg (Ne.symm h), if_neg h]
  | false =>
    show ((e.removeClass disabledClass).removeAttribute "disabled").attribute? name = _
    rw [attribute?_removeAttribute, removeClass, attribute?_setClasses _ _ hname]
    simp

/-- The class names that are written when an element is shown as disabled or enabled. -/
theorem attribute?_class_setDisabled (e : Element M H) (disabled : Bool) :
    (e.setDisabled disabled).attribute? "class" =
      if (e.setDisabled disabled).classes.isEmpty && (e.attribute? "class").isNone then none
      else some (" ".intercalate (e.setDisabled disabled).classes) := by
  have hwritten : ∀ names : List String, (e.setClasses names).attribute? "class" =
      if names.isEmpty && (e.attribute? "class").isNone then none
      else some (" ".intercalate names) := by
    intro names
    unfold setClasses
    split
    · next h =>
      rw [Bool.and_eq_true, Option.isNone_iff_eq_none] at h
      exact h.2
    · rw [attribute?_setAttribute, if_pos rfl]
  rw [classes_setDisabled]
  cases disabled with
  | true =>
    have hnames : (if e.hasClass disabledClass then e.classes else e.classes ++ [disabledClass]) =
        if disabledClass ∈ e.classes then e.classes else e.classes ++ [disabledClass] := by
      simp [hasClass]
    show ((e.addClass disabledClass).setAttribute "disabled" "disabled").attribute? "class" = _
    rw [attribute?_setAttribute, if_neg (by decide), addClass, hwritten, hnames, if_pos rfl]
  | false =>
    show ((e.removeClass disabledClass).removeAttribute "disabled").attribute? "class" = _
    rw [attribute?_removeAttribute, if_neg (by decide), removeClass, hwritten,
      if_neg Bool.false_ne_true]

/-- Showing an element as disabled or enabled twice. -/
theorem setDisabled_setDisabled (e : Element M H) (disabled : Bool) :
    (e.setDisabled disabled).setDisabled disabled = e.setDisabled disabled := by
  have hclasses : ((e.setDisabled disabled).setDisabled disabled).classes =
      (e.setDisabled disabled).classes := by
    rw [classes_setDisabled (e.setDisabled disabled), classes_setDisabled e]
    cases disabled with
    | true =>
      simp only [if_true]
      split <;> simp_all
    | false => simp
  have hfound : ∀ name, ((e.setDisabled disabled).setDisabled disabled).attribute? name =
      (e.setDisabled disabled).attribute? name := by
    intro name
    by_cases hname : name = "class"
    · subst hname
      rw [attribute?_class_setDisabled (e.setDisabled disabled), hclasses,
        attribute?_class_setDisabled e]
      split <;> simp_all
    · rw [attribute?_setDisabled _ _ hname, attribute?_setDisabled _ _ hname]
      split <;> rfl
  obtain ⟨attributes, heq⟩ := exists_setDisabled (e.setDisabled disabled) disabled
  rw [heq] at hfound ⊢
  have hattributes : attributes = (e.setDisabled disabled).attributes := Table.ext_find? hfound
  rw [hattributes]

end Element

end RosterPanel.Page
