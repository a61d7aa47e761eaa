import Mathlib.Data.List.DropRight
import RosterPanel.Endpoint

/-!
# Addresses

The address of the backend is given as a text, with any number of slashes at its end. The base
address is that text without them. The socket's address is the base address with another scheme in
front, if it has one of the web, and with the path of the socket behind. Results:

* `Endpoint.baseUrl_ofUrl_eq_iff`: `base_url` after `from_url` is the one text without a slash at
  its end from which the given text comes by adding slashes.
* `Endpoint.Turned`: what becomes of a base address, whatever follows its scheme.
* `Endpoint.socketUrl_eq_iff`: `ws_url` by that relation, for every base address.
* `Endpoint.addresses_ofUrl`: `from_url`, `base_url` and `ws_url` for every text and any number of
  slashes.
-/

namespace RosterPanel

namespace Endpoint

variable {l : List Char} {s r base t url : String}

/-! ## Slashes at the end -/

/-- A text of slashes alone. -/
def slashes (k : Nat) : String := String.ofList (List.replicate k '/')

def EndsInSlash (s : String) : Prop := ∃ front, s = front ++ "/"

theorem endsInSlash_iff : EndsInSlash s ↔ s.toList.getLast? = some '/' := by
  rw [List.getLast?_eq_some_iff]
  constructor
  · rintro ⟨front, rfl⟩
    exact ⟨front.toList, String.toList_append⟩
  · rintro ⟨front, hfront⟩
    refine ⟨String.ofList front, String.toList_inj.1 ?_⟩
    rw [hfront, String.toList_append, String.toList_ofList]
    rfl

instance : DecidablePred EndsInSlash := fun _ => decidable_of_iff _ endsInSlash_iff.symm

/-- A text that follows another one decides how both together end. -/
theorem EndsInSlash.of_append (hne : r ≠ "") (h : EndsInSlash (s ++ r)) : EndsInSlash r := by
  have hlist : r.toList ≠ [] := fun hnil => hne (String.toList_inj.1 hnil)
  rw [endsInSlash_iff, String.toList_append, List.getLast?_append_of_ne_nil _ hlist] at h
  exact endsInSlash_iff.2 h

theorem trimSlashes_append_replicate (l : List Char) (k : Nat) :
    trimSlashes (l ++ List.replicate k '/') = trimSlashes l := by
  induction k with
  | zero => rw [List.replicate_zero, List.append_nil]
  | succ k ih =>
    rw [List.replicate_succ', ← List.append_assoc]
    exact (List.rdropWhile_concat_pos (· == '/') _ '/' rfl).trans ih

theorem trimSlashes_eq_self (h : l.getLast? ≠ some '/') : trimSlashes l = l := by
  refine List.rdropWhile_eq_self_iff.2 fun hl hslash => h ?_
  rw [List.getLast?_eq_some_getLast hl, eq_of_beq hslash]

theorem getLast?_trimSlashes_ne (l : List Char) : (trimSlashes l).getLast? ≠ some '/' := by
  intro h
  obtain ⟨front, hfront⟩ := List.getLast?_eq_some_iff.1 h
  have hl : trimSlashes l ≠ [] := by simp [hfront]
  refine List.rdropWhile_last_not (· == '/') l hl (beq_iff_eq.2 ?_)
  rwa [List.getLast?_eq_some_getLast hl, Option.some.injEq] at h

/-- Trimming takes slashes away and nothing else. -/
theorem exists_eq_trimSlashes_append (l : List Char) :
    ∃ k, l = trimSlashes l ++ List.replicate k '/' := by
  have hslashes : l.rtakeWhile (· == '/') = List.replicate (l.rtakeWhile (· == '/')).length '/' :=
    List.eq_replicate_of_mem fun c hc => by simpa using List.mem_rtakeWhile_imp hc
  refine ⟨(l.rtakeWhile (· == '/')).length, ?_⟩
  rw [← hslashes]
  exact List.rdropWhile_append_rtakeWhile.symm

/-! ## The base address -/

theorem toList_baseUrl (e : Endpoint) : e.baseUrl.toList = e.base := String.toList_ofList

theorem ofUrl_append_slashes (url : String) (k : Nat) : ofUrl (url ++ slashes k) = ofUrl url := by
  rw [ofUrl, String.toList_append, slashes, String.toList_ofList, trimSlashes_append_replicate]
  rfl

theorem baseUrl_ofUrl_of_not_endsInSlash (h : ¬ EndsInSlash s) : (ofUrl s).baseUrl = s := by
  rw [endsInSlash_iff] at h
  rw [baseUrl, ofUrl, trimSlashes_eq_self h, String.ofList_toList]

theorem not_endsInSlash_baseUrl_ofUrl (url : String) : ¬ EndsInSlash (ofUrl url).baseUrl := by
  rw [endsInSlash_iff, toList_baseUrl]
  exact getLast?_trimSlashes_ne url.toList

theorem exists_eq_baseUrl_append (url : String) : ∃ k, url = (ofUrl url).baseUrl ++ slashes k := by
  obtain ⟨k, hk⟩ := exists_eq_trimSlashes_append url.toList
  refine ⟨k, String.toList_inj.1 ?_⟩
  rw [String.toList_append, toList_baseUrl, slashes, String.toList_ofList]
  exact hk

/-- The text `base` is `base_url` after `from_url` of `url` if and only if it ends in no slash and
`url` is `base` with some slashes behind. -/
theorem baseUrl_ofUrl_eq_iff :
    (ofUrl url).baseUrl = base ↔ ¬ EndsInSlash base ∧ ∃ k, url = base ++ slashes k := by
  constructor
  · rintro rfl
    exact ⟨not_endsInSlash_baseUrl_ofUrl url, exists_eq_baseUrl_append url⟩
  · rintro ⟨hbase, k, rfl⟩
    rw [ofUrl_append_slashes, baseUrl_ofUrl_of_not_endsInSlash hbase]

theorem ofUrl_baseUrl_ofUrl (url : String) : ofUrl (ofUrl url).baseUrl = ofUrl url := by
  obtain ⟨k, hk⟩ := exists_eq_baseUrl_append url
  calc ofUrl (ofUrl url).baseUrl
    _ = ofUrl ((ofUrl url).baseUrl ++ slashes k) := (ofUrl_append_slashes _ k).symm
    _ = ofUrl url := by rw [← hk]

/-- What follows a scheme is kept, if it is there and does not end in a slash itself. -/
theorem baseUrl_ofUrl_append (s : String) (hne : r ≠ "") (hr : ¬ EndsInSlash r) :
    (ofUrl (s ++ r)).baseUrl = s ++ r :=
  baseUrl_ofUrl_of_not_endsInSlash fun h => hr (h.of_append hne)

/-! ## The socket's address -/

/-- What a base address is turned into. The scheme in front alone decides; the rest may hold any
text, also another scheme. -/
inductive Turned : String → String → Prop
  | secure (rest : String) : Turned ("https://" ++ rest) ("wss://" ++ rest)
  | plain (rest : String) : Turned ("http://" ++ rest) ("ws://" ++ rest)
  | kept {base : String} : (∀ rest, base ≠ "https://" ++ rest) →
      (∀ rest, base ≠ "http://" ++ rest) → Turned base base

/-- The two schemes of the web part after their common letters. -/
theorem secure_ne_plain (r s : String) : "https://" ++ r ≠ "http://" ++ s := by
  intro h
  have hlist : "https://".toList ++ r.toList = "http://".toList ++ s.toList := by
    rw [← String.toList_append, h, String.toList_append]
  simp at hlist

theorem after?_eq_some_iff {start text rest : List Char} :
    after? start text = some rest ↔ text = start ++ rest := by
  rw [after?]
  constructor
  · intro h
    split at h
    · next hstart =>
      obtain ⟨more, rfl⟩ := List.isPrefixOf_iff_prefix.1 hstart
      rw [List.drop_left, Option.some.injEq] at h
      rw [h]
    · cases h
  · rintro rfl
    rw [if_pos (List.isPrefixOf_iff_prefix.2 (List.prefix_append start rest)), List.drop_left]

theorem after?_base_eq_some_iff (e : Endpoint) (start : String) {rest : List Char} :
    after? start.toList e.base = some rest ↔ e.baseUrl = start ++ String.ofList rest := by
  rw [after?_eq_some_iff, ← String.toList_inj, toList_baseUrl, String.toList_append,
    String.toList_ofList]

theorem after?_base_eq_none_iff (e : Endpoint) (start : String) :
    after? start.toList e.base = none ↔ ∀ rest, e.baseUrl ≠ start ++ rest := by
  rw [Option.eq_none_iff_forall_ne_some]
  constructor
  · intro h rest hbase
    refine h rest.toList ((after?_base_eq_some_iff e start).2 ?_)
    rw [hbase, String.ofList_toList]
  · intro h rest hrest
    exact h _ ((after?_base_eq_some_iff e start).1 hrest)

/-- Every base address is turned into something. -/
theorem turned_socketBase (e : Endpoint) : Turned e.baseUrl (String.ofList e.socketBase) := by
  rw [socketBase]
  split
  · next rest hsecure =>
    rw [(after?_base_eq_some_iff e _).1 hsecure, String.ofList_append, String.ofList_toList]
    exact .secure _
  · next hsecure =>
    split
    · next rest hplain =>
      rw [(after?_base_eq_some_iff e _).1 hplain, String.ofList_append, String.ofList_toList]
      exact .plain _
    · next hplain =>
      exact .kept ((after?_base_eq_none_iff e _).1 hsecure) ((after?_base_eq_none_iff e _).1 hplain)

/-- A base address is turned into nothing else. -/
theorem Turned.socketBase_eq {e : Endpoint} (h : Turned e.baseUrl t) :
    e.socketBase = t.toList := by
  generalize hbase : e.baseUrl = base at h
  rw [socketBase]
  cases h with
  | secure rest =>
    have hsecure : after? "https://".toList e.base = some rest.toList := by
      rw [after?_base_eq_some_iff, String.ofList_toList, hbase]
    rw [hsecure, String.toList_append]
  | plain rest =>
    -- The secure scheme is looked for first, and must not be found.
    have hsecure : after? "https://".toList e.base = none :=
      (after?_base_eq_none_iff e _).2 fun other hother =>
        secure_ne_plain other rest (hother.symm.trans hbase)
    have hplain : after? "http://".toList e.base = some rest.toList := by
      rw [after?_base_eq_some_iff, String.ofList_toList, hbase]
    rw [hsecure, hplain, String.toList_append]
  | kept hsecure hplain =>
    rw [← hbase] at hsecure hplain
    rw [(after?_base_eq_none_iff e _).2 hsecure, (after?_base_eq_none_iff e _).2 hplain, ← hbase,
      toList_baseUrl]

/-- The text `t` followed by `/ws` is `ws_url` if and only if `t` is what the scheme makes of
`base_url`: `wss` for `https`, `ws` for `http`, and as it stands for all else. -/
theorem socketUrl_eq_iff (e : Endpoint) : e.socketUrl = t ++ "/ws" ↔ Turned e.baseUrl t := by
  have hurl : e.socketUrl = String.ofList e.socketBase ++ "/ws" := String.ofList_append
  constructor
  · intro h
    have hbase : String.ofList e.socketBase = t := by
      rw [hurl, ← String.toList_inj, String.toList_append, String.toList_append] at h
      exact String.toList_inj.1 (List.append_cancel_right h)
    exact hbase ▸ turned_socketBase e
  · intro h
    rw [hurl, h.socketBase_eq, String.ofList_toList]

/-! ## Both addresses -/

/-- For all texts `url` and numbers `k` of slashes: `from_url` of `url` and of `url` with `k` more
slashes are the same; `base_url` is `url` without the slashes at its end, and `from_url` of it is
the same again; `ws_url` of `http://r` is `ws://r/ws`, of `https://r` it is `wss://r/ws`, and of a
base address with neither scheme in front it is that address with `/ws` behind. The last clause says
the three in one. -/
theorem addresses_ofUrl :
    (∀ url k, ofUrl (url ++ slashes k) = ofUrl url) ∧
    (∀ url base,
      (ofUrl url).baseUrl = base ↔ ¬ EndsInSlash base ∧ ∃ k, url = base ++ slashes k) ∧
    (∀ url, ofUrl (ofUrl url).baseUrl = ofUrl url) ∧
    (∀ r, r ≠ "" → ¬ EndsInSlash r →
      (ofUrl ("http://" ++ r)).socketUrl = "ws://" ++ r ++ "/ws" ∧
        (ofUrl ("https://" ++ r)).socketUrl = "wss://" ++ r ++ "/ws") ∧
    (∀ url, (∀ r, (ofUrl url).baseUrl ≠ "https://" ++ r) →
      (∀ r, (ofUrl url).baseUrl ≠ "http://" ++ r) →
        (ofUrl url).socketUrl = (ofUrl url).baseUrl ++ "/ws") ∧
    ∀ url t, (ofUrl url).socketUrl = t ++ "/ws" ↔ Turned (ofUrl url).baseUrl t := by
  refine ⟨ofUrl_append_slashes, fun _ _ => baseUrl_ofUrl_eq_iff, ofUrl_baseUrl_ofUrl, ?_, ?_,
    fun url _ => socketUrl_eq_iff (ofUrl url)⟩
  · intro r hne hr
    constructor
    · rw [socketUrl_eq_iff, baseUrl_ofUrl_append _ hne hr]
      exact .plain r
    · rw [socketUrl_eq_iff, baseUrl_ofUrl_append _ hne hr]
      exact .secure r
  · intro url hsecure hplain
    rw [socketUrl_eq_iff]
    exact .kept hsecure hplain

/-- A scheme behind a scheme stays as it is. A scheme with nothing behind it loses its slashes and
is none any more. -/
theorem addresses_ofUrl_nested :
    "https://panel" ≠ "" ∧ ¬ EndsInSlash "https://panel" ∧
      (ofUrl ("http://https://panel" ++ slashes 2)).socketUrl = "ws://https://panel/ws" ∧
    (∀ r, (ofUrl "https://").baseUrl ≠ "https://" ++ r) ∧
      (∀ r, (ofUrl "https://").baseUrl ≠ "http://" ++ r) ∧
      (ofUrl "https://").socketUrl = "https:/ws" := by
  obtain ⟨hslashes, hbase, -, hweb, hkept, -⟩ := addresses_ofUrl
  have hne : "https://panel" ≠ "" := by decide
  have hend : ¬ EndsInSlash "https://panel" := by decide
  have halone : (ofUrl "https://").baseUrl = "https:" := (hbase _ _).2 ⟨by decide, 2, by decide⟩
  have hsecure : ∀ r, (ofUrl "https://").baseUrl ≠ "https://" ++ r :=
    (after?_base_eq_none_iff _ _).1 (by decide)
  have hplain : ∀ r, (ofUrl "https://").baseUrl ≠ "http://" ++ r :=
    (after?_base_eq_none_iff _ _).1 (by decide)
  refine ⟨hne, hend, ?_, hsecure, hplain, ?_⟩
  · rw [hslashes]
    exact (hweb _ hne hend).1
  · rw [hkept _ hsecure hplain, halone]
    rfl

end Endpoint

end RosterPanel
