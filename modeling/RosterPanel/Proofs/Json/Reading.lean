import RosterPanel.Json.Raw
import RosterPanel.Proofs.Json.Numerals

/-!
# Reading what was written

The reader takes a text one character at a time, and a written value one piece at a time: the
characters of a string, then tokens, then items and fields. Results:

* `Piece.decode_escaped`, `Reader.foldlM_quote`: a quoted string is read as that string, whatever
  characters are in it.
* `Growing.take_tokens`: the tokens of a value build its tree.
* `Readable.tokens`: the characters of a value are read as its tokens, each number as its own text
  is read.
* `Raw.ofText?_text`: `ofText? v.text = some (reread v)` for every value, and
  `Raw.ofText?_text_of_exact`: this is the tree of the value itself if its numbers are read back as
  they are.
-/

namespace RosterPanel.Json

/-! ## Characters of a string -/

namespace Piece

/-- What the reader makes of a character that was written in a string. Only control characters
without an escape letter come as units. -/
def ofEscaped (c : Char) : Piece :=
  if c ∈ ['"', '\\', '\x08', '\t', '\n', '\x0c', '\r'] then .char c
  else if c.toNat < 0x20 then .unit c.toNat
  else .char c

theorem decode_char (c : Char) (rest : List Piece) :
    decode (.char c :: rest) = (decode rest).map (c :: ·) := by
  rw [decode]

/-- A unit below all surrogates is a character by itself. -/
theorem decode_unit {n : Nat} (h : n < 0xD800) (rest : List Piece) :
    decode (.unit n :: rest) = (decode rest).map (Char.ofNat n :: ·) := by
  have hhigh : isHigh n = false := by simp [isHigh]; omega
  have hlow : isLow n = false := by simp [isLow]; omega
  cases rest with
  | nil => simp [decode, hhigh, hlow]
  | cons piece rest => cases piece <;> simp [decode, hhigh, hlow]

/-- The pieces of a written string give the string back. -/
theorem decode_escaped (cs : List Char) : decode (cs.map ofEscaped) = some cs := by
  induction cs with
  | nil => rfl
  | cons c rest ih =>
    have hpiece : ofEscaped c = .char c ∨ c.toNat < 0x20 ∧ ofEscaped c = .unit c.toNat := by
      unfold ofEscaped
      split
      · exact Or.inl rfl
      · split
        · exact Or.inr ⟨‹_›, rfl⟩
        · exact Or.inl rfl
    rw [List.map_cons]
    rcases hpiece with hchar | ⟨hlt, hunit⟩
    · rw [hchar, decode_char, ih, Option.map_some]
    · rw [hunit, decode_unit (by omega), ih, Option.map_some, Char.ofNat_toNat]

end Piece

theorem hexValue?_hexDigit : ∀ n < 16, hexValue? (hexDigit n) = some n := by decide

namespace Reader

variable {g : Growing} {read : List Piece}

/-- A written character is read as a piece of the string. -/
theorem foldlM_escape (c : Char) :
    (escape c).foldlM step? ⟨.string read, g⟩ = some ⟨.string (.ofEscaped c :: read), g⟩ := by
  by_cases hquote : c = '"'
  · subst hquote; rfl
  by_cases hback : c = '\\'
  · subst hback; rfl
  by_cases hb : c = '\x08'
  · subst hb; rfl
  by_cases ht : c = '\t'
  · subst ht; rfl
  by_cases hn : c = '\n'
  · subst hn; rfl
  by_cases hf : c = '\x0c'
  · subst hf; rfl
  by_cases hr : c = '\r'
  · subst hr; rfl
  by_cases hcontrol : c.toNat < 0x20
  · -- Four digits follow `\u`, of which the first two are zeros.
    have hupper := hexValue?_hexDigit (c.toNat / 16) (by omega)
    have hlower := hexValue?_hexDigit (c.toNat % 16) (by omega)
    have hzero : hexValue? '0' = some 0 := rfl
    have hvalue : 16 * (c.toNat / 16) + c.toNat % 16 = c.toNat := Nat.div_add_mod _ _
    simp [escape, Piece.ofEscaped, step?, Scan.step, *]
  · simp [escape, Piece.ofEscaped, step?, Scan.step, *]

theorem foldlM_flatMap_escape (cs : List Char) :
    (cs.flatMap escape).foldlM step? ⟨.string read, g⟩ =
      some ⟨.string ((cs.map Piece.ofEscaped).reverse ++ read), g⟩ := by
  induction cs generalizing read with
  | nil => rfl
  | cons c rest ih =>
    rw [List.flatMap_cons, List.foldlM_append, foldlM_escape, Option.bind_eq_bind,
      Option.bind_some, ih, List.map_cons, List.reverse_cons, List.append_assoc,
      List.singleton_append]

/-- A quoted string is read as that string. -/
theorem foldlM_quote (s : String) :
    (quote s).foldlM step? ⟨.between, g⟩ =
      (g.take? (.string (some s))).map fun g => ⟨.between, g⟩ := by
  have hopen : step? ⟨.between, g⟩ '"' = some ⟨.string [], g⟩ := rfl
  have hclose : step? ⟨.string (s.toList.map Piece.ofEscaped).reverse, g⟩ '"' =
      (g.take? (.string (some s))).map fun g => ⟨.between, g⟩ := by
    simp only [step?, Scan.step, if_true, List.reverse_reverse, Piece.decode_escaped]
    cases h : g.take? (.string (some s)) <;> simp [h]
  rw [quote, List.cons_append, List.foldlM_cons, hopen, Option.bind_eq_bind, Option.bind_some,
    List.foldlM_append, foldlM_flatMap_escape, List.append_nil, Option.bind_eq_bind,
    Option.bind_some, List.foldlM_cons, hclose]
  cases g.take? (.string (some s)) <;> rfl

end Reader

/-! ## Tokens -/

/-- A token with another number in it. -/
def Token.mapNumber (f : Number → Option Number) : Token → Token
  | .number n => .number (n.bind f)
  | t => t

/-- Whether a token shows by itself where it ends, unlike words and numbers. -/
def Token.Delimited : Token → Prop
  | .beginArray | .endArray | .beginObject | .endObject | .comma | .colon | .string (some _) => True
  | _ => False

/-- Whether a token ends the word or the number before it. -/
def Token.Ends : Token → Prop
  | .comma | .endArray | .endObject => True
  | _ => False

/-- A digit or a minus sign begins a number. -/
theorem Scan.enter_of_first {c : Char} (h : (c.isDigit || c = '-') = true) :
    enter c = some ([], .number [c]) := by
  have hblank : isBlank c = false := by
    rw [Bool.eq_false_iff]
    intro hblank
    simp only [isBlank, Bool.or_eq_true, decide_eq_true_eq] at hblank
    rcases hblank with ((rfl | rfl) | rfl) | rfl <;> revert h <;> decide
  have hlower : isWordChar c = false := by
    rw [Bool.or_eq_true, decide_eq_true_eq] at h
    rcases h with hdigit | rfl
    · have hle : c.val ≤ '9'.val := of_decide_eq_true (Bool.and_eq_true_iff.1 hdigit).2
      have hlt : ¬ 'a'.val ≤ c.val := fun h => absurd (UInt32.le_trans h hle) (by decide)
      show (decide ('a'.val ≤ c.val) && decide (c.val ≤ 'z'.val)) = false
      rw [decide_eq_false hlt, Bool.false_and]
    · rfl
  unfold enter
  rw [hblank, hlower, if_neg Bool.false_ne_true, if_neg Bool.false_ne_true, if_pos h]

namespace Reader

/-- A reader has built a tree, up to a word or a number that may end here. -/
inductive Settles : Reader → Growing → Prop
  | between (g : Growing) : Settles ⟨.between, g⟩ g
  | word {read : List Char} {t : Token} {g g' : Growing}
      (hread : Scan.wordToken? read.reverse = some t) (htake : g.take? t = some g') :
      Settles ⟨.word read, g⟩ g'
  | number {read : List Char} {t : Token} {g g' : Growing}
      (hread : Scan.numberToken? read.reverse = some t) (htake : g.take? t = some g') :
      Settles ⟨.number read, g⟩ g'

variable {g g' : Growing}

theorem foldlM_delimited {t : Token} (ht : t.Delimited) :
    t.chars.foldlM step? ⟨.between, g⟩ = (g.take? t).map fun g => ⟨.between, g⟩ := by
  have hmark : ∀ (c : Char) (t : Token), Scan.enter c = some ([t], .between) →
      [c].foldlM step? ⟨.between, g⟩ = (g.take? t).map fun g => ⟨.between, g⟩ := by
    intro c t h
    simp only [List.foldlM_cons, List.foldlM_nil, step?, Scan.step, h]
    cases h : g.take? t <;> simp [h]
  cases t with
  | string s =>
    cases s with
    | none => exact ht.elim
    | some s => exact foldlM_quote s
  | beginArray | endArray | beginObject | endObject | comma | colon => exact hmark _ _ rfl
  | null | bool | number => exact ht.elim

/-- A comma or a closing bracket ends what is still open. -/
theorem Settles.foldlM_end {r : Reader} (h : r.Settles g) {t : Token} (ht : t.Ends) :
    t.chars.foldlM step? r = (g.take? t).map fun g => ⟨.between, g⟩ := by
  obtain ⟨c, hchars, hword, hnumber, henter⟩ : ∃ c, t.chars = [c] ∧ isWordChar c = false ∧
      isNumberChar c = false ∧ Scan.enter c = some ([t], .between) := by
    cases t with
    | comma | endArray | endObject => exact ⟨_, rfl, rfl, rfl, rfl⟩
    | _ => exact ht.elim
  rw [hchars, List.foldlM_cons]
  cases h with
  | between =>
    simp only [step?, Scan.step, henter]
    cases hnext : g.take? t <;> simp [hnext]
  | word hread htake =>
    simp only [step?, Scan.step, henter, hword, hread]
    cases hnext : g.take? t <;> simp [htake, hnext]
  | number hread htake =>
    simp only [step?, Scan.step, henter, hnumber, hread]
    cases hnext : g.take? t <;> simp [htake, hnext]

/-- The end of the text ends it too. -/
theorem Settles.finish? {r : Reader} (h : r.Settles g) :
    r.finish? = Reader.finish? ⟨.between, g⟩ := by
  cases h with
  | between => rfl
  | word hread htake => simp [Reader.finish?, Scan.finish, hread, htake]
  | number hread htake => simp [Reader.finish?, Scan.finish, hread, htake]

/-- Characters of a number are kept until it ends. -/
theorem foldlM_number {cs : List Char} (hcs : ∀ c ∈ cs, isNumberChar c = true)
    (read : List Char) :
    cs.foldlM step? ⟨.number read, g⟩ = some ⟨.number (cs.reverse ++ read), g⟩ := by
  induction cs generalizing read with
  | nil => rfl
  | cons c rest ih =>
    have hstep : step? ⟨.number read, g⟩ c = some ⟨.number (c :: read), g⟩ := by
      simp [step?, Scan.step, hcs c List.mem_cons_self]
    rw [List.foldlM_cons, hstep, Option.bind_eq_bind, Option.bind_some,
      ih (fun c hc => hcs c (List.mem_cons_of_mem _ hc)), List.reverse_cons, List.append_assoc,
      List.singleton_append]

end Reader

/-! ## Runs of tokens -/

/-- The characters of tokens are read as the tokens, each number as its own text is read. -/
def Readable (ts : List Token) : Prop :=
  ∀ ⦃g g' : Growing⦄, (ts.map (Token.mapNumber Number.reread)).foldlM Growing.take? g = some g' →
    ∃ r, (ts.flatMap Token.chars).foldlM Reader.step? ⟨.between, g⟩ = some r ∧ r.Settles g'

namespace Readable

variable {t : Token} {ts us : List Token}

theorem nil : Readable [] := by
  intro g g' h
  cases h
  exact ⟨_, rfl, .between g⟩

theorem mapNumber_of_delimited (ht : t.Delimited) (f : Number → Option Number) :
    t.mapNumber f = t := by
  cases t with
  | number n => exact ht.elim
  | _ => rfl

theorem cons (ht : t.Delimited) (h : Readable ts) : Readable (t :: ts) := by
  intro g g' htake
  rw [List.map_cons, mapNumber_of_delimited ht, List.foldlM_cons] at htake
  obtain ⟨g₁, hfirst, hrest⟩ := Option.bind_eq_some_iff.1 htake
  obtain ⟨r, hread, hr⟩ := h hrest
  refine ⟨r, ?_, hr⟩
  rw [List.flatMap_cons, List.foldlM_append, Reader.foldlM_delimited ht, hfirst]
  exact hread

/-- Tokens can be read on after one that ends what is still open. -/
theorem append (h : Readable ts) (ht : t.Ends) (hus : Readable us) : Readable (ts ++ t :: us) := by
  have hmap : t.mapNumber Number.reread = t := by
    cases t with
    | number n => exact ht.elim
    | _ => rfl
  intro g g' htake
  rw [List.map_append, List.map_cons, hmap, List.foldlM_append] at htake
  obtain ⟨g₁, hfirst, hrest⟩ := Option.bind_eq_some_iff.1 htake
  rw [List.foldlM_cons] at hrest
  obtain ⟨g₂, hend, hrest⟩ := Option.bind_eq_some_iff.1 hrest
  obtain ⟨r, hread, hr⟩ := h hfirst
  obtain ⟨r', hread', hr'⟩ := hus hrest
  refine ⟨r', ?_, hr'⟩
  rw [List.flatMap_append, List.foldlM_append, hread, Option.bind_eq_bind, Option.bind_some,
    List.flatMap_cons, List.foldlM_append, hr.foldlM_end ht, hend]
  exact hread'

/-- A word or a number is taken when it ends. -/
theorem singleton {t : Token} {r : Growing → Reader}
    (hread : ∀ g, t.chars.foldlM Reader.step? ⟨.between, g⟩ = some (r g))
    (hr : ∀ g g', g.take? (t.mapNumber Number.reread) = some g' → (r g).Settles g') :
    Readable [t] := by
  intro g g' htake
  rw [List.map_singleton, List.foldlM_cons] at htake
  obtain ⟨g₁, htaken, hnil⟩ := Option.bind_eq_some_iff.1 htake
  cases hnil
  refine ⟨r g, ?_, hr g g' htaken⟩
  rw [List.flatMap_singleton]
  exact hread g

theorem null : Readable [.null] :=
  singleton (r := fun g => ⟨.word ['l', 'l', 'u', 'n'], g⟩) (fun _ => rfl)
    fun _ _ htake => .word rfl htake

theorem bool (b : Bool) : Readable [.bool b] := by
  cases b with
  | false =>
    exact singleton (r := fun g => ⟨.word ['e', 's', 'l', 'a', 'f'], g⟩) (fun _ => rfl)
      fun _ _ htake => .word rfl htake
  | true =>
    exact singleton (r := fun g => ⟨.word ['e', 'u', 'r', 't'], g⟩) (fun _ => rfl)
      fun _ _ htake => .word rfl htake

theorem number (n : Number) : Readable [.number (some n)] := by
  obtain ⟨s, hchars, -⟩ := n.exists_spelling
  obtain ⟨c, rest, hcons, hfirst⟩ := s.exists_chars_eq_cons
  have hnumeral : Numeral.ofChars? n.chars = some s.numeral := by
    rw [← hchars, s.ofChars?_chars]
  refine singleton (r := fun g => ⟨.number n.chars.reverse, g⟩) (fun g => ?_) fun g g' htake => ?_
  · have hrest : ∀ c ∈ rest, isNumberChar c = true := by
      intro c hc
      exact s.isNumberChar_of_mem c (by rw [hcons]; exact List.mem_cons_of_mem _ hc)
    have henter : Reader.step? ⟨.between, g⟩ c = some ⟨.number [c], g⟩ := by
      simp [Reader.step?, Scan.step, Scan.enter_of_first hfirst]
    show n.chars.foldlM Reader.step? _ = _
    rw [← hchars, hcons, List.foldlM_cons, henter, Option.bind_eq_bind, Option.bind_some,
      Reader.foldlM_number hrest, List.reverse_cons]
  · have hread : Scan.numberToken? n.chars.reverse.reverse =
        some (Token.mapNumber Number.reread (.number (some n))) := by
      rw [List.reverse_reverse, Scan.numberToken?, hnumeral, Option.map_some, Token.mapNumber,
        Option.bind_some, Number.reread, hnumeral, Option.bind_some]
    exact .number hread htake

end Readable

/-! ## Trees -/

namespace Raw

mutual

/-- The tree of a value with other numbers in it. -/
def ofValueBy (f : Number → Option Number) : Value → Raw
  | .null => .null
  | .bool b => .bool b
  | .number n => .number (f n)
  | .string s => .string (some s)
  | .array items => .array (ofItemsBy f items)
  | .object fields => .object (ofFieldsBy f fields)

def ofItemsBy (f : Number → Option Number) : List Value → List Raw
  | [] => []
  | v :: rest => ofValueBy f v :: ofItemsBy f rest

def ofFieldsBy (f : Number → Option Number) :
    List (String × Value) → List (Option String × Raw)
  | [] => []
  | (name, v) :: rest => (some name, ofValueBy f v) :: ofFieldsBy f rest

end

/-- The tree that a value is read back as: each number is what its own text is read as. -/
def reread (v : Value) : Raw := ofValueBy Number.reread v

mutual

theorem ofValueBy_some : ∀ v, ofValueBy some v = ofValue v
  | .null | .bool _ | .number _ | .string _ => rfl
  | .array items => by rw [ofValueBy, ofItemsBy_some, ofValue]
  | .object fields => by rw [ofValueBy, ofFieldsBy_some, ofValue]

theorem ofItemsBy_some : ∀ items, ofItemsBy some items = ofItems items
  | [] => rfl
  | v :: rest => by rw [ofItemsBy, ofValueBy_some, ofItemsBy_some, ofItems]

theorem ofFieldsBy_some : ∀ fields, ofFieldsBy some fields = ofFields fields
  | [] => rfl
  | (name, v) :: rest => by rw [ofFieldsBy, ofValueBy_some, ofFieldsBy_some, ofFields]

end

end Raw

namespace Value

theorem tokens_eq_cons (v : Value) : ∃ t ts, v.tokens = t :: ts ∧ t ≠ .endArray := by
  cases v <;> exact ⟨_, _, rfl, nofun⟩

theorem itemTokens_cons (v w : Value) (rest : List Value) :
    itemTokens (v :: w :: rest) = v.tokens ++ .comma :: itemTokens (w :: rest) := by
  simp [itemTokens]

theorem fieldTokens_cons (name : String) (v : Value) (field : String × Value)
    (rest : List (String × Value)) :
    fieldTokens ((name, v) :: field :: rest) =
      .string (some name) :: .colon :: v.tokens ++ .comma :: fieldTokens (field :: rest) := by
  simp [fieldTokens]

theorem itemTokens_eq_cons (v : Value) (rest : List Value) :
    ∃ t ts, itemTokens (v :: rest) = t :: ts ∧ t ≠ .endArray := by
  obtain ⟨t, ts, htokens, ht⟩ := v.tokens_eq_cons
  cases rest with
  | nil => exact ⟨t, ts, htokens, ht⟩
  | cons w rest =>
    refine ⟨t, ts ++ .comma :: itemTokens (w :: rest), ?_, ht⟩
    rw [itemTokens_cons, htokens, List.cons_append]

theorem fieldTokens_eq_cons (name : String) (v : Value) (rest : List (String × Value)) :
    ∃ ts, fieldTokens ((name, v) :: rest) = .string (some name) :: ts := by
  cases rest with
  | nil => exact ⟨_, rfl⟩
  | cons field rest => exact ⟨_, fieldTokens_cons name v field rest⟩

end Value

namespace Growing

variable (f : Number → Option Number)

/-- A first item is read as one more item of an array that has none. -/
theorem take?_firstItem {t : Token} (ht : t ≠ .endArray) (waiting : List Enclosing) :
    take? ⟨waiting, .firstItem⟩ (t.mapNumber f) =
      take? ⟨.item [] :: waiting, .value⟩ (t.mapNumber f) := by
  cases t with
  | endArray => exact absurd rfl ht
  | _ => rfl

mutual

/-- The tokens of a value build its tree. -/
theorem take_tokens (v : Value) (waiting : List Enclosing) :
    (v.tokens.map (Token.mapNumber f)).foldlM take? ⟨waiting, .value⟩ =
      some (complete (.ofValueBy f v) waiting) := by
  match v with
  | .null | .bool _ | .number _ | .string _ => rfl
  | .array items =>
    have hitems := take_itemTokens items [] waiting
    cases items with
    | nil => rfl
    | cons v rest =>
      obtain ⟨t, ts, htokens, ht⟩ := Value.itemTokens_eq_cons v rest
      specialize hitems (List.cons_ne_nil v rest)
      rw [htokens, List.cons_append, List.map_cons, List.foldlM_cons, ← take?_firstItem f ht]
        at hitems
      rw [Value.tokens, htokens]
      exact hitems
  | .object fields =>
    have hfields := take_fieldTokens fields [] waiting
    cases fields with
    | nil => rfl
    | cons field rest =>
      obtain ⟨ts, htokens⟩ := Value.fieldTokens_eq_cons field.1 field.2 rest
      specialize hfields (List.cons_ne_nil field rest)
      rw [htokens] at hfields
      rw [Value.tokens, htokens]
      exact hfields

/-- The tokens of items build an array, behind items that have been read. -/
theorem take_itemTokens (items : List Value) (before : List Raw) (waiting : List Enclosing)
    (h : items ≠ []) :
    ((Value.itemTokens items ++ [Token.endArray]).map (Token.mapNumber f)).foldlM take?
        ⟨.item before :: waiting, .value⟩ =
      some (complete (.array (before.reverse ++ Raw.ofItemsBy f items)) waiting) := by
  match items with
  | [] => exact absurd rfl h
  | [v] =>
    have hv := take_tokens v (.item before :: waiting)
    rw [Value.itemTokens, List.map_append, List.foldlM_append, hv]
    simp [complete, take?, Token.mapNumber, Raw.ofItemsBy]
  | v :: w :: rest =>
    have hv := take_tokens v (.item before :: waiting)
    have hrest := take_itemTokens (w :: rest) (.ofValueBy f v :: before) waiting (by simp)
    rw [Value.itemTokens_cons, List.append_assoc, List.map_append, List.foldlM_append, hv]
    simpa [complete, take?, Token.mapNumber, Raw.ofItemsBy] using hrest

/-- The tokens of fields build an object, behind fields that have been read. -/
theorem take_fieldTokens (fields : List (String × Value)) (before : List (Option String × Raw))
    (waiting : List Enclosing) (h : fields ≠ []) :
    ((Value.fieldTokens fields ++ [Token.endObject]).map (Token.mapNumber f)).foldlM take?
        ⟨waiting, .name before⟩ =
      some (complete (.object (before.reverse ++ Raw.ofFieldsBy f fields)) waiting) := by
  match fields with
  | [] => exact absurd rfl h
  | [(name, v)] =>
    have hv := take_tokens v (.field before (some name) :: waiting)
    rw [Value.fieldTokens]
    simp [take?, hv, complete, Token.mapNumber, Raw.ofFieldsBy]
  | (name, v) :: field :: rest =>
    have hv := take_tokens v (.field before (some name) :: waiting)
    have hrest := take_fieldTokens (field :: rest) ((some name, .ofValueBy f v) :: before) waiting
      (by simp)
    rw [Value.fieldTokens_cons]
    simpa [take?, hv, complete, Token.mapNumber, Raw.ofFieldsBy] using hrest

end

end Growing

namespace Readable

mutual

theorem tokens (v : Value) : Readable v.tokens := by
  match v with
  | .null => exact null
  | .bool b => exact bool b
  | .number n => exact number n
  | .string s => exact nil.cons trivial
  | .array items =>
    have hitems := (itemTokens items).append (t := .endArray) trivial nil
    exact hitems.cons trivial
  | .object fields =>
    have hfields := (fieldTokens fields).append (t := .endObject) trivial nil
    exact hfields.cons trivial

theorem itemTokens (items : List Value) : Readable (Value.itemTokens items) := by
  match items with
  | [] => exact nil
  | [v] => exact tokens v
  | v :: w :: rest =>
    rw [Value.itemTokens_cons]
    exact (tokens v).append trivial (itemTokens (w :: rest))

theorem fieldTokens (fields : List (String × Value)) : Readable (Value.fieldTokens fields) := by
  match fields with
  | [] => exact nil
  | [(name, v)] => exact ((tokens v).cons (t := .colon) trivial).cons trivial
  | (name, v) :: field :: rest =>
    rw [Value.fieldTokens_cons]
    have hv := ((tokens v).cons (t := .colon) trivial).cons (t := .string (some name)) trivial
    exact hv.append trivial (fieldTokens (field :: rest))

end

end Readable

/-! ## Texts -/

/-- All numbers of a value are read back as they are. -/
def Value.Exact (v : Value) : Prop := ∀ n, Token.number (some n) ∈ v.tokens → n.reread = some n

namespace Raw

/-- The text of a value is read as its tree, each number as its own text is read. -/
theorem ofText?_text (v : Value) : ofText? v.text = some (reread v) := by
  obtain ⟨r, hread, hr⟩ := Readable.tokens v (Growing.take_tokens Number.reread v [])
  rw [ofText?, ofChars?, Value.text, String.toList_ofList, Value.chars, Reader.start, hread,
    Option.bind_some, hr.finish?]
  rfl

theorem reread_eq_ofValue {v : Value} (h : v.Exact) : reread v = ofValue v := by
  have htokens : v.tokens.map (Token.mapNumber Number.reread) =
      v.tokens.map (Token.mapNumber some) := by
    refine List.map_congr_left fun t ht => ?_
    cases t with
    | number n =>
      cases n with
      | none => rfl
      | some n => rw [Token.mapNumber, Token.mapNumber, Option.bind_some, Option.bind_some, h n ht]
    | _ => rfl
  have hreread := Growing.take_tokens Number.reread v []
  rw [htokens, Growing.take_tokens some v [], ofValueBy_some] at hreread
  injection hreread with hgrowing
  injection hgrowing with _ hexpect
  injection hexpect with htree
  exact htree.symm

/-- The text of a value is read as its tree, if its numbers are read back as they are. -/
theorem ofText?_text_of_exact {v : Value} (h : v.Exact) : ofText? v.text = some (ofValue v) := by
  rw [ofText?_text, reread_eq_ofValue h]

end Raw

end RosterPanel.Json
