import Mathlib.Data.List.Basic
import Mathlib.Data.Rat.Defs
import Mathlib.Tactic.FieldSimp
import Mathlib.Tactic.Ring
import RosterPanel.Json.Token
import RosterPanel.Proofs.Json.Shortest

/-!
# Numbers that were written

The text of every number is a numeral, whatever the number. Results:

* `Spelling`: the parts of a numeral as characters, with what makes them one.
* `Spelling.ofChars?_chars`: `Numeral.ofChars?` takes the text of a spelling apart into its parts.
* `Numeral.Denotes`: when a numeral stands for a number: a double is the one that the numeral rounds
  to.
* `Number.exists_spelling`: `Number.chars` is the text of a spelling whose numeral stands for the
  number, for whole numbers and doubles.
* `Number.reread_integer`: a whole number `i` with `-2^63 ≤ i < 2^64` is read back as itself.
-/

namespace RosterPanel.Json

/-! ## Digits -/

/-- A run of decimal digits, not empty. -/
def IsDigits (cs : List Char) : Prop := cs ≠ [] ∧ ∀ c ∈ cs, c.isDigit = true

theorem IsDigits.append {cs ds : List Char} (hcs : IsDigits cs) (hds : ∀ c ∈ ds, c.isDigit = true) :
    IsDigits (cs ++ ds) := by
  refine ⟨List.append_ne_nil_of_left_ne_nil hcs.1 ds, fun c hc => ?_⟩
  exact (List.mem_append.1 hc).elim (hcs.2 c) (hds c)

theorem isDigits_zero : IsDigits ['0'] :=
  ⟨List.cons_ne_nil '0' [], List.forall_mem_singleton.2 rfl⟩

theorem isDigit_of_mem_replicate (k : Nat) : ∀ c ∈ List.replicate k '0', c.isDigit = true := by
  intro c hc
  rw [List.eq_of_mem_replicate hc]
  rfl

theorem isDigits_toDigits (n : Nat) : IsDigits (Nat.toDigits 10 n) :=
  ⟨Nat.toDigits_ne_nil, fun _ hc => Nat.isDigit_of_mem_toDigits (by decide) (by decide) hc⟩

/-- A whole number is told by its sign and its size. -/
theorem ite_natAbs (i : Int) : (if decide (i < 0) then -(i.natAbs : Int) else i.natAbs) = i := by
  by_cases h : i < 0
  · rw [if_pos (decide_eq_true h)]
    omega
  · rw [if_neg (by simpa using h)]
    omega

/-- No number but zero is written with a zero in front. -/
theorem head?_toDigits {n : Nat} (h : 0 < n) : (Nat.toDigits 10 n).head? ≠ some '0' := by
  induction n using Nat.strongRecOn with
  | ind n ih =>
    rcases Nat.lt_or_ge n 10 with hlt | hge
    · have hdigit : ∀ d < 10, 0 < d → d.digitChar ≠ '0' := by decide
      rw [Nat.toDigits_of_lt_base hlt, List.head?_singleton]
      exact fun heq => hdigit n hlt h (Option.some.inj heq)
    · rw [Nat.toDigits_of_base_le (by decide) hge,
        List.head?_append_of_ne_nil _ Nat.toDigits_ne_nil]
      exact ih (n / 10) (by omega) (by omega)

/-! ## Spellings -/

/-- A numeral in characters: sign, digits before the point, digits after it, and the sign and the
digits of an exponent. -/
structure Spelling where
  negative : Bool
  whole : List Char
  fraction : Option (List Char)
  exponent : Option (Bool × List Char)
  isDigits_whole : IsDigits whole
  /-- There is no zero in front of other digits. -/
  leading : whole = ['0'] ∨ whole.head? ≠ some '0'
  isDigits_fraction : ∀ ds ∈ fraction, IsDigits ds
  isDigits_exponent : ∀ e ∈ exponent, IsDigits e.2

namespace Spelling

def fractionChars : Option (List Char) → List Char
  | none => []
  | some ds => '.' :: ds

def exponentChars : Option (Bool × List Char) → List Char
  | none => []
  | some (negative, ds) => 'e' :: (if negative then '-' else '+') :: ds

def signChars (negative : Bool) : List Char := if negative then ['-'] else []

/-- The text of a spelling. -/
def chars (s : Spelling) : List Char :=
  signChars s.negative ++ (s.whole ++ (fractionChars s.fraction ++ exponentChars s.exponent))

/-- The numeral that is spelled. -/
def numeral (s : Spelling) : Numeral where
  negative := s.negative
  whole := s.whole.map Numeral.digit
  fraction := s.fraction.map (·.map Numeral.digit)
  exponent := s.exponent.map fun e =>
    if e.1 then -(Numeral.value (e.2.map Numeral.digit) : Int)
    else Numeral.value (e.2.map Numeral.digit)

end Spelling

namespace Numeral

/-- Digits are read up to what is none. -/
theorem digits_append {ds rest : List Char} (hds : ∀ c ∈ ds, c.isDigit = true)
    (hrest : ∀ c ∈ rest.head?, c.isDigit = false) :
    digits (ds ++ rest) = (ds.map digit, rest) := by
  have hstop : rest.takeWhile Char.isDigit = [] ∧ rest.dropWhile Char.isDigit = rest := by
    cases rest with
    | nil => exact ⟨rfl, rfl⟩
    | cons c rest =>
      have hc : ¬ c.isDigit = true := by rw [hrest c rfl]; decide
      exact ⟨List.takeWhile_cons_of_neg hc, List.dropWhile_cons_of_neg hc⟩
  rw [digits, List.takeWhile_append_of_pos hds, List.dropWhile_append_of_pos hds, hstop.1,
    hstop.2, List.append_nil]

theorem digit_ne_zero {c : Char} (hc : c.isDigit = true) (hne : c ≠ '0') : digit c ≠ 0 := by
  have hlow : 48 ≤ c.toNat := by
    simp only [Char.isDigit, Bool.and_eq_true, decide_eq_true_eq] at hc
    exact hc.1
  have h48 : c.toNat ≠ 48 := by
    intro h
    exact hne (by rw [← Char.ofNat_toNat c, h])
  have hzero : '0'.toNat = 48 := rfl
  rw [digit, hzero]
  omega

theorem whole?_append {ds rest : List Char} (hds : IsDigits ds)
    (hleading : ds = ['0'] ∨ ds.head? ≠ some '0') (hrest : ∀ c ∈ rest.head?, c.isDigit = false) :
    whole? (ds ++ rest) = some (ds.map digit, rest) := by
  rw [whole?, digits_append hds.2 hrest]
  split
  · next h => exact absurd (List.map_eq_nil_iff.1 (Prod.mk.inj h).1) hds.1
  · next h =>
    obtain ⟨c, more, rfl, hzero, hmore⟩ := List.map_eq_cons_iff.1 (Prod.mk.inj h).1
    have hc : c = '0' := by
      by_contra hne
      exact digit_ne_zero (hds.2 c List.mem_cons_self) hne hzero
    rcases hleading with hone | hhead
    · cases hone
      cases hmore
    · exact absurd (congrArg some hc) hhead
  · rfl

theorem fraction?_append {fraction : Option (List Char)} {rest : List Char}
    (hds : ∀ ds ∈ fraction, IsDigits ds) (hrest : ∀ c ∈ rest.head?, c.isDigit = false)
    (hpoint : rest.head? ≠ some '.') :
    fraction? (Spelling.fractionChars fraction ++ rest) =
      some (fraction.map (·.map digit), rest) := by
  cases fraction with
  | none =>
    rw [Spelling.fractionChars, List.nil_append]
    unfold fraction?
    split
    · exact absurd rfl hpoint
    · rfl
  | some ds =>
    rw [Spelling.fractionChars, List.cons_append, fraction?, digits_append (hds ds rfl).2 hrest]
    split
    · next h => exact absurd (List.map_eq_nil_iff.1 (Prod.mk.inj h).1) (hds ds rfl).1
    · next h => rw [← (Prod.mk.inj h).1, ← (Prod.mk.inj h).2, Option.map_some]

theorem exponent?_chars {exponent : Option (Bool × List Char)}
    (hds : ∀ e ∈ exponent, IsDigits e.2) :
    exponent? (Spelling.exponentChars exponent) =
      some (exponent.map fun e => if e.1 then -(value (e.2.map digit) : Int)
        else value (e.2.map digit), []) := by
  cases exponent with
  | none => rfl
  | some e =>
    obtain ⟨negative, ds⟩ := e
    obtain ⟨hne, hdigit⟩ := hds _ rfl
    have hread : digits ds = (ds.map digit, []) := by
      have hstop : ∀ c ∈ ([] : List Char).head?, c.isDigit = false := fun c hc => by cases hc
      have happend := digits_append hdigit hstop
      rwa [List.append_nil] at happend
    have hfirst : ds.map digit ≠ [] := fun h => hne (List.map_eq_nil_iff.1 h)
    cases negative <;> simp [Spelling.exponentChars, exponent?, hread]

end Numeral

namespace Spelling

open Numeral

theorem head?_exponentChars (e : Option (Bool × List Char)) :
    ∀ c ∈ (exponentChars e).head?, c = 'e' := by
  intro c hc
  cases e with
  | none => cases hc
  | some e => exact (Option.some.inj hc).symm

theorem head?_rest (fraction : Option (List Char)) (e : Option (Bool × List Char)) :
    ∀ c ∈ (fractionChars fraction ++ exponentChars e).head?, c = '.' ∨ c = 'e' := by
  intro c hc
  cases fraction with
  | none => exact Or.inr (head?_exponentChars e c hc)
  | some ds => exact Or.inl (Option.some.inj hc).symm

theorem sign_append {cs : List Char} (negative : Bool) (h : cs.head? ≠ some '-') :
    sign (signChars negative ++ cs) = (negative, cs) := by
  cases negative with
  | true => rfl
  | false =>
    cases cs with
    | nil => rfl
    | cons c cs =>
      show sign (c :: cs) = _
      unfold sign
      split
      · next heq =>
        cases heq
        exact absurd rfl h
      · rfl

/-- The text of a spelling is read as the numeral that it spells. -/
theorem ofChars?_chars (s : Spelling) : Numeral.ofChars? s.chars = some s.numeral := by
  have hpoint : ∀ c ∈ (fractionChars s.fraction ++ exponentChars s.exponent).head?,
      c.isDigit = false := by
    intro c hc
    rcases head?_rest _ _ c hc with rfl | rfl <;> rfl
  have hmark : ∀ c ∈ (exponentChars s.exponent).head?, c.isDigit = false := by
    intro c hc
    rw [head?_exponentChars _ c hc]
    rfl
  have hnopoint : (exponentChars s.exponent).head? ≠ some '.' :=
    fun h => absurd (head?_exponentChars _ _ h) (by decide)
  have hunsigned : (s.whole ++ (fractionChars s.fraction ++ exponentChars s.exponent)).head? ≠
      some '-' := by
    rw [List.head?_append_of_ne_nil _ s.isDigits_whole.1]
    intro h
    have hdigit := s.isDigits_whole.2 '-' (List.mem_of_head? h)
    revert hdigit
    decide
  have hwhole := whole?_append s.isDigits_whole s.leading hpoint
  have hfraction := fraction?_append s.isDigits_fraction hmark hnopoint
  have hexponent := exponent?_chars s.isDigits_exponent
  rw [ofChars?, chars, sign_append _ hunsigned]
  simp only [hwhole, hfraction, hexponent, Option.bind_eq_bind, Option.bind_some,
    List.isEmpty_nil, if_true]
  rfl

theorem mem_signChars {negative : Bool} {c : Char} (h : c ∈ signChars negative) : c = '-' := by
  cases negative with
  | false => cases h
  | true => exact List.mem_singleton.1 h

theorem mem_fractionChars {fraction : Option (List Char)} {c : Char}
    (h : c ∈ fractionChars fraction) : c = '.' ∨ ∃ ds ∈ fraction, c ∈ ds := by
  cases fraction with
  | none => cases h
  | some ds => exact (List.mem_cons.1 h).imp_right fun hc => ⟨ds, rfl, hc⟩

theorem mem_exponentChars {exponent : Option (Bool × List Char)} {c : Char}
    (h : c ∈ exponentChars exponent) :
    c = 'e' ∨ c = '-' ∨ c = '+' ∨ ∃ e ∈ exponent, c ∈ e.2 := by
  cases exponent with
  | none => cases h
  | some e =>
    obtain ⟨negative, ds⟩ := e
    refine (List.mem_cons.1 h).imp_right fun h => ?_
    rcases List.mem_cons.1 h with rfl | hc
    · cases negative <;> simp
    · exact Or.inr (Or.inr ⟨_, rfl, hc⟩)

/-- All characters of a spelling may stand in a number. -/
theorem isNumberChar_of_mem (s : Spelling) : ∀ c ∈ s.chars, isNumberChar c = true := by
  have hdigit : ∀ c : Char, c.isDigit = true → isNumberChar c = true := by
    intro c hc
    simp [isNumberChar, hc]
  intro c hc
  simp only [chars, List.mem_append] at hc
  rcases hc with hc | hc | hc | hc
  · rw [mem_signChars hc]
    rfl
  · exact hdigit c (s.isDigits_whole.2 c hc)
  · rcases mem_fractionChars hc with rfl | ⟨ds, hds, hc⟩
    · rfl
    · exact hdigit c ((s.isDigits_fraction ds hds).2 c hc)
  · rcases mem_exponentChars hc with rfl | rfl | rfl | ⟨e, he, hc⟩
    · rfl
    · rfl
    · rfl
    · exact hdigit c ((s.isDigits_exponent e he).2 c hc)

/-- A spelling starts with a digit or with a minus sign. -/
theorem exists_chars_eq_cons (s : Spelling) :
    ∃ c rest, s.chars = c :: rest ∧ (c.isDigit || c = '-') = true := by
  have hchars : s.chars = signChars s.negative ++ (s.whole ++ _) := rfl
  cases hsign : s.negative with
  | true =>
    rw [hsign] at hchars
    exact ⟨'-', _, hchars, rfl⟩
  | false =>
    obtain ⟨c, rest, hwhole⟩ := List.exists_cons_of_ne_nil s.isDigits_whole.1
    rw [hsign, hwhole] at hchars
    refine ⟨c, _, hchars, ?_⟩
    rw [s.isDigits_whole.2 c (by rw [hwhole]; exact List.mem_cons_self)]
    rfl

end Spelling

/-! ## The number that is written -/

namespace Numeral

/-- The number that a numeral is in decimal notation: `± digits · 10^(exponent - places)`, where
`digits` are those before and after the point and `places` counts those after it. -/
def toRat (n : Numeral) : ℚ :=
  (if n.negative then -1 else 1) *
    (value (n.whole ++ n.fraction.getD []) * 10 ^ (n.exponent.getD 0 - (n.fraction.getD []).length))

theorem value_append (ds es : List Nat) :
    value (ds ++ es) = value ds * 10 ^ es.length + value es := by
  have hstart : ∀ (es : List Nat) (n : Nat),
      es.foldl (fun n d => 10 * n + d) n = n * 10 ^ es.length + value es := by
    intro es
    induction es with
    | nil => intro n; simp [value]
    | cons d es ih =>
      intro n
      rw [value, List.foldl_cons, List.foldl_cons, ih, ih (10 * 0 + d), List.length_cons]
      ring
  rw [value, List.foldl_append, hstart]
  rfl

theorem value_replicate_zero (k : Nat) : value (List.replicate k 0) = 0 := by
  induction k with
  | zero => rfl
  | succ k ih => exact ih

theorem value_toDigits (n : Nat) : value ((Nat.toDigits 10 n).map digit) = n := by
  rw [value, List.foldl_map]
  exact Nat.ofDigitChars_ten_toDigits

end Numeral

/-! ## Whole numbers -/

namespace Numeral

theorem le_foldl (ds : List Nat) (n : Nat) : n ≤ ds.foldl (fun n d => 10 * n + d) n := by
  induction ds generalizing n with
  | nil => exact Nat.le_refl n
  | cons d ds ih => exact Nat.le_trans (by omega) (ih (10 * n + d))

/-- All digits are absorbed as long as they form a number below `2^64`. -/
theorem absorb_eq {ds : List Nat} {n : Nat}
    (h : ds.foldl (fun n d => 10 * n + d) n < UInt64.size) :
    absorb n ds = (ds.foldl (fun n d => 10 * n + d) n, 0) := by
  induction ds generalizing n with
  | nil => rfl
  | cons d ds ih =>
    have hlt : 10 * n + d < UInt64.size := Nat.lt_of_le_of_lt (le_foldl ds _) h
    rw [absorb, if_pos hlt]
    exact ih h

end Numeral

namespace Number

/-- The number that the text of a number is read back as. -/
def reread (n : Number) : Option Number := (Numeral.ofChars? n.chars).bind Numeral.number?

/-- The spelling of a whole number. -/
def spelling (negative : Bool) (n : Nat) : Spelling where
  negative := negative
  whole := Nat.toDigits 10 n
  fraction := none
  exponent := none
  isDigits_whole := isDigits_toDigits n
  leading := by
    rcases Nat.eq_zero_or_pos n with rfl | hpos
    · exact Or.inl (Nat.toDigits_zero 10)
    · exact Or.inr (head?_toDigits hpos)
  isDigits_fraction := nofun
  isDigits_exponent := nofun

theorem chars_spelling (negative : Bool) (n : Nat) :
    (spelling negative n).chars = Spelling.signChars negative ++ Nat.toDigits 10 n := by
  rw [Spelling.chars]
  exact congrArg (_ ++ ·) (List.append_nil _)

theorem number?_spelling (negative : Bool) {n : Nat} (h : n < UInt64.size)
    (hnegative : negative = true → 0 < n ∧ n ≤ UInt64.size / 2) :
    (spelling negative n).numeral.number? = some (.integer (if negative then -n else n)) := by
  have hvalue : ((Nat.toDigits 10 n).map Numeral.digit).foldl (fun n d => 10 * n + d) 0 = n :=
    Numeral.value_toDigits n
  have habsorb : Numeral.absorb 0 ((Nat.toDigits 10 n).map Numeral.digit) = (n, 0) := by
    rw [Numeral.absorb_eq (by rw [hvalue]; exact h), hvalue]
  simp only [Numeral.number?, Spelling.numeral, spelling, habsorb]
  cases negative with
  | false => simp
  | true => simp [hnegative rfl]

theorem spelling_integer (i : Int) :
    (spelling (decide (i < 0)) i.natAbs).chars = (Number.integer i).chars := by
  rw [chars_spelling]
  cases i with
  | ofNat n => rfl
  | negSucc n =>
    rw [decide_eq_true (Int.negSucc_lt_zero n)]
    rfl

/-- Whole numbers from `-2^63` to `2^64 - 1` are read back as they are. -/
theorem reread_integer {i : Int} (h : -2 ^ 63 ≤ i ∧ i < 2 ^ 64) :
    (Number.integer i).reread = some (.integer i) := by
  have hsize : UInt64.size = 2 ^ 64 := rfl
  rw [reread, ← spelling_integer, Spelling.ofChars?_chars, Option.bind_some,
    number?_spelling _ (by omega) (fun hneg => ?_), ite_natAbs]
  rw [decide_eq_true_eq] at hneg
  omega

end Number

/-! ## Doubles -/

namespace Spelling

theorem toRat_numeral (s : Spelling) :
    s.numeral.toRat = (if s.negative then -1 else 1) *
      (Numeral.value ((s.whole ++ s.fraction.getD []).map Numeral.digit) *
        10 ^ (s.numeral.exponent.getD 0 - (s.fraction.getD []).length)) := by
  have hdigits : s.numeral.whole ++ s.numeral.fraction.getD [] =
      (s.whole ++ s.fraction.getD []).map Numeral.digit := by
    cases hf : s.fraction <;> simp [numeral, hf]
  have hplaces : (s.numeral.fraction.getD []).length = (s.fraction.getD []).length := by
    cases hf : s.fraction <;> simp [numeral, hf]
  rw [Numeral.toRat, hdigits, hplaces]
  rfl

/-- An exponent with its sign, as it stands behind digits. -/
def power (exponent : Int) : List Char :=
  (if exponent < 0 then ['e', '-'] else ['e', '+']) ++ Nat.toDigits 10 exponent.natAbs

theorem exponentChars_power (exponent : Int) :
    exponentChars (some (decide (exponent < 0), Nat.toDigits 10 exponent.natAbs)) =
      power exponent := by
  unfold exponentChars power
  by_cases h : exponent < 0 <;> simp [h]

theorem value_power (exponent : Int) :
    (if decide (exponent < 0) then
      -(Numeral.value ((Nat.toDigits 10 exponent.natAbs).map Numeral.digit) : Int)
    else Numeral.value ((Nat.toDigits 10 exponent.natAbs).map Numeral.digit)) = exponent := by
  rw [Numeral.value_toDigits, ite_natAbs]

end Spelling

/-- A text is that of a numeral, with a sign in front and a size. -/
def Spells (text : List Char) (negative : Bool) (size : ℚ) : Prop :=
  ∃ s : Spelling, s.chars = Spelling.signChars negative ++ text ∧ s.negative = negative ∧
    s.numeral.toRat = (if negative then -1 else 1) * size

namespace Spells

variable {whole : List Char}

/-- Digits with a point among them stand for all the digits, less the places after the point. -/
theorem pointed (negative : Bool) {fraction : List Char} (hwhole : IsDigits whole)
    (hleading : whole = ['0'] ∨ whole.head? ≠ some '0') (hfraction : IsDigits fraction) :
    Spells (whole ++ '.' :: fraction) negative
      (Numeral.value ((whole ++ fraction).map Numeral.digit) *
        10 ^ (-(fraction.length : Int))) := by
  let s : Spelling := ⟨negative, whole, some fraction, none, hwhole, hleading,
    by intro ds hds; cases hds; exact hfraction, by intro e he; cases he⟩
  have hexponent : s.numeral.exponent.getD 0 - ((some fraction).getD []).length =
      -(fraction.length : Int) := Int.zero_sub _
  refine ⟨s, ?_, rfl, ?_⟩
  · show _ ++ (_ ++ ('.' :: fraction ++ [])) = _
    rw [List.append_nil]
  · rw [s.toRat_numeral, hexponent]
    rfl

/-- Digits with an exponent behind them. -/
theorem scientific (negative : Bool) {fraction : Option (List Char)} (exponent : Int)
    (hwhole : IsDigits whole) (hleading : whole = ['0'] ∨ whole.head? ≠ some '0')
    (hfraction : ∀ ds ∈ fraction, IsDigits ds) :
    Spells (whole ++ (Spelling.fractionChars fraction ++ Spelling.power exponent)) negative
      (Numeral.value ((whole ++ fraction.getD []).map Numeral.digit) *
        10 ^ (exponent - (fraction.getD []).length)) := by
  let s : Spelling := ⟨negative, whole, fraction,
    some (decide (exponent < 0), Nat.toDigits 10 exponent.natAbs), hwhole, hleading, hfraction,
    by intro e he; cases he; exact isDigits_toDigits _⟩
  have hexponent : s.numeral.exponent = some exponent :=
    congrArg some (Spelling.value_power exponent)
  refine ⟨s, ?_, rfl, ?_⟩
  · rw [Spelling.chars, Spelling.exponentChars_power]
  · rw [s.toRat_numeral, hexponent]
    rfl

end Spells

/-- Digits as they are written for a number that is not zero. -/
structure IsDecimal (ds : List Char) (c : Nat) : Prop where
  isDigits : IsDigits ds
  leading : ds.head? ≠ some '0'
  value : Numeral.value (ds.map Numeral.digit) = c

theorem isDecimal_toDigits {c : Nat} (hc : c ≠ 0) : IsDecimal (Nat.toDigits 10 c) c :=
  ⟨isDigits_toDigits c, head?_toDigits (Nat.pos_of_ne_zero hc), Numeral.value_toDigits c⟩

namespace IsDecimal

variable {ds : List Char} {c : Nat}

/-- Zeros fill the places up to the point. -/
theorem spells_large (h : IsDecimal ds c) (negative : Bool) (k : Nat) :
    Spells (ds ++ List.replicate k '0' ++ ['.', '0']) negative (c * 10 ^ (k : Int)) := by
  have hwhole := h.isDigits.append (isDigit_of_mem_replicate k)
  have hleading : (ds ++ List.replicate k '0').head? ≠ some '0' := by
    rw [List.head?_append_of_ne_nil _ h.isDigits.1]
    exact h.leading
  have hzeros : (List.replicate k '0' ++ ['0']).map Numeral.digit = List.replicate (k + 1) 0 := by
    rw [List.map_append, List.map_replicate, List.replicate_succ']
    rfl
  have hvalue : Numeral.value ((ds ++ List.replicate k '0' ++ ['0']).map Numeral.digit) =
      c * 10 ^ (k + 1) := by
    rw [List.append_assoc, List.map_append, hzeros, Numeral.value_append, h.value,
      Numeral.value_replicate_zero, List.length_replicate, Nat.add_zero]
  have hsize : ((c * 10 ^ (k + 1) : Nat) : ℚ) * 10 ^ (-(['0'].length : Int)) =
      c * 10 ^ (k : Int) := by
    rw [List.length_singleton, zpow_natCast]
    push_cast
    rw [pow_succ, zpow_neg_one]
    ring
  have hspells := Spells.pointed negative hwhole (Or.inr hleading) isDigits_zero
  rwa [hvalue, hsize] at hspells

/-- The point stands among the digits. -/
theorem spells_middle (h : IsDecimal ds c) (negative : Bool) {n : Nat} (hpos : 0 < n)
    (hlt : n < ds.length) :
    Spells (ds.take n ++ '.' :: ds.drop n) negative (c * 10 ^ (n - ds.length : Int)) := by
  have hwhole : IsDigits (ds.take n) := by
    refine ⟨?_, fun x hx => h.isDigits.2 x (List.mem_of_mem_take hx)⟩
    exact List.ne_nil_of_length_pos (by rw [List.length_take]; omega)
  have hfraction : IsDigits (ds.drop n) := by
    refine ⟨?_, fun x hx => h.isDigits.2 x (List.mem_of_mem_drop hx)⟩
    exact List.ne_nil_of_length_pos (by rw [List.length_drop]; omega)
  have hleading : (ds.take n).head? ≠ some '0' := by
    rw [List.head?_take, if_neg (by omega)]
    exact h.leading
  have hplaces : -((ds.drop n).length : Int) = n - ds.length := by
    rw [List.length_drop]
    omega
  have hspells := Spells.pointed negative hwhole (Or.inr hleading) hfraction
  rwa [List.take_append_drop, h.value, hplaces] at hspells

/-- Zeros fill the places from the point on. -/
theorem spells_small (h : IsDecimal ds c) (negative : Bool) (k : Nat) :
    Spells ('0' :: '.' :: List.replicate k '0' ++ ds) negative
      (c * 10 ^ (-(k + ds.length : Int))) := by
  have hfraction : IsDigits (List.replicate k '0' ++ ds) := by
    refine ⟨List.append_ne_nil_of_right_ne_nil _ h.isDigits.1, fun x hx => ?_⟩
    exact (List.mem_append.1 hx).elim (isDigit_of_mem_replicate k x) (h.isDigits.2 x)
  have hvalue : Numeral.value ((['0'] ++ (List.replicate k '0' ++ ds)).map Numeral.digit) = c := by
    have hzeros : (['0'] ++ List.replicate k '0').map Numeral.digit = List.replicate (k + 1) 0 := by
      rw [List.map_append, List.map_replicate]
      rfl
    rw [← List.append_assoc, List.map_append, hzeros, Numeral.value_append, h.value,
      Numeral.value_replicate_zero, Nat.zero_mul, Nat.zero_add]
  have hspells := Spells.pointed negative isDigits_zero (Or.inl rfl) hfraction
  rw [hvalue, List.length_append, List.length_replicate] at hspells
  exact_mod_cast hspells

/-- The only digit stands before the exponent. -/
theorem spells_digit {d : Char} (h : IsDecimal [d] c) (negative : Bool) (exponent : Int) :
    Spells (d :: Spelling.power exponent) negative (c * 10 ^ exponent) := by
  have hnone : ∀ ds ∈ (none : Option (List Char)), IsDigits ds := fun ds hds => by cases hds
  have hspells := Spells.scientific negative exponent h.isDigits (Or.inr h.leading) hnone
  have hplaces : exponent - ((none : Option (List Char)).getD []).length = exponent :=
    Int.sub_zero _
  rw [hplaces, Option.getD_none, List.append_nil, h.value] at hspells
  exact hspells

/-- The first digit stands before the exponent, and the others after a point. -/
theorem spells_digits {d : Char} {rest : List Char} (h : IsDecimal (d :: rest) c)
    (hrest : rest ≠ []) (negative : Bool) (exponent : Int) :
    Spells (d :: '.' :: rest ++ Spelling.power exponent) negative
      (c * 10 ^ (exponent - rest.length)) := by
  have hfirst : IsDigits [d] := by
    refine ⟨List.cons_ne_nil d [], fun x hx => h.isDigits.2 x ?_⟩
    rw [List.mem_singleton.1 hx]
    exact List.mem_cons_self
  have hfraction : ∀ ds ∈ some rest, IsDigits ds := by
    intro ds hds
    cases hds
    exact ⟨hrest, fun x hx => h.isDigits.2 x (List.mem_cons_of_mem d hx)⟩
  have hvalue : Numeral.value (([d] ++ rest).map Numeral.digit) = c := h.value
  have hspells := Spells.scientific negative exponent hfirst (Or.inr h.leading) hfraction
  rw [Option.getD_some, hvalue] at hspells
  exact hspells

end IsDecimal

namespace Binary64

/-- The text of a decimal that is not zero stands for it, with any sign in front. -/
theorem spells_decimalChars (negative : Bool) {c : Nat} (hc : c ≠ 0) (place : Int) :
    Spells (decimalChars c place) negative (c * 10 ^ place) := by
  have h := isDecimal_toDigits hc
  have hpos := List.length_pos_of_ne_nil h.isDigits.1
  unfold decimalChars
  generalize Nat.toDigits 10 c = ds at h hpos ⊢
  dsimp only
  split
  · split
    · next hplace =>
      obtain ⟨k, rfl⟩ := Int.eq_ofNat_of_zero_le hplace
      exact h.spells_large negative k
    · next hplace =>
      split
      · next hexponent =>
        have hspells := h.spells_middle negative (n := (place + ds.length - 1).toNat + 1)
          (by omega) (by omega)
        have hplaces : (((place + ds.length - 1).toNat + 1 : Nat) : Int) - ds.length = place := by
          omega
        rwa [hplaces] at hspells
      · next hexponent =>
        have hspells := h.spells_small negative (-(place + ds.length - 1) - 1).toNat
        have hplaces : -(((-(place + ds.length - 1) - 1).toNat : Int) + ds.length) = place := by
          omega
        rwa [hplaces] at hspells
  · match ds with
    | [] => exact absurd rfl h.isDigits.1
    | [d] =>
      have hspells := h.spells_digit negative (place + ((1 : Nat) : Int) - 1)
      have hsize : (c : ℚ) * 10 ^ (place + ((1 : Nat) : Int) - 1) = c * 10 ^ place := by
        rw [Nat.cast_one, Int.add_sub_cancel]
      rw [hsize] at hspells
      exact hspells
    | d :: e :: rest =>
      have hspells := h.spells_digits (List.cons_ne_nil e rest) negative
        (place + ((d :: e :: rest).length : Int) - 1)
      have hplaces : place + ((d :: e :: rest).length : Int) - 1 - (e :: rest).length = place := by
        simp only [List.length_cons]
        omega
      rwa [hplaces] at hspells

/-- The text of a double is a numeral with the sign of the double and its shortest digits. -/
theorem exists_spelling (x : Binary64) :
    ∃ s : Spelling, s.chars = x.chars ∧ s.negative = x.negative ∧
      s.numeral.toRat = (if x.negative then -1 else 1) *
        if x.mantissa = 0 then 0 else (x.shortest.1 : ℚ) * 10 ^ x.shortest.2 := by
  have hchars : x.chars = Spelling.signChars x.negative ++
      if x.mantissa = 0 then ['0', '.', '0'] else decimalChars x.shortest.1 x.shortest.2 := by
    rw [chars, isZero]
    split_ifs <;> simp_all [Spelling.signChars]
  rw [hchars]
  by_cases hzero : x.mantissa = 0
  · rw [if_pos hzero, if_pos hzero]
    have hspells := Spells.pointed x.negative isDigits_zero (Or.inl rfl) isDigits_zero
    have hvalue : Numeral.value ((['0'] ++ ['0']).map Numeral.digit) = 0 := rfl
    rw [hvalue, Nat.cast_zero, zero_mul] at hspells
    exact hspells
  · rw [if_neg hzero, if_neg hzero]
    exact spells_decimalChars x.negative (shortest_ne_zero (Nat.pos_of_ne_zero hzero)) _

end Binary64

theorem Number.toRat_spelling (negative : Bool) (n : Nat) :
    (spelling negative n).numeral.toRat = (if negative then -1 else 1) * n := by
  have hvalue : Numeral.value ((Nat.toDigits 10 n ++ []).map Numeral.digit) = n := by
    rw [List.append_nil]
    exact Numeral.value_toDigits n
  rw [Spelling.toRat_numeral]
  show _ * ((Numeral.value ((Nat.toDigits 10 n ++ []).map Numeral.digit) : ℚ) * 10 ^ (0 : Int)) = _
  rw [hvalue, zpow_zero, mul_one]
  rfl

/-- A numeral stands for a number: it is the whole number itself, or it has the sign of the double
and rounds to its magnitude. -/
def Numeral.Denotes (numeral : Numeral) : Number → Prop
  | .integer i => numeral.toRat = i
  | .double x => numeral.negative = x.negative ∧
      (x.mantissa = 0 → numeral.toRat = 0) ∧
        (0 < x.mantissa → x.mantissa < 2 * Binary64.leastNormal → x.Covers |numeral.toRat|)

/-- The text of every number is a numeral that stands for it. -/
theorem Number.exists_spelling (n : Number) :
    ∃ s : Spelling, s.chars = n.chars ∧ s.numeral.Denotes n := by
  cases n with
  | integer i =>
    refine ⟨spelling (decide (i < 0)) i.natAbs, spelling_integer i, ?_⟩
    show Numeral.toRat _ = (i : ℚ)
    rw [toRat_spelling]
    have hcast := congrArg (fun i : Int => (i : ℚ)) (ite_natAbs i)
    rw [← hcast]
    split_ifs <;> simp
  | double x =>
    obtain ⟨s, hchars, hnegative, hvalue⟩ := x.exists_spelling
    refine ⟨s, hchars, hnegative, fun hzero => ?_, fun hsome hnormal => ?_⟩
    · rw [hvalue, if_pos hzero, mul_zero]
    · have hpos : (0 : ℚ) ≤ x.shortest.1 * 10 ^ x.shortest.2 := by positivity
      have habs : |s.numeral.toRat| = x.shortest.1 * 10 ^ x.shortest.2 := by
        rw [hvalue, if_neg (Nat.pos_iff_ne_zero.1 hsome), abs_mul, abs_of_nonneg hpos]
        split_ifs <;> simp
      rw [habs]
      exact Binary64.covers_shortest hsome hnormal

end RosterPanel.Json
