import RosterPanel.Request

/-!
# Placeholder names

A new group or user gets a placeholder for a name, with a number from 1 to 9998 in it that is drawn
from a source of 32-bit words. A word `w` is taken to `w · 9998`: the upper half of the product
gives the number, and the word is passed over when the lower half is too large, so that every
number is drawn by equally many words.
-/

namespace RosterPanel

/-- A source of random words: the ones listed, and zeros after them. -/
structure Words where
  ahead : List UInt32
  /-- How many words have been handed out. -/
  used : Nat := 0
deriving DecidableEq, Repr

namespace Placeholder

/-- How many numbers there are to draw from, `PLACEHOLDER_MIN` to `PLACEHOLDER_MAX`. -/
def count : Nat := 9998

/-- How many words draw each number: the largest power of two that leaves enough words for all
numbers, `2 ^ 18`. -/
def share : Nat := 262144

/-- One attempt of `gen_range`: the number `1 + w * 9998 / 2 ^ 32` that a word `w` draws; none when
the word is passed over. -/
def ofWord? (w : UInt32) : Option Nat :=
  let product := w.toNat * count
  if product % UInt32.size < count * share then some (1 + product / UInt32.size) else none

/-- Draws from listed words: the number, the words left, and how many were used. -/
def drawFrom : List UInt32 → Nat × List UInt32 × Nat
  | [] => ((ofWord? 0).getD 1, [], 1)
  | w :: rest =>
    match ofWord? w with
    | some n => (n, rest, 1)
    | none =>
      let (n, left, used) := drawFrom rest
      (n, left, used + 1)

/-- Model of `placeholder_number`, which calls `gen_range`: draws a number. -/
def draw (source : Words) : Nat × Words :=
  let (n, ahead, used) := drawFrom source.ahead
  (n, { ahead, used := source.used + used })

/-- The constant `CREATE_USER_CALLBACK`: the tag that marks the answer to the panel's own creation
of a user. -/
def userTag : String := "test"

def decimal (n : Nat) : String := String.ofList (Nat.toDigits 10 n)

/-- The envelope that `create_group` builds from a number. -/
def group (n : Nat) : Request where
  verb := .create
  body := some (.description { kind := some .group, name := "New group_" ++ decimal n })

/-- The envelope that `create_user` builds from a number, which serves as login name. -/
def user (n : Nat) : Request where
  verb := .create
  callback := userTag
  body := some (.description {
    kind := some .user, name := decimal n, realName := "New user_" ++ decimal n })

/-- Model of `create_group` and `create_user`: asks for a new entity under a drawn placeholder
name. -/
def create (k : EntityKind) (source : Words) : Request × Words :=
  let (n, source) := draw source
  match k with
  | .group => (group n, source)
  | .user => (user n, source)

end Placeholder

end RosterPanel
