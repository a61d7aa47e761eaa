import RosterPanel.Json.Number

/-!
# Tokens

The tokens of a JSON text, how each is written, and a scanner that reads a text one character at a
time. A string whose escapes are no valid UTF-16 and a number that no double can hold are tokens
all the same: whether that matters is for the reader of the value to say.
-/

namespace RosterPanel.Json

inductive Token
  | beginArray
  | endArray
  | beginObject
  | endObject
  | comma
  | colon
  | null
  | bool (value : Bool)
  /-- A number, none when it is out of range. -/
  | number (value : Option Number)
  /-- A string, none when its escapes form no text. -/
  | string (value : Option String)
deriving DecidableEq, Repr

/-! ## Writing -/

/-- A digit of a `\u` escape, in lower case. -/
def hexDigit (n : Nat) : Char := Nat.digitChar n

/-- How a character is written inside a string: quotes, backslashes and control characters are
escaped, all else stands for itself. -/
def escape (c : Char) : List Char :=
  if c = '"' then ['\\', '"']
  else if c = '\\' then ['\\', '\\']
  else if c = '\x08' then ['\\', 'b']
  else if c = '\t' then ['\\', 't']
  else if c = '\n' then ['\\', 'n']
  else if c = '\x0c' then ['\\', 'f']
  else if c = '\r' then ['\\', 'r']
  else if c.toNat < 0x20 then
    ['\\', 'u', '0', '0', hexDigit (c.toNat / 16), hexDigit (c.toNat % 16)]
  else [c]

/-- A string with its quotes. -/
def quote (s : String) : List Char := '"' :: s.toList.flatMap escape ++ ['"']

namespace Token

/-- The text of a token. What cannot be read as a value has no text. -/
def chars : Token → List Char
  | .beginArray => ['[']
  | .endArray => [']']
  | .beginObject => ['{']
  | .endObject => ['}']
  | .comma => [',']
  | .colon => [':']
  | .null => ['n', 'u', 'l', 'l']
  | .bool true => ['t', 'r', 'u', 'e']
  | .bool false => ['f', 'a', 'l', 's', 'e']
  | .number n => (n.map Number.chars).getD []
  | .string s => (s.map quote).getD []

end Token

/-! ## Strings as they stand in a text -/

/-- A piece of a string: a character, or a `\u` escape with its 16-bit unit. -/
inductive Piece
  | char (c : Char)
  | unit (value : Nat)
deriving DecidableEq, Repr

namespace Piece

def isHigh (n : Nat) : Bool := 0xD800 ≤ n && n < 0xDC00

def isLow (n : Nat) : Bool := 0xDC00 ≤ n && n < 0xE000

/-- The characters of a string; none when one half of a surrogate pair stands alone. -/
def decode : List Piece → Option (List Char)
  | [] => some []
  | .char c :: rest => (decode rest).map (c :: ·)
  | .unit high :: .unit low :: rest =>
    if isHigh high then
      if isLow low then
        (decode rest).map (Char.ofNat (0x10000 + (high - 0xD800) * 0x400 + (low - 0xDC00)) :: ·)
      else none
    else if isLow high then none
    else (decode (.unit low :: rest)).map (Char.ofNat high :: ·)
  | .unit n :: rest =>
    if isHigh n || isLow n then none else (decode rest).map (Char.ofNat n :: ·)

end Piece

/-! ## Scanning -/

/-- Where in a token the scanner stands. What has been read of a token is kept newest first. -/
inductive Scan
  | between
  | string (read : List Piece)
  | escape (read : List Piece)
  | unicode (read : List Piece) (digits : Nat) (value : Nat)
  | word (read : List Char)
  | number (read : List Char)
deriving DecidableEq, Repr

def isBlank (c : Char) : Bool := c = ' ' || c = '\t' || c = '\n' || c = '\r'

def isWordChar (c : Char) : Bool := c.isLower

def isNumberChar (c : Char) : Bool :=
  c.isDigit || c = '-' || c = '+' || c = '.' || c = 'e' || c = 'E'

def hexValue? (c : Char) : Option Nat :=
  if c.isDigit then some (c.toNat - '0'.toNat)
  else if 'a' ≤ c && c ≤ 'f' then some (c.toNat - 'a'.toNat + 10)
  else if 'A' ≤ c && c ≤ 'F' then some (c.toNat - 'A'.toNat + 10)
  else none

/-- The character that a one-letter escape stands for. -/
def unescape? (c : Char) : Option Char :=
  match c with
  | '"' => some '"'
  | '\\' => some '\\'
  | '/' => some '/'
  | 'b' => some '\x08'
  | 'f' => some '\x0c'
  | 'n' => some '\n'
  | 'r' => some '\r'
  | 't' => some '\t'
  | _ => none

namespace Scan

def wordToken? (word : List Char) : Option Token :=
  if word = Token.chars .null then some .null
  else if word = Token.chars (.bool true) then some (.bool true)
  else if word = Token.chars (.bool false) then some (.bool false)
  else none

def numberToken? (text : List Char) : Option Token :=
  (Numeral.ofChars? text).map fun n => .number n.number?

/-- Reads a character between two tokens: the tokens it completes, and where it leads. -/
def enter (c : Char) : Option (List Token × Scan) :=
  if isBlank c then some ([], .between)
  else if isWordChar c then some ([], .word [c])
  else if c.isDigit || c = '-' then some ([], .number [c])
  else
    match c with
    | '"' => some ([], .string [])
    | '[' => some ([.beginArray], .between)
    | ']' => some ([.endArray], .between)
    | '{' => some ([.beginObject], .between)
    | '}' => some ([.endObject], .between)
    | ',' => some ([.comma], .between)
    | ':' => some ([.colon], .between)
    | _ => none

/-- Reads one character: the tokens it completes, and where it leads. -/
def step (scan : Scan) (c : Char) : Option (List Token × Scan) :=
  match scan with
  | .between => enter c
  | .string read =>
    if c = '"' then some ([.string ((Piece.decode read.reverse).map String.ofList)], .between)
    else if c = '\\' then some ([], .escape read)
    else if c.toNat < 0x20 then none
    else some ([], .string (.char c :: read))
  | .escape read =>
    if c = 'u' then some ([], .unicode read 0 0)
    else (unescape? c).map fun plain => ([], .string (.char plain :: read))
  | .unicode read digits value =>
    (hexValue? c).map fun n =>
      let value := 16 * value + n
      if digits = 3 then ([], .string (.unit value :: read))
      else ([], .unicode read (digits + 1) value)
  | .word read =>
    if isWordChar c then some ([], .word (c :: read))
    else do
      let token ← wordToken? read.reverse
      let (tokens, next) ← enter c
      some (token :: tokens, next)
  | .number read =>
    if isNumberChar c then some ([], .number (c :: read))
    else do
      let token ← numberToken? read.reverse
      let (tokens, next) ← enter c
      some (token :: tokens, next)

/-- Ends the text: the token that is still open, which a string may not be. -/
def finish : Scan → Option (List Token)
  | .between => some []
  | .word read => (wordToken? read.reverse).map fun token => [token]
  | .number read => (numberToken? read.reverse).map fun token => [token]
  | _ => none

end Scan

end RosterPanel.Json
