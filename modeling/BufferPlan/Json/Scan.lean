import BufferPlan.Json.Token

/-!
# Scanning JSON text

`scan` splits a text into tokens, one character at a time. Between tokens only space, tab, carriage
return and line feed may stand. A string holds no character below U+0020 and only the escapes of
the grammar; a number has no sign but a minus, no leading zero, and digits wherever the grammar asks
for them.

The scanner is a machine: `Mode` is what it is in the middle of, and `step` takes one character. A
number has no closing mark, so the character after it ends it and is then looked at again.
-/

namespace BufferPlan.Json

/-- The part of a number that was read last. -/
inductive NumberPart where
  | minus
  | zero
  | digits
  | point
  | fraction
  | mark
  | sign
  | exponent
deriving DecidableEq, Repr

namespace NumberPart

/-- The part a number is in after one more character, if it goes on with it. -/
def next? (p : NumberPart) (c : Char) : Option NumberPart :=
  match p with
  | minus => if c = '0' then some zero else if c.isDigit then some digits else none
  | zero => if c = '.' then some point else if c = 'e' ∨ c = 'E' then some mark else none
  | digits =>
    if c.isDigit then some digits
    else if c = '.' then some point
    else if c = 'e' ∨ c = 'E' then some mark
    else none
  | point => if c.isDigit then some fraction else none
  | fraction =>
    if c.isDigit then some fraction else if c = 'e' ∨ c = 'E' then some mark else none
  | mark =>
    if c.isDigit then some exponent else if c = '+' ∨ c = '-' then some sign else none
  | sign => if c.isDigit then some exponent else none
  | exponent => if c.isDigit then some exponent else none

/-- A number may end in this part. -/
def mayEnd : NumberPart → Bool
  | zero | digits | fraction | exponent => true
  | _ => false

end NumberPart

/-- What the scanner is in the middle of. What was read of a token is kept last first. -/
inductive Mode where
  | between
  /-- A word that stands for a token, with the letters still to come. -/
  | word (token : Token) (next : Char) (rest : List Char)
  | number (part : NumberPart) (read : List Char)
  | string (read : List Piece)
  /-- A string, behind a backslash. -/
  | escape (read : List Piece)
  /-- A string, inside a `\u` escape with so many digits to come. -/
  | unit (read : List Piece) (value : Nat) (missing : Nat)
deriving Repr

/-- A character that may stand between tokens. -/
def isSpace (c : Char) : Bool := c = ' ' || c = '\t' || c = '\n' || c = '\r'

/-- The character that a letter behind a backslash stands for. -/
def escaped? (c : Char) : Option Char :=
  if c = '"' ∨ c = '\\' ∨ c = '/' then some c
  else if c = 'b' then some '\x08'
  else if c = 'f' then some '\x0c'
  else if c = 'n' then some '\n'
  else if c = 'r' then some '\r'
  else if c = 't' then some '\t'
  else none

/-- The first character of a token, or a blank: the token if it is complete, and the new mode. -/
def start (c : Char) : Option (List Token × Mode) :=
  if isSpace c then some ([], .between)
  else if c = '\x7b' then some ([.beginObject], .between)
  else if c = '\x7d' then some ([.endObject], .between)
  else if c = '[' then some ([.beginArray], .between)
  else if c = ']' then some ([.endArray], .between)
  else if c = ':' then some ([.colon], .between)
  else if c = ',' then some ([.comma], .between)
  else if c = 'n' then some ([], .word .null 'u' ['l', 'l'])
  else if c = 't' then some ([], .word (.bool true) 'r' ['u', 'e'])
  else if c = 'f' then some ([], .word (.bool false) 'a' ['l', 's', 'e'])
  else if c = '"' then some ([], .string [])
  else if c = '-' then some ([], .number .minus [c])
  else if c = '0' then some ([], .number .zero [c])
  else if c.isDigit then some ([], .number .digits [c])
  else none

/-- One character: the token it completes, if any, and the new mode. -/
def step (m : Mode) (c : Char) : Option (List Token × Mode) :=
  match m with
  | .between => start c
  | .word token next rest =>
    if c = next then
      match rest with
      | [] => some ([token], .between)
      | next :: rest => some ([], .word token next rest)
    else none
  | .number part read =>
    match part.next? c with
    | some part => some ([], .number part (c :: read))
    | none =>
      if part.mayEnd then (start c).map fun r => (.number read.reverse :: r.1, r.2) else none
  | .string read =>
    if c = '"' then some ([.string read.reverse], .between)
    else if c = '\\' then some ([], .escape read)
    else if c.toNat < 0x20 then none
    else some ([], .string (.char c :: read))
  | .escape read =>
    if c = 'u' then some ([], .unit read 0 4)
    else (escaped? c).map fun d => ([], .string (.char d :: read))
  | .unit read value missing =>
    match Text.Hex.digit? c with
    | some d =>
      if missing ≤ 1 then some ([], .string (.unit (UInt16.ofNat (16 * value + d)) :: read))
      else some ([], .unit read (16 * value + d) (missing - 1))
    | none => none

/-- The token that the end of the text completes, if it may end there. -/
def finish : Mode → Option (List Token)
  | .between => some []
  | .number part read => if part.mayEnd then some [.number read.reverse] else none
  | _ => none

/-- The tokens of a text that is read from a mode on. -/
def scanFrom (m : Mode) : List Char → Option (List Token)
  | [] => finish m
  | c :: rest =>
    match step m c with
    | some (tokens, m) => (scanFrom m rest).map (tokens ++ ·)
    | none => none

/-- The tokens of a text. -/
def scan (s : List Char) : Option (List Token) := scanFrom .between s

end BufferPlan.Json
