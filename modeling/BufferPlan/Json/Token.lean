import BufferPlan.Text.Hex

/-!
# Tokens of JSON text

A JSON text is a sequence of tokens with blanks between them. A number token keeps its text, and a
string token keeps apart the characters that stand in it and the 16-bit units written as `\u`
escapes: which of the two was written matters for the keys of edge maps, and an unpaired surrogate
is an error only where the string is read as text.

* `Token.text` writes a token.
* `text?` reads the pieces of a string as text, and `plain?` reads those without unit escapes.
-/

namespace BufferPlan.Json

/-- A part of a string. -/
inductive Piece where
  /-- A character, standing for itself or behind a backslash. -/
  | char (c : Char)
  /-- A 16-bit unit, written with four hexadecimal digits. -/
  | unit (u : UInt16)
deriving DecidableEq, Repr

/-- A token of JSON text. -/
inductive Token where
  | beginObject
  | endObject
  | beginArray
  | endArray
  | colon
  | comma
  | null
  | bool (b : Bool)
  | number (text : List Char)
  | string (pieces : List Piece)
deriving DecidableEq, Repr

/-! ## Writing -/

/-- One part of a string as it is written. -/
def Piece.text : Piece → List Char
  | char c =>
    if c = '"' then ['\\', '"']
    else if c = '\\' then ['\\', '\\']
    else if c = '\x08' then ['\\', 'b']
    else if c = '\x0c' then ['\\', 'f']
    else if c = '\n' then ['\\', 'n']
    else if c = '\r' then ['\\', 'r']
    else if c = '\t' then ['\\', 't']
    else if c.toNat < 0x20 then ['\\', 'u'] ++ Text.Hex.fixed 4 c.toNat
    else [c]
  | unit u => ['\\', 'u'] ++ Text.Hex.fixed 4 u.toNat

/-- A token as it is written. -/
def Token.text : Token → List Char
  | beginObject => ['\x7b']
  | endObject => ['\x7d']
  | beginArray => ['[']
  | endArray => [']']
  | colon => [':']
  | comma => [',']
  | null => ['n', 'u', 'l', 'l']
  | bool true => ['t', 'r', 'u', 'e']
  | bool false => ['f', 'a', 'l', 's', 'e']
  | number text => text
  | string pieces => '"' :: pieces.flatMap Piece.text ++ ['"']

/-! ## Strings as text -/

/-- The unit is the first half of a surrogate pair. -/
def isHighSurrogate (u : UInt16) : Bool := 0xD800 ≤ u && u < 0xDC00

/-- The unit is the second half of a surrogate pair. -/
def isLowSurrogate (u : UInt16) : Bool := 0xDC00 ≤ u && u < 0xE000

/-- The character of a surrogate pair. -/
def pairChar (high low : UInt16) : Char :=
  Char.ofNat (0x10000 + (high.toNat - 0xD800) * 0x400 + (low.toNat - 0xDC00))

/-- The text of a string, unless one of its surrogates is unpaired. -/
def text? : List Piece → Option (List Char)
  | [] => some []
  | .char c :: rest => (text? rest).map (c :: ·)
  | .unit u :: .unit v :: rest =>
    if isHighSurrogate u then
      if isLowSurrogate v then (text? rest).map (pairChar u v :: ·) else none
    else if isLowSurrogate u then none
    else (text? (.unit v :: rest)).map (Char.ofNat u.toNat :: ·)
  | .unit u :: rest =>
    if isHighSurrogate u || isLowSurrogate u then none
    else (text? rest).map (Char.ofNat u.toNat :: ·)

/-- The text of a string in which no character is written as a unit. -/
def plain? : List Piece → Option (List Char)
  | [] => some []
  | .char c :: rest => (plain? rest).map (c :: ·)
  | .unit _ :: _ => none

/-- The pieces of a text in which every character stands for itself. -/
def pieces (s : List Char) : List Piece := s.map .char

end BufferPlan.Json
