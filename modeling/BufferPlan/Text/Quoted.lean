import BufferPlan.Text.Extender
import BufferPlan.Text.Unseen

/-!
# Quoted text

Messages quote the text they complain about, so that blanks and odd characters in it can be seen.
A quoted text stands between quotation marks. The quotation mark, the backslash, the tab, the line
ends and the null character are written as a backslash and a letter; a character that is unseen or
joins the one before it is written as `\u` and its code point in braces; every other character
stands for itself.
-/

namespace BufferPlan.Text.Quoted

/-- The character is not fit to stand for itself inside a quoted text. -/
def mustShow (c : Char) : Bool := isExtender c || isUnseen c

/-- One character inside a quoted text. -/
def escape (c : Char) : List Char :=
  if c = '"' then ['\\', '"']
  else if c = '\\' then ['\\', '\\']
  else if c = '\t' then ['\\', 't']
  else if c = '\n' then ['\\', 'n']
  else if c = '\r' then ['\\', 'r']
  else if c = '\x00' then ['\\', '0']
  else if mustShow c then ['\\', 'u', '\x7b'] ++ Nat.toDigits 16 c.toNat ++ ['\x7d']
  else [c]

/-- The text between quotation marks. -/
def encode (s : List Char) : List Char := '"' :: s.flatMap escape ++ ['"']

end BufferPlan.Text.Quoted

namespace BufferPlan.Text

/-- The text between quotation marks. -/
def quoted (s : String) : String := String.ofList (Quoted.encode s.toList)

end BufferPlan.Text
