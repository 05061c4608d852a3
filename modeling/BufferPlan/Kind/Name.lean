import BufferPlan.Kind.Basic
import BufferPlan.OptionError
import BufferPlan.Text.Blank

/-!
# Reading the name of a kind

A kind is read from its name in any case of the ASCII letters, with blanks around it.
-/

namespace BufferPlan.Kind

/-- The text with every ASCII letter in lower case, and every other character as it is. -/
def fold (s : List Char) : List Char := s.map Char.toLower

/-- The kind whose name the text is, but for the case of ASCII letters. -/
def ofName? (s : List Char) : Option Kind := all.find? fun k => fold k.name.toList == fold s

/-- The kind a text names. The error keeps the text as it was given. -/
def parse (s : String) : Except OptionError Kind :=
  match ofName? (Text.trim s.toList) with
  | some k => .ok k
  | none => .error (.unknownKind s)

end BufferPlan.Kind
