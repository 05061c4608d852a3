import BufferPlan.Json.Value

/-!
# JSON documents for people

A document that people keep and compare is written over several lines, each level two blanks
further in, with the members of every object ordered by name.

* `Value.sorted` orders the members.
* `Value.pretty` lays the value out.
-/

namespace BufferPlan.Json.Value

/-! ## Members by name -/

/-- The characters of a name that is written without unit escapes. -/
def keyOrder (key : List Piece) : List Char := key.flatMap Piece.text

/-- The members with one more, put before the first that does not come before it. -/
def insertMember (m : List Piece × Value) :
    List (List Piece × Value) → List (List Piece × Value)
  | [] => [m]
  | n :: rest => if keyOrder n.1 < keyOrder m.1 then n :: insertMember m rest else m :: n :: rest

mutual

/-- The value with the members of every object in it ordered by name. -/
def sorted : Value → Value
  | .array items => .array (sortedItems items)
  | .object members => .object (sortedMembers members)
  | v => v

/-- Orders inside every item. -/
def sortedItems : List Value → List Value
  | [] => []
  | v :: vs => sorted v :: sortedItems vs

/-- Orders the members, and inside every member. -/
def sortedMembers : List (List Piece × Value) → List (List Piece × Value)
  | [] => []
  | (key, v) :: ms => insertMember (key, sorted v) (sortedMembers ms)

end

/-! ## Lines -/

/-- A new line at a depth. -/
def newline (depth : Nat) : List Char := '\n' :: List.replicate (2 * depth) ' '

mutual

/-- The text of a value whose first line stands at a depth. -/
def layout (depth : Nat) : Value → List Char
  | .array (v :: vs) =>
    '[' :: newline (depth + 1) ++ layout (depth + 1) v ++ layoutItems depth vs
  | .object ((key, v) :: ms) =>
    '\x7b' :: newline (depth + 1) ++ Token.text (.string key) ++ [':', ' ']
      ++ layout (depth + 1) v ++ layoutMembers depth ms
  | v => v.tokens.flatMap Token.text

/-- The items after the first, and the end of the array. -/
def layoutItems (depth : Nat) : List Value → List Char
  | [] => newline depth ++ [']']
  | v :: vs => ',' :: newline (depth + 1) ++ layout (depth + 1) v ++ layoutItems depth vs

/-- The members after the first, and the end of the object. -/
def layoutMembers (depth : Nat) : List (List Piece × Value) → List Char
  | [] => newline depth ++ ['\x7d']
  | (key, v) :: ms =>
    ',' :: newline (depth + 1) ++ Token.text (.string key) ++ [':', ' ']
      ++ layout (depth + 1) v ++ layoutMembers depth ms

end

/-- The text of a value over several lines. -/
def pretty (v : Value) : String := String.ofList (layout 0 v)

end BufferPlan.Json.Value
