import BufferPlan.Json.Scan

/-!
# JSON values

A value is what a JSON text says, with the members of an object in the order in which they are
written and none left out: a repeated name is an error in some places and an overwriting in others,
so it is the reader of the value who decides.

* `Value.tokens` writes a value as tokens.
* `Value.ofTokens?` reads tokens as one value. It is a machine with a stack of the arrays and
  objects around the place of reading, so nesting has no limit but the length of the text.
* `Value.parse?` reads a text.
-/

namespace BufferPlan.Json

/-- A JSON value. -/
inductive Value where
  | null
  | bool (b : Bool)
  | number (text : List Char)
  | string (pieces : List Piece)
  | array (items : List Value)
  | object (members : List (List Piece × Value))
deriving Inhabited

namespace Value

/-- A string in which every character stands for itself. -/
def ofText (s : String) : Value := .string (pieces s.toList)

/-- A natural number. -/
def ofNat (n : Nat) : Value := .number (Nat.toDigits 10 n)

/-- A 64-bit count. -/
def ofWord (n : UInt64) : Value := ofNat n.toNat

/-- What `write` makes of a value, and null where there is none. -/
def orNull {α : Type} (write : α → Value) : Option α → Value
  | none => .null
  | some a => write a

/-- An object, from its members by name. -/
def record (members : List (String × Value)) : Value :=
  .object (members.map fun m => (pieces m.1.toList, m.2))

/-! ## Writing tokens -/

mutual

/-- The tokens of a value. -/
def tokens : Value → List Token
  | .null => [.null]
  | .bool b => [.bool b]
  | .number text => [.number text]
  | .string pieces => [.string pieces]
  | .array [] => [.beginArray, .endArray]
  | .array (v :: vs) => .beginArray :: (tokens v ++ itemTokens vs)
  | .object [] => [.beginObject, .endObject]
  | .object ((key, v) :: ms) =>
    .beginObject :: .string key :: .colon :: (tokens v ++ memberTokens ms)

/-- The tokens of the items after the first, and the end of the array. -/
def itemTokens : List Value → List Token
  | [] => [.endArray]
  | v :: vs => .comma :: (tokens v ++ itemTokens vs)

/-- The tokens of the members after the first, and the end of the object. -/
def memberTokens : List (List Piece × Value) → List Token
  | [] => [.endObject]
  | (key, v) :: ms => .comma :: .string key :: .colon :: (tokens v ++ memberTokens ms)

end

/-- The text of a value without blanks. -/
def compact (v : Value) : String := String.ofList (v.tokens.flatMap Token.text)

end Value

/-! ## Reading tokens -/

/-- An array or object that is not closed yet. What was read of it is kept last first. -/
inductive Frame where
  | items (read : List Value)
  | members (read : List (List Piece × Value))
  /-- An object whose member of that name still lacks its value. -/
  | member (read : List (List Piece × Value)) (key : List Piece)

/-- What has to come next. -/
inductive Expected where
  | value
  /-- A first item, or the end of the array. -/
  | itemOrEnd
  /-- The name of a member. -/
  | key
  /-- The name of a first member, or the end of the object. -/
  | keyOrEnd
  | colon
  /-- A value is complete: a comma or an end goes on with what is around it. -/
  | after (v : Value)

/-- The beginning of a value. -/
def beginValue (stack : List Frame) : Token → Option (Expected × List Frame)
  | .null => some (.after .null, stack)
  | .bool b => some (.after (.bool b), stack)
  | .number text => some (.after (.number text), stack)
  | .string pieces => some (.after (.string pieces), stack)
  | .beginArray => some (.itemOrEnd, .items [] :: stack)
  | .beginObject => some (.keyOrEnd, .members [] :: stack)
  | _ => none

/-- One token: what has to come next, inside which arrays and objects. -/
def advance (e : Expected) (stack : List Frame) (t : Token) : Option (Expected × List Frame) :=
  match e, stack, t with
  | .value, stack, t => beginValue stack t
  | .itemOrEnd, .items [] :: stack, .endArray => some (.after (.array []), stack)
  | .itemOrEnd, stack, t => beginValue stack t
  | .key, .members read :: stack, .string key => some (.colon, .member read key :: stack)
  | .keyOrEnd, .members read :: stack, .string key => some (.colon, .member read key :: stack)
  | .keyOrEnd, .members [] :: stack, .endObject => some (.after (.object []), stack)
  | .colon, stack, .colon => some (.value, stack)
  | .after v, .items read :: stack, .comma => some (.value, .items (v :: read) :: stack)
  | .after v, .items read :: stack, .endArray =>
    some (.after (.array (v :: read).reverse), stack)
  | .after v, .member read key :: stack, .comma =>
    some (.key, .members ((key, v) :: read) :: stack)
  | .after v, .member read key :: stack, .endObject =>
    some (.after (.object ((key, v) :: read).reverse), stack)
  | _, _, _ => none

/-- The value that a sequence of tokens completes. -/
def readFrom (e : Expected) (stack : List Frame) : List Token → Option Value
  | [] =>
    match e, stack with
    | .after v, [] => some v
    | _, _ => none
  | t :: rest =>
    match advance e stack t with
    | some (e, stack) => readFrom e stack rest
    | none => none

namespace Value

/-- The value that the tokens write. -/
def ofTokens? (tokens : List Token) : Option Value := readFrom .value [] tokens

/-- The value that a text says. -/
def parse? (s : String) : Option Value := (scan s.toList).bind ofTokens?

end Value

end BufferPlan.Json
