import BufferPlan.Json.Value
import BufferPlan.Text.Decimal

/-!
# Records in JSON

A record with named fields may be written as an object, with the members in any order, or as an
array of its fields in their order of declaration.

* In an object a member of an unknown name is skipped, and a field that is written twice refuses
  the whole object.
* In an array the last fields may be left out, down to a least number of items.

`Value.fields?` brings both forms to one list of fields by name; `field?` reads one of them.
-/

namespace BufferPlan.Json

/-- The fields of a record that are written, by name. -/
abbrev Fields := List (String × Value)

/-- The name that a string writes. -/
def name? (key : List Piece) : Option String := (text? key).map String.ofList

namespace Value

/-- The fields of a record with the given names, in their order of declaration. An array holds at
least `least` of them. -/
def fields? (names : List String) (least : Nat) : Value → Option Fields
  | .array items =>
    if least ≤ items.length ∧ items.length ≤ names.length then some (names.zip items) else none
  | .object members => do
    let named ← members.mapM fun m => (name? m.1).map fun n => (n, m.2)
    let known := named.filter fun m => names.contains m.1
    if (known.map Prod.fst).Nodup then some known else none
  | _ => none

end Value

/-- The value of a field: read if it is written, and `missing` otherwise. -/
def field? {α : Type} (fields : Fields) (name : String) (read : Value → Option α)
    (missing : Option α) : Option α :=
  match fields.lookup name with
  | some v => read v
  | none => missing

/-! ## Values of a field -/

namespace Value

/-- The natural number that a canonical decimal says. -/
def nat? : Value → Option Nat
  | .number text => Text.Decimal.canonical? text
  | _ => none

/-- The 32-bit count. -/
def word32? (v : Value) : Option UInt32 := v.nat?.bind Text.Decimal.word32?

/-- The 64-bit count. -/
def word64? (v : Value) : Option UInt64 := v.nat?.bind Text.Decimal.word64?

/-- Either null or what `read` reads. -/
def orNull? {α : Type} (read : Value → Option α) : Value → Option (Option α)
  | .null => some none
  | v => (read v).map some

end Value

end BufferPlan.Json
