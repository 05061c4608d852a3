import BufferPlan.Text.Decimal
import BufferPlan.Text.Quoted

/-!
# Why cluster options are refused

An option can hold a text that is no count, or a count below the least one allowed; and a text
may name no partition kind. The refused text itself is quoted, the key is not.
-/

namespace BufferPlan

/-- Why a text from the cluster configuration is refused. -/
inductive OptionError where
  /-- The value is not a count. -/
  | badValue (key value : String)
  /-- The value is a count below the least one allowed. -/
  | belowLeast (key : String) (value least : UInt64)
  /-- The text names no partition kind. -/
  | unknownKind (text : String)
deriving DecidableEq, Repr

namespace OptionError

/-- The error in words. -/
def message : OptionError → String
  | badValue key value => "Invalid value for " ++ key ++ ": " ++ Text.quoted value
  | belowLeast key value least =>
    "Value for " ++ key ++ " out of range: " ++ Text.Decimal.ofWord value ++ " < "
      ++ Text.Decimal.ofWord least
  | unknownKind text => "Unknown partition kind: " ++ Text.quoted text

end OptionError

end BufferPlan
