/-!
What a schema finds wrong with the data of a block.
-/

namespace BlockDoc

/-- A constraint that is not met, with the path of the field, such as `tabs[1].label`. -/
structure Violation where
  path : String
  message : String
  deriving DecidableEq, Repr, Inhabited

namespace Violation

/-- The path and the message with a colon between them. -/
def toText (v : Violation) : String := v.path ++ ": " ++ v.message

end Violation

end BlockDoc
