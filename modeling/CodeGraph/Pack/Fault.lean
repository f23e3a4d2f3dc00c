/-!
# Faults of a document

Why a document is not what it should be.  A document that cannot be read at all is
malformed; every other fault concerns a part that was read.
-/

namespace CodeGraph.Pack

/-- Why a document is not what it should be. -/
inductive Fault where
  | malformed
  | invalidType
  | invalidValue
  | invalidLength
  | missingField (name : String)
  | duplicateField (name : String)
  | unknownVariant (name : String)
deriving DecidableEq, Repr

/-- The text of a fault. -/
def Fault.message : Fault → String
  | malformed => "malformed"
  | invalidType => "invalid type"
  | invalidValue => "invalid value"
  | invalidLength => "invalid length"
  | missingField name => s!"missing field `{name}`"
  | duplicateField name => s!"duplicate field `{name}`"
  | unknownVariant name => s!"unknown variant `{name}`"

end CodeGraph.Pack
