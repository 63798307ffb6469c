/-!
# Reading options

The form that numbers must have and the depth to which types may nest are up to the user.
-/

namespace ServiceIdl

/-- What a reader of interface definitions may be told to do differently. -/
structure ParseOptions where
  /-- Numbers must be an optional sign, digits, and at most one fraction. Otherwise
  any run of digits and dots after a sign or digit is a number. -/
  strictNumbers : Bool := false
  /-- The greatest number of containers that a type may nest. -/
  maxTypeDepth : Nat := 64
  deriving DecidableEq

end ServiceIdl
