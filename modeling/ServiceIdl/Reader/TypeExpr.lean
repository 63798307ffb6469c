import ServiceIdl.Reader.Basic
import ServiceIdl.TypeExpr

/-!
# Reading types

While an argument of a container is read, the container is a type with a hole. The
open containers around the place that is being read form a stack of holes, whose
height is the depth of nesting.
-/

namespace ServiceIdl.TypeReader

/-- A container with a hole for the argument that is being read. -/
inductive Hole where
  | listElement
  | setElement
  | mapKey
  | mapValue (key : TypeExpr)
  deriving DecidableEq

/-- What of a type has been read. The holes are those of the enclosing containers,
the innermost first. -/
inductive State where
  /-- A type is expected. -/
  | operand (holes : List Hole)
  /-- A container was named, and its opening angle is expected. -/
  | opening (hole : Hole) (holes : List Hole)
  /-- The argument for a hole was read. -/
  | closing (hole : Hole) (argument : TypeExpr) (holes : List Hole)
  deriving DecidableEq

/-- Nothing of a type has been read. -/
def start : State := .operand []

/-- The hole that a container keyword opens first. -/
def Hole.ofToken? : Token → Option Hole
  | .keyword .listType => some .listElement
  | .keyword .setType => some .setElement
  | .keyword .mapType => some .mapKey
  | _ => none

/-- A complete type goes into the innermost hole; without holes it is the result. -/
def plug (type : TypeExpr) : List Hole → Step State TypeExpr
  | [] => .done type
  | hole :: holes => .more (.closing hole type holes)

/-- Reads the first token of a type. -/
def readOperand (limit : Nat) (holes : List Hole) (t : SpannedToken) :
    Except ParseError (Step State TypeExpr) :=
  match t.token with
  | .identifier name => .ok (plug (.named name) holes)
  | token =>
    match Hole.ofToken? token with
    | none => .error (t.unexpected "type")
    | some hole =>
      if holes.length < limit then .ok (.more (.opening hole holes))
      else .error ⟨.typeTooDeep limit, t.span⟩

/-- Reads the token behind the argument for a hole. -/
def readClosing (hole : Hole) (argument : TypeExpr) (holes : List Hole) (t : SpannedToken) :
    Except ParseError (Step State TypeExpr) :=
  match hole with
  | .listElement => do t.expectSymbol .rightAngle; return plug (.list argument) holes
  | .setElement => do t.expectSymbol .rightAngle; return plug (.set argument) holes
  | .mapKey => do t.expectSymbol .comma; return .more (.operand (.mapValue argument :: holes))
  | .mapValue key => do t.expectSymbol .rightAngle; return plug (.map key argument) holes

/-- Reads one token of a type that may nest at most `limit` containers. -/
def read (limit : Nat) (state : State) (t : SpannedToken) :
    Except ParseError (Step State TypeExpr) :=
  match state with
  | .operand holes => readOperand limit holes t
  | .opening hole holes => do t.expectSymbol .leftAngle; return .more (.operand (hole :: holes))
  | .closing hole argument holes => readClosing hole argument holes t

end ServiceIdl.TypeReader
