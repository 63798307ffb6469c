/-!
# Types

A type is a name or a container of types. Its signature is its canonical text.
-/

namespace ServiceIdl

/-- A type as it is written in a document. -/
inductive TypeExpr where
  | named (name : String)
  | list (element : TypeExpr)
  | set (element : TypeExpr)
  | map (key value : TypeExpr)
  deriving DecidableEq

namespace TypeExpr

/-- The text of a type without any blank. -/
def signature : TypeExpr → String
  | named name => name
  | list element => "list<" ++ element.signature ++ ">"
  | set element => "set<" ++ element.signature ++ ">"
  | map key value => "map<" ++ key.signature ++ "," ++ value.signature ++ ">"

/-- The greatest number of containers around a name in a type. -/
def depth : TypeExpr → Nat
  | named _ => 0
  | list element => element.depth + 1
  | set element => element.depth + 1
  | map key value => max key.depth value.depth + 1

end TypeExpr

end ServiceIdl
