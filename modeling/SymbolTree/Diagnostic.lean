import SymbolTree.Record

/-!
# Diagnostics

Inconsistencies between records. They never stop a resolution: the symbol concerned degrades, and the
diagnostic is kept with the tree.
-/

namespace SymbolTree

/-- How a class refers to another one. -/
inductive Relation where
  | superclass
  | inherits
deriving DecidableEq, Repr

namespace Relation

/-- The verb of a relation. -/
def text : Relation → String
  | .superclass => "extends"
  | .inherits => "inherits from"

end Relation

/-- Section 7, `ResolveError`: an inconsistency between records. -/
inductive Diagnostic where
  /-- Two symbols compete for one id. -/
  | nameClash (id : String) (kept dropped : SourceLocation)
  /-- A class refers to a class that does not exist. -/
  | missingAncestor (className ancestor : String) (relation : Relation)
  /-- A class is among its own ancestors. -/
  | cycle (className : String) (path : List String)
deriving DecidableEq, Repr

namespace Diagnostic

/-- The wording of a diagnostic. -/
def message : Diagnostic → String
  | .nameClash id kept dropped =>
    "name clash on '" ++ id ++ "': " ++ kept.text ++ " kept, " ++ dropped.text ++ " dropped"
  | .missingAncestor className ancestor relation =>
    className ++ " " ++ relation.text ++ " '" ++ ancestor ++ "', which does not exist"
  | .cycle _ path => "inheritance cycle: " ++ String.intercalate " -> " path

end Diagnostic

end SymbolTree
