/-!
# Tokens

The parts of a YAML source: markers, signs, properties and scalars as they are
written, and the starts and ends of blocks, which come from the indentation.
-/

namespace Gleaner.Yaml

inductive Token where
  | versionDirective (major minor : Nat)
  | tagDirective (handle expansion : String)
  | documentStart
  | documentEnd
  | sourceEnd
  | blockListStart
  | blockMappingStart
  | blockEnd
  | listOpen
  | listClose
  | mappingOpen
  | mappingClose
  /-- The dash before an item. -/
  | item
  /-- The comma between items. -/
  | comma
  /-- What follows is a key. -/
  | key
  /-- What follows is a value. -/
  | value
  | reference (name : String)
  | anchor (name : String)
  | tag (handle suffix : String)
  | scalar (plain : Bool) (s : String)
  deriving DecidableEq, Repr

end Gleaner.Yaml
