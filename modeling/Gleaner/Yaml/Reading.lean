import Gleaner.Yaml.Lexer
import Gleaner.Yaml.Node

/-!
# Reading YAML

A source is split into tokens, these make up one document, and the document
has a value.
-/

namespace Gleaner.Yaml

/-- The value of a source that holds one document. -/
def parse? (s : String) : Option Yaml :=
  (Token.ofSource? s).bind fun tokens =>
    (Node.ofTokens? tokens).bind fun (v, lookup) => v.toYaml? lookup

end Gleaner.Yaml
