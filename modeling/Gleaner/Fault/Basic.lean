import Gleaner.Fault.Code
import Gleaner.Text.Numeral

/-!
# Faults of a flow

What can go wrong while a flow is loaded or run, one constructor for each
cause. A fault ends the whole run: later steps usually depend on earlier ones
through the variables, so nothing is skipped or tried again.

* `Fault.message`: the wording, after the code;
* `Fault.userMessage`: the wording after the description of the code;
* `Fault.developerMessage`: the message with its causes below it.
-/

namespace Gleaner

inductive Fault where
  | undefinedVariable (name : String)
  /-- A list variable was asked for its first element and has none. -/
  | exhausted (name : String)
  | typeMismatch (context expected found : String)
  | entryNotFound (name entry : String)
  | markerNotFound (marker : String)
  | columnOutOfRange (column : String) (index size : Nat)
  | notTabular (nodeType : String)
  | missingParameter (action parameter : String)
  | invalidParameter (action parameter reason : String)
  | emptyQuery (action nodeType filter : String)
  | unknownAction (name : String)
  | writeFailed (path cause : String)
  | badFlow (reason : String) (cause : Option String)
  deriving DecidableEq, Repr

namespace Fault

/-- The code of a fault. -/
def code : Fault → Nat
  | undefinedVariable _ => Code.undefinedVariable
  | exhausted _ => Code.exhausted
  | typeMismatch .. => Code.typeMismatch
  | entryNotFound .. => Code.entryNotFound
  | markerNotFound _ => Code.markerNotFound
  | columnOutOfRange .. => Code.columnOutOfRange
  | notTabular _ => Code.notTabular
  | missingParameter .. => Code.missingParameter
  | invalidParameter .. => Code.invalidParameter
  | emptyQuery .. => Code.emptyQuery
  | unknownAction _ => Code.unknownAction
  | writeFailed .. => Code.writeFailed
  | badFlow .. => Code.flowSyntax

/-- The exit status of a run that ended with the fault. -/
def exitStatus (f : Fault) : Nat :=
  Code.exitStatus f.code

/-- A text between single quotes. -/
def inQuotes (s : String) : String :=
  "'" ++ s ++ "'"

/-- The wording of a fault without its code. -/
def wording : Fault → String
  | undefinedVariable name => "variable " ++ inQuotes name ++ " is not defined"
  | exhausted name => "variable " ++ inQuotes name ++ " has no elements left to pop"
  | typeMismatch context expected found =>
    "type mismatch for " ++ context ++ ": expected " ++ expected ++ ", found " ++ found
  | entryNotFound name entry => inQuotes entry ++ " not found in variable " ++ inQuotes name
  | markerNotFound marker => "marker " ++ marker ++ " not found in document"
  | columnOutOfRange column index size =>
    "column " ++ inQuotes column ++ " refers to branch element " ++ Text.numeral index ++
      ", but the branch has " ++ Text.numeral size ++ " elements"
  | notTabular nodeType => "<" ++ nodeType ++ "> is not tabular markup"
  | missingParameter action parameter =>
    "action " ++ inQuotes action ++ " is missing required parameter " ++ inQuotes parameter
  | invalidParameter action parameter reason =>
    "action " ++ inQuotes action ++ " has invalid parameter " ++ inQuotes parameter ++ ": " ++
      reason
  | emptyQuery action nodeType filter =>
    "action " ++ inQuotes action ++ " found no <" ++ nodeType ++ "> matching " ++ filter
  | unknownAction name => "unknown action " ++ inQuotes name
  | writeFailed path _ => "failed to write " ++ path
  | badFlow reason _ => "invalid flow definition: " ++ reason

/-- The message of a fault: its code and its wording. -/
def message (f : Fault) : String :=
  Code.tag f.code ++ f.wording

/-- The causes behind a fault, the nearest first. -/
def causes : Fault → List String
  | writeFailed _ cause => [cause]
  | badFlow _ cause => cause.toList
  | _ => []

/-- The message for a user: the area in words, then the message, or the place
and cause of an output that failed. -/
def userMessage (f : Fault) : String :=
  let area := Code.describe f.code
  match f with
  | writeFailed path cause => area ++ " (" ++ path ++ "): " ++ cause
  | _ => area ++ ": " ++ f.message

/-- The message for a developer: the message with each cause on a line below. -/
def developerMessage (f : Fault) : String :=
  f.message ++ String.join (f.causes.map ("\n  caused by: " ++ ·))

/-- Whether the fault is a variable that has no value to give: one that is not
declared, or a list with no element left. -/
def isMissingVariable : Fault → Bool
  | undefinedVariable _ | exhausted _ => true
  | _ => false

/-- Whether the fault lies in the definition of a flow and not in its run. -/
def isDefinitionFault : Fault → Bool
  | unknownAction _ | missingParameter .. | invalidParameter .. | badFlow .. => true
  | _ => false

end Fault

end Gleaner
