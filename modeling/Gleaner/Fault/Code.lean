/-!
# Codes of failures

Every failure has a number of four digits whose first digit gives its area:
1 settings, 2 flow definitions, 3 documents, 4 variables, 5 projections,
6 output and 9 everything else.
-/

namespace Gleaner.Code

def settingsNotFound : Nat := 1001
def settingsInvalid : Nat := 1002
def flowSyntax : Nat := 2001
def unknownAction : Nat := 2002
def missingParameter : Nat := 2003
def invalidParameter : Nat := 2004
def documentUnreadable : Nat := 3000
def documentMalformed : Nat := 3001
def emptyQuery : Nat := 3002
def markerNotFound : Nat := 3003
def notTabular : Nat := 3004
def undefinedVariable : Nat := 4001
def exhausted : Nat := 4002
def typeMismatch : Nat := 4003
def entryNotFound : Nat := 4004
def columnOutOfRange : Nat := 5001
def writeFailed : Nat := 6001

/-- What a code stands for. -/
def describe : Nat → String
  | 1000 => "Generic configuration error"
  | 1001 => "Configuration file not found"
  | 1002 => "Invalid TOML syntax in configuration"
  | 2000 => "Generic flow definition error"
  | 2001 => "Invalid flow definition syntax"
  | 2002 => "Unknown action name"
  | 2003 => "Required action parameter is missing"
  | 2004 => "Invalid action parameter"
  | 3000 => "Generic document error"
  | 3001 => "Failed to parse document"
  | 3002 => "Single node query matched nothing"
  | 3003 => "Hierarchy marker not found"
  | 3004 => "Node is not tabular markup"
  | 4001 => "Variable is not defined"
  | 4002 => "Variable has no elements left"
  | 4003 => "Variable or value has the wrong kind"
  | 4004 => "Entry not found in variable"
  | 5001 => "Column index out of range for branch"
  | 6000 => "Generic persistence error"
  | 6001 => "Persistence I/O error"
  | 9000 => "Generic error"
  | _ => "Unknown error code"

/-- The exit status of a run that ended with a code: the area of the code for
the areas from flow definitions to output, and one otherwise. -/
def exitStatus (code : Nat) : Nat :=
  let area := code / 1000
  if 2 ≤ area ∧ area ≤ 6 then area else 1

/-- A code as it stands in front of a message. -/
def tag (code : Nat) : String :=
  "[E" ++ String.ofList (Nat.toDigits 10 code) ++ "] "

end Gleaner.Code
