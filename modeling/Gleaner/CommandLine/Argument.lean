import Gleaner.Text.Numeral

/-!
# Arguments

An argument is a word, a flag under its long name, or some flags under their
letters, which may stand together behind one dash. A flag may take a value: the
rest of its argument, after an equals sign or not, or the next argument if that
is a word. After two dashes alone, all arguments are words.

* `Argument.ofText`: the kind of an argument;
* `Given`: the flags and words that were given;
* `Reader.read`: what some arguments give.
-/

namespace Gleaner.CommandLine

/-- What a flag takes. -/
inductive Takes where
  /-- Nothing, and it may be given several times. -/
  | count
  | nothing
  | text
  /-- A text that is not empty. -/
  | path
  | number
  deriving DecidableEq, Repr

/-- Whether a flag needs a value. -/
def Takes.needsValue : Takes → Bool
  | count | nothing => false
  | text | path | number => true

/-- Whether a text is a value that a flag takes. -/
def Takes.accepts (t : Takes) (value : String) : Bool :=
  match t with
  | count | nothing => false
  | text => true
  | path => !value.isEmpty
  | number => (Text.unsigned? value).isSome

structure Flag where
  name : String
  letter : Option Char
  takes : Takes
  deriving DecidableEq, Repr

/-- Why no command is run. -/
inductive Stop where
  | help
  | version
  | misuse (message : String)
  deriving DecidableEq, Repr

/-- A flag that was given without the value that it needs. -/
def Flag.withoutValue (f : Flag) : Stop :=
  .misuse ("--" ++ f.name ++ " needs a value")

/-- What was given: flags with their values, and words. -/
structure Given where
  flags : List (String × Option String)
  words : List String
  deriving DecidableEq, Repr

namespace Given

def empty : Given :=
  ⟨[], []⟩

/-- How many times a flag was given. -/
def count (g : Given) (name : String) : Nat :=
  g.flags.countP (·.1 == name)

/-- Whether a flag was given. -/
def has (g : Given) (name : String) : Bool :=
  g.flags.any (·.1 == name)

/-- The value of a flag. -/
def value? (g : Given) (name : String) : Option String :=
  (g.flags.find? (·.1 == name)).bind (·.2)

/-- The value of a flag that must be given. -/
def require (g : Given) (name : String) : Except Stop String :=
  match g.value? name with
  | some v => .ok v
  | none => .error (.misuse ("missing --" ++ name))

/-- With more words. -/
def addWords (g : Given) (words : List String) : Given :=
  { g with words := g.words ++ words }

/-- With one more word. -/
def addWord (g : Given) (word : String) : Given :=
  g.addWords [word]

/-- With one more flag. Only a flag that is counted may be given twice. -/
def addFlag (g : Given) (f : Flag) (value : Option String) : Except Stop Given :=
  if f.takes ≠ .count ∧ g.has f.name then
    .error (.misuse ("--" ++ f.name ++ " is given more than once"))
  else
    match value with
    | some v =>
      if f.takes.accepts v then .ok { g with flags := g.flags ++ [(f.name, some v)] }
      else .error (.misuse ("bad value of --" ++ f.name))
    | none =>
      if f.takes.needsValue then .error f.withoutValue
      else .ok { g with flags := g.flags ++ [(f.name, none)] }

end Given

inductive Argument where
  | word (s : String)
  | long (name : String) (value : Option String)
  | letters (cs : List Char)
  | endOfFlags
  deriving DecidableEq, Repr

/-- The kind of an argument. A dash alone is a word. -/
def Argument.ofText (s : String) : Argument :=
  match s.toList with
  | ['-', '-'] => endOfFlags
  | '-' :: '-' :: cs =>
    let (name, rest) := cs.span (· != '=')
    long (String.ofList name) (rest.tail?.map String.ofList)
  | '-' :: c :: cs => letters (c :: cs)
  | _ => word s

/-- How arguments are read: the flags that are known, and whether this is the
part before the name of a command, where reading stops at the first word and
the version can be asked for. -/
structure Reader where
  flags : List Flag
  stopsAtWord : Bool

namespace Reader

/-- The flag that asks for help or the version, by its long name. -/
def stop? (r : Reader) (name : String) : Option Stop :=
  if name = "help" then some .help
  else if name = "version" ∧ r.stopsAtWord then some .version
  else none

/-- The long name of a letter that asks for help or the version. -/
def stopName : Char → String
  | 'h' => "help"
  | 'V' => "version"
  | _ => ""

/-- Reads a flag under its long name. A flag that still needs a value is given
back. -/
def readLong (r : Reader) (name : String) (value : Option String) (g : Given) :
    Except Stop (Given × Option Flag) :=
  match r.flags.find? (·.name == name) with
  | some f =>
    if f.takes.needsValue && value.isNone then .ok (g, some f)
    else (g.addFlag f value).map (·, none)
  | none =>
    match r.stop? name, value with
    | some s, none => .error s
    | _, _ => .error (.misuse ("unknown flag --" ++ name))

/-- The value that follows the letter of a flag in its argument. -/
def attached? : List Char → Option String
  | [] => none
  | '=' :: cs => some (String.ofList cs)
  | cs => some (String.ofList cs)

/-- Reads flags under their letters. -/
def readLetters (r : Reader) (g : Given) : List Char → Except Stop (Given × Option Flag)
  | [] => .ok (g, none)
  | c :: cs =>
    match r.flags.find? (·.letter == some c) with
    | some f =>
      if f.takes.needsValue then r.readLong f.name (attached? cs) g
      else do
        let g ← g.addFlag f none
        r.readLetters g cs
    | none => .error ((r.stop? (stopName c)).getD (.misuse ("unknown flag -" ++ String.ofList [c])))

/-- Reads arguments, the first of which is the value of a pending flag, and
gives the ones that are left. Before the name of a command reading stops in
front of the first word. -/
def readFrom (r : Reader) (pending : Option Flag) (g : Given) :
    List String → Except Stop (Given × List String)
  | [] =>
    match pending with
    | some f => .error f.withoutValue
    | none => .ok (g, [])
  | a :: rest =>
    match pending, Argument.ofText a with
    | some f, .word s => do
      let g ← g.addFlag f (some s)
      r.readFrom none g rest
    | some f, _ => .error f.withoutValue
    | none, .word s =>
      if r.stopsAtWord then .ok (g, a :: rest) else r.readFrom none (g.addWord s) rest
    | none, .endOfFlags => if r.stopsAtWord then .ok (g, []) else .ok (g.addWords rest, [])
    | none, .long name value => do
      let (g, pending) ← r.readLong name value g
      r.readFrom pending g rest
    | none, .letters cs => do
      let (g, pending) ← r.readLetters g cs
      r.readFrom pending g rest

/-- What some arguments give, and the arguments that are left. -/
def read (r : Reader) (args : List String) : Except Stop (Given × List String) :=
  r.readFrom none .empty args

end Reader

end Gleaner.CommandLine
