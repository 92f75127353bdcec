import Gleaner.Yaml.Scalar
import Gleaner.Yaml.Token

/-!
# Nodes

A document is a tree of nodes: scalars, lists, mappings and aliases, which
stand for a node with an anchor. A node that is left out is an empty plain
scalar. An anchor takes the number of names known before it, so a name that is
used again shares its number with the next new name; an alias stands for the
last node that took the number of its name.

* `Node.ofTokens?`: the only document of a source;
* `Node.toYaml?`: the value of a document, in which at most 128 lists and
  mappings are nested and aliases are followed a limited number of times.
-/

namespace Gleaner.Yaml

inductive Node where
  | scalar (tag : Option String) (plain : Bool) (s : String)
  | list (tag : Option String) (items : List Node)
  | mapping (tag : Option String) (entries : List (Node × Node))
  | reference (number : Nat)
  deriving Repr

namespace Node

instance : Inhabited Node := ⟨.reference 0⟩

/-- The node that is left out. -/
def blank : Node :=
  .scalar none true ""

mutual

/-- The number of marks in a document: one for a scalar or an alias, and two
around the content of a list or mapping. -/
def size : Node → Nat
  | scalar .. | reference _ => 1
  | list _ items => 2 + sizeItems items
  | mapping _ entries => 2 + sizeEntries entries

/-- The number of marks in some nodes. -/
def sizeItems : List Node → Nat
  | [] => 0
  | v :: rest => size v + sizeItems rest

/-- The number of marks in some entries. -/
def sizeEntries : List (Node × Node) → Nat
  | [] => 0
  | (k, v) :: rest => size k + size v + sizeEntries rest

end

end Node

/-! ## Reading a document -/

/-- The state of a reader of tokens. -/
structure Composer where
  tokens : List Token
  /-- The handles of tags and what they stand for. -/
  handles : List (String × String)
  /-- The names of anchors and their numbers. -/
  names : List (String × Nat)
  /-- The numbers of the anchors so far, the last one first. -/
  taken : List Nat
  /-- The nodes with an anchor that are complete: the place of the anchor among
  all anchors, and the node. -/
  nodes : List (Nat × Node)

/-- A reader of tokens, which gives `none` for what is no document. -/
abbrev Compose (α : Type) : Type :=
  StateT Composer Option α

/-- The properties in front of a node. -/
structure Properties where
  /-- The place of the anchor among all anchors. -/
  anchor : Option Nat
  tag : Option String
  deriving DecidableEq, Repr

namespace Compose

/-- The next token. -/
def peek : Compose Token :=
  return (← get).tokens.head?.getD .sourceEnd

/-- Passes over the next token. -/
def skip : Compose Unit :=
  modify fun c => { c with tokens := c.tokens.tail }

/-- Gives a name its number and counts the anchor. -/
def anchorAt (name : String) : Compose Nat := do
  let c ← get
  let number := c.names.length
  let names := (name, number) :: c.names.filter (·.1 != name)
  set { c with names, taken := number :: c.taken }
  return c.taken.length

/-- The number of a name. -/
def numberOf (name : String) : Compose Nat := do
  match (← get).names.find? (·.1 == name) with
  | some (_, number) => return number
  | none => failure

/-- A tag in full. -/
def tagOf (handle suffix : String) : Compose String := do
  if handle.isEmpty then return suffix
  else
    match (← get).handles.find? (·.1 == handle) with
    | some (_, expansion) => return expansion ++ suffix
    | none => failure

/-- The anchor in front of a node. -/
def anchor? : Compose (Option Nat) := do
  match ← peek with
  | .anchor name =>
    skip
    return some (← anchorAt name)
  | _ => return none

/-- The tag in front of a node. -/
def tag? : Compose (Option String) := do
  match ← peek with
  | .tag handle suffix =>
    skip
    return some (← tagOf handle suffix)
  | _ => return none

/-- The properties in front of a node, in any order. -/
def properties : Compose Properties := do
  match ← anchor? with
  | some place => return ⟨some place, ← tag?⟩
  | none =>
    match ← tag? with
    | some tag => return ⟨← anchor?, some tag⟩
    | none => return ⟨none, none⟩

/-- Keeps a node for the aliases of its anchor. -/
def keep (p : Properties) (v : Node) : Compose Node := do
  if let some place := p.anchor then modify fun c => { c with nodes := (place, v) :: c.nodes }
  return v

/-- The node of a scalar. The lone exclamation mark counts as no tag and makes
the scalar plain if it is. -/
def scalarOf (p : Properties) (plain : Bool) (s : String) : Node :=
  .scalar (p.tag.filter (· != "!")) plain s

/-- Whether a token ends an item of a list that is written with dashes. -/
def endsItem : Token → Bool
  | .item | .blockEnd => true
  | _ => false

/-- Whether a token ends a key or value of a mapping in block form, or an item
of a list at the indentation of the mapping around it. -/
def endsEntry : Token → Bool
  | .key | .value | .blockEnd => true
  | _ => false

mutual

/-- A node. A block may start only where `block` says so, and a list at the
indentation of the mapping around it only where `level` says so. -/
def node (block level : Bool) : Nat → Compose Node
  | 0 => failure
  | n + 1 => do
    match ← peek with
    | .reference name =>
      skip
      return .reference (← numberOf name)
    | _ =>
      let p ← properties
      match block, level, ← peek with
      | _, true, .item => keep p (.list p.tag (← levelItems n))
      | _, _, .scalar plain s =>
        skip
        keep p (scalarOf p plain s)
      | _, _, .listOpen =>
        skip
        keep p (.list p.tag (← items true n))
      | _, _, .mappingOpen =>
        skip
        keep p (.mapping p.tag (← entries true n))
      | true, _, .blockListStart =>
        skip
        keep p (.list p.tag (← blockItems n))
      | true, _, .blockMappingStart =>
        skip
        keep p (.mapping p.tag (← blockEntries n))
      | _, _, _ => if p = ⟨none, none⟩ then failure else keep p (.scalar p.tag true "")

/-- The items of a list in block form. -/
def blockItems : Nat → Compose (List Node)
  | 0 => failure
  | n + 1 => do
    match ← peek with
    | .item =>
      skip
      let v ← if endsItem (← peek) then pure .blank else node true false n
      return v :: (← blockItems n)
    | .blockEnd =>
      skip
      return []
    | _ => failure

/-- The items of a list at the indentation of the mapping around it. -/
def levelItems : Nat → Compose (List Node)
  | 0 => failure
  | n + 1 => do
    match ← peek with
    | .item =>
      skip
      let t ← peek
      let v ← if endsItem t || endsEntry t then pure .blank else node true false n
      return v :: (← levelItems n)
    | _ => return []

/-- The entries of a mapping in block form. -/
def blockEntries : Nat → Compose (List (Node × Node))
  | 0 => failure
  | n + 1 => do
    match ← peek with
    | .key =>
      skip
      let k ← if endsEntry (← peek) then pure .blank else node true true n
      let v ← blockValue n
      return (k, v) :: (← blockEntries n)
    | .blockEnd =>
      skip
      return []
    | _ => failure

/-- The value of an entry in block form. -/
def blockValue : Nat → Compose Node
  | 0 => failure
  | n + 1 => do
    match ← peek with
    | .value =>
      skip
      if endsEntry (← peek) then return .blank else node true true n
    | _ => return .blank

/-- The items of a list between brackets, which a comma separates. -/
def items (isFirst : Bool) : Nat → Compose (List Node)
  | 0 => failure
  | n + 1 => do
    match isFirst, ← peek with
    | _, .listClose => skip; return []
    | false, .comma => skip; itemsAfterComma n
    | false, _ => failure
    | true, _ => itemsAfterComma n

/-- The items of a list between brackets after a comma: a node, a single entry,
or the end. -/
def itemsAfterComma : Nat → Compose (List Node)
  | 0 => failure
  | n + 1 => do
    match ← peek with
    | .listClose =>
      skip
      return []
    | .key =>
      skip
      let entry ← pair n
      return .mapping none [entry] :: (← items false n)
    | _ =>
      let v ← node false false n
      return v :: (← items false n)

/-- A single entry in a list between brackets. A sign in the place of its key
is passed over. -/
def pair : Nat → Compose (Node × Node)
  | 0 => failure
  | n + 1 => do
    let k ← match ← peek with
      | .value | .comma | .listClose => do skip; pure .blank
      | _ => node false false n
    match ← peek with
    | .value =>
      skip
      match ← peek with
      | .comma | .listClose => return (k, .blank)
      | _ => return (k, ← node false false n)
    | _ => return (k, .blank)

/-- The entries of a mapping between brackets, which a comma separates. -/
def entries (isFirst : Bool) : Nat → Compose (List (Node × Node))
  | 0 => failure
  | n + 1 => do
    match isFirst, ← peek with
    | _, .mappingClose => skip; return []
    | false, .comma => skip; entriesAfterComma n
    | false, _ => failure
    | true, _ => entriesAfterComma n

/-- The entries of a mapping between brackets after a comma: a key with a
value, a node without one, or the end. -/
def entriesAfterComma : Nat → Compose (List (Node × Node))
  | 0 => failure
  | n + 1 => do
    match ← peek with
    | .mappingClose =>
      skip
      return []
    | .key =>
      skip
      let k ← match ← peek with
        | .value | .comma | .mappingClose => pure .blank
        | _ => node false false n
      let v ← flowValue n
      return (k, v) :: (← entries false n)
    | _ =>
      let k ← node false false n
      return (k, .blank) :: (← entries false n)

/-- The value of an entry between brackets. -/
def flowValue : Nat → Compose Node
  | 0 => failure
  | n + 1 => do
    match ← peek with
    | .value =>
      skip
      match ← peek with
      | .comma | .mappingClose => return .blank
      | _ => node false false n
    | _ => return .blank

end

/-- The handles that are known without a directive. -/
def knownHandles : List (String × String) :=
  [("!", "!"), ("!!", Scalar.standard)]

/-- The directives at the start of a document: whether there are any. A version
and a handle are given at most once, and the version is 1.1 or 1.2. -/
def directives (version : Bool) : Nat → Compose Bool
  | 0 => failure
  | n + 1 => do
    match ← peek with
    | .versionDirective major minor =>
      skip
      if version || major != 1 || (minor != 1 && minor != 2) then failure
      let _ ← directives true n
      return true
    | .tagDirective handle expansion =>
      skip
      let c ← get
      if c.handles.any (·.1 == handle) then failure
      set { c with handles := (handle, expansion) :: c.handles }
      let _ ← directives version n
      return true
    | _ => return false

/-- Whether a token leaves the content of a document empty. -/
def endsContent : Token → Bool
  | .versionDirective .. | .tagDirective .. | .documentStart | .documentEnd | .sourceEnd => true
  | _ => false

/-- The content of the first document, with or without a marker in front. -/
def content (n : Nat) : Compose Node := do
  let directed ← directives false n
  modify fun c => { c with handles := c.handles ++ knownHandles }
  match ← peek with
  | .documentStart =>
    skip
    if endsContent (← peek) then return .blank else node true false n
  | .sourceEnd => failure
  | _ => if directed then failure else node true false n

/-- Passes over the markers at the end of the document, which must be the last
one. -/
def finish : Nat → Compose Unit
  | 0 => failure
  | n + 1 => do
    match ← peek with
    | .documentEnd =>
      skip
      finish n
    | .sourceEnd => return
    | _ => failure

end Compose

namespace Node

/-- The only document of some tokens, and the nodes that aliases stand for by
their numbers. Every call reads a token or goes one call deeper for the same
token, so twice as many calls as tokens are enough. -/
def ofTokens? (tokens : List Token) : Option (Node × (Nat → Option Node)) :=
  let n := 4 * tokens.length + 4
  let read : Compose Node := do
    let v ← Compose.content n
    Compose.finish n
    return v
  (read.run ⟨tokens, [], [], [], []⟩).map fun (v, c) =>
    let lookup (number : Nat) : Option Node :=
      (c.taken.idxOf? number).bind fun i =>
        (c.nodes.find? (·.1 == c.taken.length - 1 - i)).map (·.2)
    (v, lookup)

/-! ## The value of a document -/

/-- A computation that may follow a limited number of aliases. -/
abbrev Budget (α : Type) : Type :=
  StateT Nat Option α

/-- The node itself, or the one that it stands for. -/
def follow (lookup : Nat → Option Node) (v : Node) : Budget Node := do
  match v with
  | reference number =>
    match ← get, lookup number with
    | left + 1, some v =>
      set left
      return v
    | _, _ => failure
  | v => return v

/-- The value of a scalar. -/
def scalarValue? (tag : Option String) (plain : Bool) (s : String) : Option Yaml :=
  match tag with
  | some tag => Scalar.tagged? tag s
  | none => if plain then Scalar.plain? s else some (.text s)

/-- Whether a list or mapping with a tag has a value. -/
def isUntagged (tag : Option String) : Bool :=
  tag.all (·.toList.head? != some '!')

/-- The value of a node in which at most `depth` lists and mappings are
nested. -/
def value (lookup : Nat → Option Node) : Nat → Node → Budget Yaml
  | 0, v => do
    match ← follow lookup v with
    | scalar tag plain s => StateT.lift (scalarValue? tag plain s)
    | _ => failure
  | depth + 1, v => do
    match ← follow lookup v with
    | scalar tag plain s => StateT.lift (scalarValue? tag plain s)
    | list tag items =>
      if isUntagged tag then return .list (← items.mapM (value lookup depth)) else failure
    | mapping tag entries =>
      if isUntagged tag then
        return .mapping (← entries.mapM fun (k, v) => do
          return (← value lookup depth k, ← value lookup depth v))
      else failure
    | reference _ => failure

/-- The value of a document. -/
def toYaml? (v : Node) (lookup : Nat → Option Node) : Option Yaml :=
  ((value lookup 128 v).run (100 * v.size)).map (·.1)

end Node

end Gleaner.Yaml
