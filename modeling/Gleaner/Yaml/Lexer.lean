import Gleaner.Yaml.Block
import Gleaner.Yaml.Plain
import Gleaner.Yaml.Property
import Gleaner.Yaml.Quoted

/-!
# Splitting a source into tokens

Outside of brackets the indentation makes the blocks: an item or key further
in than the block around it starts a block, and a line further out ends the
blocks that are deeper. Whether a scalar or bracket is a key only shows at the
colon after it, so its place is kept as a possible key; the token for the key
and, if need be, for the start of the block are put in there later. A possible
key lies on one line and is at most 1024 characters away from its colon. One
that starts at the indentation of its block has to turn out as a key.

* `Lexer`: the tokens so far and what is needed to go on;
* `Lexer.next?`: the state after one more token of the source;
* `Token.ofSource?`: the tokens of a source.
-/

namespace Gleaner.Yaml

/-- The place of a possible key. -/
structure PossibleKey where
  /-- Whether it has to be a key. -/
  required : Bool
  /-- The number of tokens before it. -/
  place : Nat
  line : Nat
  column : Nat
  index : Nat
  deriving Repr

structure Lexer where
  rest : List Spot
  /-- The tokens so far, the last one first. -/
  tokens : List Token
  /-- The number of tokens so far. -/
  count : Nat
  /-- The indentation of the innermost block, -1 outside of all blocks. -/
  indent : Int
  /-- The indentations of the blocks around it, the innermost first. -/
  outer : List Int
  /-- The possible key on this level of brackets. -/
  key : Option PossibleKey
  /-- The possible keys on the levels around it, the innermost first. -/
  outerKeys : List (Option PossibleKey)
  /-- Whether a key may start here. -/
  keyAllowed : Bool

namespace Lexer

/-- The state at the start of a source. -/
def start (ss : List Spot) : Lexer :=
  ⟨ss, [], 0, -1, [], none, [], true⟩

/-- Whether the lexer stands between brackets. -/
def bracketed (l : Lexer) : Bool :=
  !l.outerKeys.isEmpty

def column (l : Lexer) : Nat :=
  (l.rest.head?.map (·.column)).getD 0

/-- Adds a token. -/
def emit (l : Lexer) (t : Token) : Lexer :=
  { l with tokens := t :: l.tokens, count := l.count + 1 }

/-- Puts a token in where `place` tokens are before it. -/
def emitAt (l : Lexer) (place : Nat) (t : Token) : Lexer :=
  let after := l.count - place
  { l with tokens := l.tokens.take after ++ t :: l.tokens.drop after, count := l.count + 1 }

/-- Passes over some characters. -/
def skip (l : Lexer) (n : Nat) : Lexer :=
  { l with rest := l.rest.drop n }

/-! ## Gaps between tokens -/

/-- The spots after spaces, breaks and comments, and whether a key may start
there. Tabs are passed over only where no key may start. -/
def skipGap (bracketed : Bool) : List Spot → Bool → Bool → List Spot × Bool
  | [], keyAllowed, _ => ([], keyAllowed)
  | s :: rest, keyAllowed, inComment =>
    let c := s.char
    if isBreak c then skipGap bracketed rest (keyAllowed || !bracketed) false
    else if inComment && c != endMark then skipGap bracketed rest keyAllowed true
    else if c = byteOrderMark && s.column = 0 then skipGap bracketed rest keyAllowed false
    else if c = ' ' || (c = '\t' && (bracketed || !keyAllowed)) then
      skipGap bracketed rest keyAllowed false
    else if c = '#' then skipGap bracketed rest keyAllowed true
    else (s :: rest, keyAllowed)

/-- Goes to the next character that is part of a token. -/
def toToken (l : Lexer) : Lexer :=
  let (rest, keyAllowed) := skipGap l.bracketed l.rest l.keyAllowed false
  { l with rest, keyAllowed }

/-! ## Possible keys -/

/-- Whether a possible key is too far from a place. -/
def isStale (k : PossibleKey) (s : Spot) : Bool :=
  k.line < s.line || k.index + 1024 < s.index

/-- A possible key unless it is too far from a place; it must not be if it has
to be a key. -/
def freshKey? (s : Spot) : Option PossibleKey → Option (Option PossibleKey)
  | some k => if isStale k s then if k.required then none else some none else some (some k)
  | none => some none

/-- Drops the possible keys that are too far away. -/
def dropStaleKeys? (l : Lexer) : Option Lexer :=
  match l.rest with
  | [] => some l
  | s :: _ =>
    (freshKey? s l.key).bind fun key =>
      (l.outerKeys.mapM (freshKey? s)).map fun outerKeys => { l with key, outerKeys }

/-- Drops the possible key, which must not be one that has to be a key. -/
def dropKey? (l : Lexer) : Option Lexer :=
  if l.key.any (·.required) then none else some { l with key := none }

/-- Keeps the place as a possible key, where a key may start. -/
def keepKey? (l : Lexer) : Option Lexer :=
  match l.keyAllowed, l.rest with
  | true, s :: _ =>
    l.dropKey?.map fun l =>
      { l with
        key := some ⟨!l.bracketed && l.indent == s.column, l.count, s.line, s.column, s.index⟩ }
  | _, _ => some l

/-! ## Blocks -/

/-- Ends the blocks that are deeper than a column. -/
def endBlocks (column : Int) : List Int → Lexer → Lexer
  | [], l => l
  | i :: outer, l =>
    if column < l.indent then
      endBlocks column outer { l.emit .blockEnd with indent := i, outer }
    else l

/-- Ends the blocks that are deeper than a column, outside of brackets. -/
def outdent (l : Lexer) (column : Int) : Lexer :=
  if l.bracketed then l else endBlocks column l.outer l

/-- Starts a block at a column that is deeper than the innermost block, outside
of brackets. -/
def indentTo (l : Lexer) (column place : Nat) (t : Token) : Lexer :=
  if !l.bracketed && l.indent < column then
    { l.emitAt place t with indent := column, outer := l.indent :: l.outer }
  else l

/-- Ends all blocks and goes back to the start of a line. -/
def closeAll? (l : Lexer) : Option Lexer :=
  ((l.outdent (-1)).dropKey?).map fun l => { l with keyAllowed := false }

/-! ## One token -/

/-- A marker of the start or end of a document. -/
def marker? (l : Lexer) (t : Token) : Option Lexer :=
  l.closeAll?.map fun l => (l.emit t).skip 3

/-- A directive. -/
def directive? (l : Lexer) : Option Lexer :=
  l.closeAll?.bind fun l =>
    (Property.directive? l.rest.tail).map fun (t, rest) => { l.emit t with rest }

/-- An opening bracket. -/
def open? (l : Lexer) (t : Token) : Option Lexer :=
  l.keepKey?.map fun l =>
    ({ l with key := none, outerKeys := l.key :: l.outerKeys, keyAllowed := true }.emit t).skip 1

/-- A closing bracket. -/
def close? (l : Lexer) (t : Token) : Option Lexer :=
  l.dropKey?.map fun l =>
    let l := match l.outerKeys with
      | key :: outerKeys => { l with key, outerKeys }
      | [] => l
    ({ l with keyAllowed := false }.emit t).skip 1

/-- A comma. -/
def comma? (l : Lexer) : Option Lexer :=
  l.dropKey?.map fun l => ({ l with keyAllowed := true }.emit .comma).skip 1

/-- A dash before an item, or a question mark before a key. Outside of
brackets it starts a block if need be and stands where a key may start. -/
def blockSign? (l : Lexer) (start sign : Token) (keyAllowed : Bool) : Option Lexer :=
  if !l.bracketed && !l.keyAllowed then none
  else
    (l.indentTo l.column l.count start).dropKey?.map fun l =>
      ({ l with keyAllowed }.emit sign).skip 1

/-- A colon: the possible key is one, or the key is written with a question
mark or left out. -/
def value? (l : Lexer) : Option Lexer :=
  match l.key with
  | some k =>
    let l := (l.emitAt k.place .key).indentTo k.column k.place .blockMappingStart
    some (({ l with key := none, keyAllowed := false }.emit .value).skip 1)
  | none =>
    if !l.bracketed && !l.keyAllowed then none
    else
      let l := l.indentTo l.column l.count .blockMappingStart
      some (({ l with keyAllowed := !l.bracketed }.emit .value).skip 1)

/-- An anchor or alias. -/
def name? (l : Lexer) (token : String → Token) : Option Lexer :=
  l.keepKey?.bind fun l =>
    (Property.name? l.rest.tail).map fun (name, rest) =>
      { l.emit (token name) with rest, keyAllowed := false }

/-- A tag. -/
def tag? (l : Lexer) : Option Lexer :=
  l.keepKey?.bind fun l =>
    (Property.tag? l.bracketed l.rest).map fun (t, rest) =>
      { l.emit t with rest, keyAllowed := false }

/-- A block scalar. -/
def block? (l : Lexer) (literal : Bool) : Option Lexer :=
  l.dropKey?.bind fun l =>
    (Block.read? literal l.indent l.rest.tail).map fun (s, rest) =>
      { l.emit (.scalar false s) with rest, keyAllowed := true }

/-- A quoted scalar. -/
def quoted? (l : Lexer) (single : Bool) : Option Lexer :=
  l.keepKey?.bind fun l =>
    (Quoted.read? single l.rest.tail).map fun (s, rest) =>
      { l.emit (.scalar false s) with rest, keyAllowed := false }

/-- A plain scalar. A key may start after one that a line break follows. -/
def plain? (l : Lexer) : Option Lexer :=
  l.keepKey?.bind fun l =>
    (Plain.read? l.bracketed (l.indent + 1).toNat l.rest).map fun r =>
      { l.emit (.scalar true r.text) with rest := r.rest, keyAllowed := r.broken }

/-- Whether a plain scalar can start with a character. -/
def startsPlain (bracketed : Bool) (c after : Char) : Bool :=
  !(isGap c || "-?:,[]\x7b\x7d#&*!|>'\"%@\x60".toList.contains c) ||
    (c == '-' && !isSpace after) ||
    (!bracketed && (c == '?' || c == ':') && !isGap after)

/-- The state after the token at the start of the rest. -/
def token? (l : Lexer) : Option Lexer :=
  let c := Spot.char0 l.rest
  let after := Spot.char1 l.rest
  if l.column = 0 && c = '%' then l.directive?
  else if Spot.isMarkerOf '-' l.rest then l.marker? .documentStart
  else if Spot.isMarkerOf '.' l.rest then l.marker? .documentEnd
  else
    match c with
    | '[' => l.open? .listOpen
    | '\x7b' => l.open? .mappingOpen
    | ']' => l.close? .listClose
    | '\x7d' => l.close? .mappingClose
    | ',' => l.comma?
    | '*' => l.name? .reference
    | '&' => l.name? .anchor
    | '!' => l.tag?
    | '\'' => l.quoted? true
    | '"' => l.quoted? false
    | c =>
      if c = '-' && isGap after then l.blockSign? .blockListStart .item true
      else if c = '?' && (l.bracketed || isGap after) then
        l.blockSign? .blockMappingStart .key (!l.bracketed)
      else if c = ':' && (l.bracketed || isGap after) then l.value?
      else if c = '|' && !l.bracketed then l.block? true
      else if c = '>' && !l.bracketed then l.block? false
      else if startsPlain l.bracketed c after then l.plain?
      else none

/-- What one step of a lexer comes to. -/
inductive Step where
  | done (l : Lexer)
  | token (l : Lexer)

/-- One step: to the next token and past it, or to the end. -/
def next? (l : Lexer) : Option Step :=
  l.toToken.dropStaleKeys?.bind fun l =>
    let l := l.outdent l.column
    if Spot.char0 l.rest = endMark then
      l.closeAll?.map fun l => .done (l.emit .sourceEnd)
    else l.token?.map .token

/-- The state at the end of the source. Each step takes at least one character,
so there are at most `fuel` steps if the rest has as many characters. -/
def run? : Nat → Lexer → Option Lexer
  | 0, _ => none
  | fuel + 1, l =>
    match l.next? with
    | some (.token l) => run? fuel l
    | some (.done l) => some l
    | none => none

end Lexer

/-- The tokens of a source. -/
def Token.ofSource? (s : String) : Option (List Token) :=
  (Spot.ofSource? s).bind fun ss =>
    ((Lexer.start ss).run? (ss.length + 1)).map fun l => l.tokens.reverse

end Gleaner.Yaml
