import Gleaner.Text.Blank

/-!
# Attribute filters

A filter asks for attributes with given values. A value is met when it is the
whole value of the attribute; for `class` it is met when it is one of the
words of the attribute. An element passes when every pair is met.

* `Filter.accepts`: whether the attributes that a look-up gives pass;
* `Filter.text`: the filter as it stands in messages.
-/

namespace Gleaner

/-- Attribute names with the values asked for. -/
structure Filter where
  pairs : List (String × String)
  deriving DecidableEq, Repr

namespace Filter

/-- The filter that every element passes. -/
def any : Filter := ⟨[]⟩

/-- The filter for an id, or without one for a class, or without either for
nothing. -/
def ofIdOrClass (id cls : Option String) : Filter :=
  match id, cls with
  | some id, _ => ⟨[("id", id)]⟩
  | none, some cls => ⟨[("class", cls)]⟩
  | none, none => any

/-- Whether the value `actual` of the attribute `name` meets `expected`. -/
def meets (name expected actual : String) : Bool :=
  if name = "class" then (Text.words actual).contains expected else actual == expected

/-- Whether the attributes given by a look-up pass the filter. -/
def accepts (f : Filter) (lookup : String → Option String) : Bool :=
  f.pairs.all fun (name, expected) =>
    match lookup name with
    | some actual => meets name expected actual
    | none => false

/-- The filter as it stands in messages. -/
def text (f : Filter) : String :=
  if f.pairs.isEmpty then "(any)"
  else
    "[" ++ ", ".intercalate (f.pairs.map fun (name, value) => name ++ "=\"" ++ value ++ "\"") ++ "]"

@[simp] theorem accepts_any (lookup : String → Option String) : any.accepts lookup = true := rfl

end Filter

end Gleaner
