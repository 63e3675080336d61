import Template.Number.Basic

/-!
# `Template.Json.Basic` — document values

A document is a tree of values. Objects keep their members in the order in which they were written; a
document that is read or processed never holds a name twice (`Json.put` keeps the first place and the last
value). The value that a placeholder stands for is such a tree as well, so its shape is not stored with it
but read off it: `Json.kind`.

* `Json`, `Kind` — values and their shapes;
* `Json.tagged` — a value that claims a shape, which must be its own;
* `Json.member?`, `Json.put` — members of an object by name.
-/

namespace Template

/-- A document value. -/
inductive Json where
  | null
  | bool (value : Bool)
  | number (value : Number)
  | string (value : String)
  | array (items : List Json)
  | object (members : List (String × Json))
deriving Inhabited

/-- The shape of a value. -/
inductive Kind where
  | string
  | number
  | boolean
  | object
  | array
  | null
deriving DecidableEq, Repr

/-- Every shape. -/
def Kind.all : List Kind := [.string, .number, .boolean, .object, .array, .null]

/-- The word for a shape. -/
def Kind.name : Kind → String
  | .string => "string"
  | .number => "number"
  | .boolean => "boolean"
  | .object => "object"
  | .array => "array"
  | .null => "null"

/-- The shape of a given word. -/
def Kind.ofName? (name : String) : Option Kind :=
  all.find? fun kind => kind.name == name

namespace Json

/-- The shape of a value. -/
def kind : Json → Kind
  | .null => .null
  | .bool _ => .boolean
  | .number _ => .number
  | .string _ => .string
  | .array _ => .array
  | .object _ => .object

/-- An integer value. -/
def int (n : Int) : Json := .number (.integer n)

/-- The value of a member. -/
def member? {α : Type} (name : String) (members : List (String × α)) : Option α :=
  (members.find? fun member => member.1 == name).map (·.2)

/-- Sets a member: a known name keeps its place and gets the new value, a new one comes last. -/
def put {α : Type} (name : String) (value : α) : List (String × α) → List (String × α)
  | [] => [(name, value)]
  | (other, old) :: rest =>
    if other = name then (name, value) :: rest else (other, old) :: put name value rest

/-- Sets all members of the second list in the first. -/
def merge {α : Type} (members added : List (String × α)) : List (String × α) :=
  added.foldl (fun all member => put member.1 member.2 all) members

end Json

end Template
