import Mathlib.Data.Option.Basic

namespace Ren2Hub.Convert.GeminiSchema

/-- `lit` is a number, a boolean or null. -/
inductive Json where
  | str (s : String)
  | lit (text : String)
  | arr (items : List Json)
  | obj (value : String → Option Json)

abbrev Fields := String → Option Json

def delete (key : String) (value : Fields) : Fields := fun k => if k = key then none else value k

/-- From a schema to one inside it. -/
inductive Step where
  | property (name : String)
  | items
  | allOf (i : Nat)
  | anyOf (i : Nat)
  | oneOf (i : Nat)
deriving DecidableEq

def Json.get : Json → Fields
  | .obj value => value
  | _ => fun _ => none

def Json.item (i : Nat) : Json → Option Json
  | .arr items => items[i]?
  | _ => none

def Json.child (t : Json) : Step → Option Json
  | .property name => (t.get "properties").bind (·.get name)
  | .items => t.get "items"
  | .allOf i => (t.get "allOf").bind (item i)
  | .anyOf i => (t.get "anyOf").bind (item i)
  | .oneOf i => (t.get "oneOf").bind (item i)

def Json.at (t : Json) : List Step → Option Json
  | [] => some t
  | s :: path => (t.child s).bind fun u => u.at path

/-- Every keyword but three is still there, and has its value unless there are schemas in it. -/
def Keeps (t t' : Json) : Prop := ∀ key, key ∉ ["title", "$schema", "additionalProperties"] →
  if key ∈ ["properties", "items", "allOf", "anyOf", "oneOf"] then
    (t'.get key).isSome = (t.get key).isSome
  else t'.get key = t.get key

end Ren2Hub.Convert.GeminiSchema
