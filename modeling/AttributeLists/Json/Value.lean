/-
# Plain data

The values that a JSON document can hold. Integers are kept exactly and of any
size; a number with a fraction or an exponent is kept in double precision. An
object has one field of a name: a name that is set again keeps its place and
takes the new value.

`Value.shown` is the form that messages use for a value.
-/

import AttributeLists.Number.Shortest
import AttributeLists.Text.Quoted

namespace AttributeLists.Json

/-- A JSON value. -/
inductive Value
  | null
  | bool (b : Bool)
  | integer (n : Int)
  /-- A number that is not written as an integer. -/
  | double (x : Number.Double)
  | text (t : Text)
  | list (items : List Value)
  | object (fields : List (Text × Value))

namespace Value

/-- The value of the field of a name. -/
def field? (name : Text) (fields : List (Text × Value)) : Option Value :=
  fields.lookup name

/-- Fields with a name set to a value. A new name goes to the end. -/
def setField (name : Text) (value : Value) : List (Text × Value) → List (Text × Value)
  | [] => [(name, value)]
  | (other, kept) :: rest =>
      if other = name then (name, value) :: rest
      else (other, kept) :: setField name value rest

/-- The fields that are left when fields are set one after another. -/
def setFields (fields : List (Text × Value)) : List (Text × Value) :=
  fields.foldl (fun done (name, value) => setField name value done) []

mutual

/-- A value as a message shows it. -/
def shown : Value → String
  | null => "None"
  | bool true => "True"
  | bool false => "False"
  | integer n => toString n
  | double x => x.shown
  | text t => t.quoted
  | list items => "[" ++ ", ".intercalate (shownItems items) ++ "]"
  | object fields => "\x7b" ++ ", ".intercalate (shownFields fields) ++ "\x7d"

/-- The items of a list as a message shows them. -/
def shownItems : List Value → List String
  | [] => []
  | item :: rest => item.shown :: shownItems rest

/-- The fields of an object as a message shows them. -/
def shownFields : List (Text × Value) → List String
  | [] => []
  | (name, value) :: rest => (name.quoted ++ ": " ++ value.shown) :: shownFields rest

end

end Value

end AttributeLists.Json
