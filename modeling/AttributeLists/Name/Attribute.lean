/-
# Attribute names

The names that may be given as the attribute to take out: qualified names written
without blanks. Everything else is refused, and the refusal keeps the offending
value so that its message can show it.
-/

import AttributeLists.Json.Value
import AttributeLists.Name.Qualified

namespace AttributeLists

/-- Whether a text is a qualified name from end to end, without blanks. -/
def isAttributeName (t : Text) : Bool :=
  Qualified.readName t == some (t, []) && !t.any Glyph.isBlank

/-- A name that an attribute can have. -/
structure AttributeName where
  /-- The name as it was given. -/
  text : Text
  /-- The name is well formed. -/
  valid : isAttributeName text = true
  deriving DecidableEq

/-- A value was given where an attribute name belongs, and it is none. -/
structure InvalidName where
  /-- What was given. -/
  value : Json.Value

/-- The message that a refused name is answered with. -/
def InvalidName.message (e : InvalidName) : String :=
  "Not an attribute name: " ++ e.value.shown

namespace AttributeName

/-- The attribute name that a text spells. -/
def ofText (t : Text) : Except InvalidName AttributeName :=
  if valid : isAttributeName t = true then .ok ⟨t, valid⟩ else .error ⟨.text t⟩

/-- The attribute name that a value holds. Only a text can hold one. -/
def ofValue : Json.Value → Except InvalidName AttributeName
  | .text t => ofText t
  | value => .error ⟨value⟩

end AttributeName

/-- The attribute that is taken out unless another is named. -/
def defaultAttribute : String :=
  "FormerlySerializedAs"

end AttributeLists
