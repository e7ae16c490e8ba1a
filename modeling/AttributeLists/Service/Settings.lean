/-
# Service settings

What the service does when a request does not say: which attribute it takes out, and
whether it collapses the blank lines that this leaves behind. Both come from the
environment. Any value but a few words for "no", in either case, turns collapsing on.

The attribute is taken as it is given. Whether it is a valid name shows when a request
uses it.
-/

import AttributeLists.Name.Attribute
import AttributeLists.Service.Environment

namespace AttributeLists.Service

/-- What a request leaves open. -/
structure Settings where
  /-- The attribute to take out. -/
  defaultName : Text
  /-- Blank lines that are left behind are collapsed. -/
  collapse : Bool
  deriving DecidableEq

/-- A glyph with ASCII capitals made small. -/
def lowerGlyph : Glyph → Glyph
  | .char c => .char c.toLower
  | g => g

/-- Whether a value turns a setting off. -/
def isOff (value : Text) : Bool :=
  let lower := value.map lowerGlyph
  lower == Text.ofString "0" || lower == Text.ofString "false" || lower == Text.ofString "no"

/-- The settings that an environment makes. -/
def Settings.ofEnvironment (env : Environment) : Settings where
  defaultName :=
    (env.value? (Text.ofString "ATTRSTRIP_ATTRIBUTE")).getD (Text.ofString defaultAttribute)
  collapse :=
    match env.value? (Text.ofString "ATTRSTRIP_COLLAPSE_BLANK_LINES") with
    | some value => !isOff value
    | none => true

end AttributeLists.Service
