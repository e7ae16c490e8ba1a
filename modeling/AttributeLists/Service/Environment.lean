/-
# The environment

An environment gives values to names. A settings file adds to it: each of its lines
that is not a comment and holds an equals sign sets the name before the sign to the
value after it, both trimmed, unless the name has a value already. So the values that
a process starts with win over the file, and earlier lines win over later ones.

A name or value with a null character cannot be set, and neither can the empty name.
A line whose name has a value already is not set and so is never in error.

The lines of a settings file end at every Unicode line boundary. A carriage return
and a line feed count as two boundaries here, since the empty line between them sets
nothing.
-/

import AttributeLists.Text.Blank

namespace AttributeLists.Service

/-- The code points that end a line of a settings file. -/
def lineBoundaries : CharClass :=
  [(0xA, 0xD), (0x1C, 0x1E), (0x85, 0x85), (0x2028, 0x2029)]

/-- Names with values. Of several values for one name the first counts. -/
structure Environment where
  bindings : List (Text × Text)

/-- A name with a value to be set. -/
structure Setting where
  name : Text
  value : Text
  deriving DecidableEq

/-- Why a setting cannot be made. -/
inductive SettingError
  /-- The name or the value holds a null character. -/
  | nullCharacter
  /-- The name is empty. -/
  | emptyName
  deriving DecidableEq

/-- The message that a failed setting is reported with. -/
def SettingError.message : SettingError → String
  | nullCharacter => "embedded null byte"
  | emptyName => "[Errno 22] Invalid argument"

namespace Setting

/-- The setting that a line makes. -/
def ofLine (line : Text) : Option Setting :=
  let shown := line.trim
  if shown.head? = some (.char '#') then none
  else
    match shown.dropWhile (· != .char '=') with
    | _ :: value =>
        some ⟨Text.trim (shown.takeWhile (· != .char '=')), Text.trim value⟩
    | [] => none

/-- The settings that a file makes, in order. -/
def allIn (file : Text) : List Setting :=
  (file.splitOnP (Glyph.satisfies lineBoundaries.contains)).filterMap ofLine

/-- Why a setting cannot be made, if it cannot. A null character is reported before
an empty name. -/
def error? (s : Setting) : Option SettingError :=
  if .char '\x00' ∈ s.name ∨ .char '\x00' ∈ s.value then some .nullCharacter
  else if s.name.isEmpty then some .emptyName
  else none

end Setting

namespace Environment

/-- The value of a name. -/
def value? (env : Environment) (name : Text) : Option Text :=
  env.bindings.lookup name

/-- Make a setting, unless its name has a value. -/
def setDefault (env : Environment) (s : Setting) : Except SettingError Environment :=
  match env.value? s.name, s.error? with
  | some _, _ => .ok env
  | none, some e => .error e
  | none, none => .ok ⟨(s.name, s.value) :: env.bindings⟩

/-- Make the settings of a file. The service's own file is used if it exists, even if
it is empty, and otherwise the one of the folder around it. -/
def load (env : Environment) (own shared : Option Text) : Except SettingError Environment :=
  (Setting.allIn ((own <|> shared).getD [])).foldlM setDefault env

end Environment

end AttributeLists.Service
