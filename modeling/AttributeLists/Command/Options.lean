/-
# Command line options

The command line holds options, which start with two dashes, and paths. Everything
is read from left to right, and the first argument that cannot be read decides the
error. The value of `--attribute` is the next argument, whatever it looks like, or
follows an equals sign in the same argument.

What is asked for is kept apart from the defaults: they are filled in when the whole
command line has been read.
-/

import AttributeLists.Files.Path
import AttributeLists.Name.Attribute

namespace AttributeLists.Command

/-- What one argument says by itself. -/
inductive Argument
  /-- Change no file. -/
  | dryRun
  /-- Leave blank lines as they are. -/
  | keepBlankLines
  /-- Take out this attribute. -/
  | takeOut (name : String)
  /-- Take out the attribute that the next argument names. -/
  | takeOutNext
  /-- An option that does not exist. -/
  | unknown (option : String)
  /-- Work on this path. -/
  | path (p : Path)
  deriving DecidableEq

/-- The meaning of an argument. -/
def Argument.ofString (s : String) : Argument :=
  if s = "--dry-run" then .dryRun
  else if s = "--keep-blank-lines" then .keepBlankLines
  else if s = "--attribute" then .takeOutNext
  else
    match "--attribute=".toList.isPrefixOf? s.toList with
    | some name => .takeOut (String.ofList name)
    | none => if "--".toList.isPrefixOf s.toList then .unknown s else .path (Path.ofString s)

/-- What a command line asks for. -/
structure Options where
  /-- The attributes to take out, in order. -/
  attributes : List String
  /-- The paths to work on, in order. -/
  paths : List Path
  /-- Change no file. -/
  dryRun : Bool
  /-- Collapse the blank lines that are left behind. -/
  collapse : Bool
  deriving DecidableEq

/-- Why a command line cannot be read. -/
inductive UsageError
  /-- `--attribute` is the last argument. -/
  | missingValue
  /-- There is no such option. -/
  | unknownOption (option : String)
  deriving DecidableEq

/-- The message that a command line is refused with. -/
def UsageError.message : UsageError → String
  | missingValue => "--attribute needs a value"
  | unknownOption option => "Unknown option " ++ option

namespace Options

/-- What the empty command line asks for. -/
def empty : Options :=
  ⟨[], [], false, true⟩

/-- The options with one more attribute in front. -/
def consAttribute (name : String) (o : Options) : Options :=
  { o with attributes := name :: o.attributes }

/-- The options with one more path in front. -/
def consPath (p : Path) (o : Options) : Options :=
  { o with paths := p :: o.paths }

/-- What a command line asks for. -/
def ofArguments : List String → Except UsageError Options
  | [] => .ok empty
  | s :: rest =>
      match Argument.ofString s with
      | .dryRun => (ofArguments rest).map fun o => { o with dryRun := true }
      | .keepBlankLines => (ofArguments rest).map fun o => { o with collapse := false }
      | .takeOut name => (ofArguments rest).map (consAttribute name)
      | .takeOutNext =>
          match rest with
          | [] => .error .missingValue
          | name :: rest => (ofArguments rest).map (consAttribute name)
      | .unknown option => .error (.unknownOption option)
      | .path p => (ofArguments rest).map (consPath p)

/-- The options with the defaults where nothing is asked for: the default attribute
and the current folder. -/
def withDefaults (o : Options) : Options :=
  { o with
    attributes := if o.attributes.isEmpty then [defaultAttribute] else o.attributes
    paths := if o.paths.isEmpty then [Path.current] else o.paths }

end Options

end AttributeLists.Command
