/-
# Replies of the service

The service has two endpoints: one tells that it is up, and one takes an attribute out of
the source text that a request carries. What an endpoint replies depends on the settings
and on its own request only.

A pruning request holds the source text and, if the settings are not to decide, the
attribute and whether blank lines are collapsed.
-/

import AttributeLists.Prune.Basic
import AttributeLists.Service.Settings

namespace AttributeLists.Service

/-- What a pruning request asks for. -/
structure PruneRequest where
  /-- The source text. -/
  content : Text
  /-- The attribute to take out, if not that of the settings. -/
  name? : Option Text
  /-- Whether to collapse blank lines, if not as the settings say. -/
  collapse? : Option Bool
  deriving DecidableEq

/-- What an endpoint comes to. -/
inductive Reply
  /-- The service is up. -/
  | healthy
  /-- The attribute was taken out. -/
  | pruned (result : Pruned)
  /-- The request is not valid, for a reason that is told. -/
  | rejected (detail : String)
  deriving DecidableEq

/-- The reply to a pruning request. -/
def Settings.answer (settings : Settings) (request : PruneRequest) : Reply :=
  match AttributeName.ofText (request.name?.getD settings.defaultName) with
  | .error e => .rejected e.message
  | .ok name =>
      .pruned (request.content.prune name (request.collapse?.getD settings.collapse))

end AttributeLists.Service
