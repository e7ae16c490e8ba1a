/-
# Sessions of the service

A session starts when the service is loaded. The environment and the settings file make
its settings; if a setting cannot be made there is no session. From then on requests are
answered one after another, each with the settings that the request before it left.
-/

import AttributeLists.Service.Framework

namespace AttributeLists.Service

/-- Answer one request. A request reads the settings and leaves them as they are. -/
def Settings.handle (settings : Settings) (framework : Framework) (request : Request) :
    Response × Settings :=
  (settings.respond framework request, settings)

/-- Answer requests one after another. -/
def Settings.responses (settings : Settings) (framework : Framework) :
    List Request → List Response
  | [] => []
  | request :: rest =>
      let (response, next) := settings.handle framework request
      response :: next.responses framework rest

/-- The responses of a service that is loaded with an environment and settings files. -/
def session (framework : Framework) (env : Environment) (own shared : Option Text)
    (requests : List Request) : Except SettingError (List Response) :=
  (env.load own shared).map fun loaded =>
    (Settings.ofEnvironment loaded).responses framework requests

end AttributeLists.Service
