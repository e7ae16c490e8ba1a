/-
# The web framework around the service

Requests reach the endpoints of the service through a web framework, which is no part of
the service. The framework decides which endpoint a request is handed to, reads its body
and makes a response of what the endpoint comes to. `Framework` names these parts, so that
the service is one for every framework; which of their properties the service relies on is
said with its results.
-/

import AttributeLists.Service.Reply

namespace AttributeLists.Service

/-- A request to the service. -/
structure Request where
  method : String
  path : String
  body : String

/-- A response of the service, with the fields of the JSON object in its body. -/
structure Response where
  status : Nat
  fields : List (Text × Json.Value)

/-- What the service can be asked for. -/
inductive Endpoint
  | health
  | prune
  deriving DecidableEq

namespace Endpoint

/-- The method that the endpoint is declared for. -/
def method : Endpoint → String
  | health => "GET"
  | prune => "POST"

/-- The path that the endpoint is declared for. -/
def path : Endpoint → String
  | health => "/_health/"
  | prune => "/rewrite"

/-- The status that is declared for what the endpoint returns, where one is declared. -/
def status? : Endpoint → Option Nat
  | health => none
  | prune => some 200

end Endpoint

/-- The parts of a web framework that the service uses. -/
structure Framework where
  /-- The endpoint that takes a request of a method and a path. -/
  route? (method path : String) : Option Endpoint
  /-- The response to a request that no endpoint takes. -/
  untaken (request : Request) : Response
  /-- The fields of the JSON object that a body is, in the order in which they are written. -/
  fields? (body : String) : Option (List (Text × Json.Value))
  /-- What a body asks the pruning endpoint for, or the response to a body that asks for
  nothing. -/
  decode (body : String) : Except Response PruneRequest
  /-- The response that is made of what an endpoint comes to. -/
  send (reply : Reply) : Response

/-- The response to a request. -/
def Settings.respond (settings : Settings) (framework : Framework) (request : Request) :
    Response :=
  match framework.route? request.method request.path with
  | none => framework.untaken request
  | some .health => framework.send .healthy
  | some .prune =>
      match framework.decode request.body with
      | .error response => response
      | .ok asked => framework.send (settings.answer asked)

end AttributeLists.Service
