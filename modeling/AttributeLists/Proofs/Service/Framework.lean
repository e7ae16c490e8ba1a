/-
# What the service relies on

`Framework.Lawful` lists what a web framework does for the service: a request for an
endpoint is handed to it, a body whose fields have the declared types is read as they say,
and what an endpoint comes to is sent. Of several fields of one name the last counts, null
counts as left out where a field may be left out, and fields of other names are not looked
at. The texts in a body are made of characters, and only such a text has to be sent.

A framework that reads bodies with the reader of JSON documents is lawful.
-/

import AttributeLists.Proofs.Json.Reader
import AttributeLists.Service.Framework

namespace AttributeLists

/-- The value that a name is given last, in the order in which fields are written. -/
def Json.Value.lastValue? (name : Text) (written : List (Text × Json.Value)) :
    Option Json.Value :=
  written.reverse.lookup name

theorem Json.Value.mem_of_lastValue? {name : Text} {written : List (Text × Json.Value)}
    {value : Json.Value} (last : lastValue? name written = some value) :
    (name, value) ∈ written := by
  obtain ⟨later, earlier, split, -⟩ := List.lookup_eq_some_iff.mp last
  exact List.mem_reverse.mp (split ▸ List.mem_append_right _ List.mem_cons_self)

namespace Service

open Json.Value

namespace PruneRequest

/-- The value of a field holds what is asked for, or it is left out or null and nothing is
asked for. -/
def Holds {α : Type} (make : α → Json.Value) (value? : Option Json.Value) : Option α → Prop
  | some asked => value? = some (make asked)
  | none => value? = none ∨ value? = some .null

/-- The fields of a body are those of a pruning request, each of the right type. -/
structure WellTyped (written : List (Text × Json.Value)) (request : PruneRequest) : Prop where
  content : lastValue? (Text.ofString "content") written = some (.text request.content)
  name : Holds .text (lastValue? (Text.ofString "attribute") written) request.name?
  collapse :
    Holds .bool (lastValue? (Text.ofString "collapse_blank_lines") written) request.collapse?

end PruneRequest

/-- The value of a field of the response. -/
def Response.field? (response : Response) (name : String) : Option Json.Value :=
  Json.Value.field? (Text.ofString name) response.fields

namespace Framework

/-- What the service relies on in a web framework. -/
structure Lawful (framework : Framework) : Prop where
  /-- A request with the method and the path of an endpoint is handed to that endpoint. -/
  routes (endpoint : Endpoint) :
    framework.route? endpoint.method endpoint.path = some endpoint
  /-- A body with fields of the declared types is read as its fields say. -/
  decodes {body : String} {written : List (Text × Json.Value)} {asked : PruneRequest} :
    framework.fields? body = some written → asked.WellTyped written →
      framework.decode body = .ok asked
  /-- The texts that the fields of a body hold are made of characters. -/
  characters {body : String} {written : List (Text × Json.Value)} {name t : Text} :
    framework.fields? body = some written → (name, .text t) ∈ written → t.StrayFree
  /-- A result without stray bytes is sent field by field, with the declared status. -/
  returns {result : Pruned} : result.text.StrayFree →
    some (framework.send (.pruned result)).status = Endpoint.prune.status? ∧
      (framework.send (.pruned result)).field? "content" = some (.text result.text) ∧
      (framework.send (.pruned result)).field? "removed" = some (.integer result.removed)
  /-- A request that is not valid is answered with status 400 and the reason. -/
  refuses (detail : String) :
    (framework.send (.rejected detail)).status = 400 ∧
      (framework.send (.rejected detail)).field? "detail" = some (.text (Text.ofString detail))

end Framework

namespace PruneRequest

/-- A field that may be left out or null. -/
def optional {α : Type} (read : Json.Value → Option α) :
    Option Json.Value → Option (Option α)
  | none | some .null => some none
  | some value => (read value).map some

/-- The text that a value holds. -/
def text? : Json.Value → Option Text
  | .text t => some t
  | _ => none

/-- The truth value that a value holds. -/
def bool? : Json.Value → Option Bool
  | .bool b => some b
  | _ => none

/-- The request that fields make. -/
def ofFields? (written : List (Text × Json.Value)) : Option PruneRequest := do
  let content ← text? (← lastValue? (Text.ofString "content") written)
  let name ← optional text? (lastValue? (Text.ofString "attribute") written)
  let collapse ← optional bool? (lastValue? (Text.ofString "collapse_blank_lines") written)
  return ⟨content, name, collapse⟩

theorem text?_eq_some_iff {value : Json.Value} {t : Text} :
    text? value = some t ↔ value = .text t := by
  cases value <;> simp [text?]

theorem bool?_eq_some_iff {value : Json.Value} {b : Bool} :
    bool? value = some b ↔ value = .bool b := by
  cases value <;> simp [bool?]

theorem optional_some_of_ne_null {α : Type} (read : Json.Value → Option α) {value : Json.Value}
    (not_null : value ≠ .null) : optional read (some value) = (read value).map some := by
  cases value with
  | null => exact absurd rfl not_null
  | _ => rfl

/-- A field that may be left out or null is read exactly as what it holds. -/
theorem optional_eq_some_iff {α : Type} {make : α → Json.Value} {read : Json.Value → Option α}
    (reads : ∀ {value a}, read value = some a ↔ value = make a)
    (not_null : ∀ a, make a ≠ .null) {value? : Option Json.Value} {asked : Option α} :
    optional read value? = some asked ↔ Holds make value? asked := by
  cases value? with
  | none => cases asked <;> simp [optional, Holds]
  | some value =>
      by_cases null : value = .null
      · subst null
        cases asked with
        | none => simp [optional, Holds]
        | some a => simp [optional, Holds, (not_null a).symm]
      · rw [optional_some_of_ne_null read null]
        cases asked with
        | none => simp [Holds, null]
        | some a => simp [Holds, reads]

/-- Fields make the request that they hold, and fields that are not well typed make none. -/
theorem ofFields?_eq_some_iff {written : List (Text × Json.Value)} {request : PruneRequest} :
    ofFields? written = some request ↔ WellTyped written request := by
  simp only [ofFields?, bind, Option.bind_eq_some_iff, text?_eq_some_iff,
    optional_eq_some_iff text?_eq_some_iff fun _ => Json.Value.noConfusion,
    optional_eq_some_iff bool?_eq_some_iff fun _ => Json.Value.noConfusion]
  constructor
  · rintro ⟨_, content, _, held, _, name, _, collapse, made⟩
    subst held
    injection made with made
    subst made
    exact ⟨content, name, collapse⟩
  · intro typed
    exact ⟨_, typed.content, _, rfl, _, typed.name, _, typed.collapse, rfl⟩

end PruneRequest

theorem toOption_eq_some_iff {ε α : Type} {made : Except ε α} {a : α} :
    made.toOption = some a ↔ made = .ok a := by
  cases made <;> simp [Except.toOption]

namespace Framework

/-- A framework that reads bodies within limits. It hands requests to the endpoint with their
method and path. -/
def reading (limits : Json.Limits) : Framework where
  route? method path :=
    [Endpoint.health, .prune].find? fun endpoint =>
      endpoint.method == method && endpoint.path == path
  untaken _ := ⟨404, []⟩
  fields? body := (Json.fieldsOfDocument limits body).toOption
  decode body :=
    match (Json.fieldsOfDocument limits body).toOption.bind PruneRequest.ofFields? with
    | some asked => .ok asked
    | none => .error ⟨400, []⟩
  send
    | .healthy => ⟨200, [(Text.ofString "status", .text (Text.ofString "ok"))]⟩
    | .pruned result =>
        ⟨200, [(Text.ofString "content", .text result.text),
          (Text.ofString "removed", .integer result.removed)]⟩
    | .rejected detail => ⟨400, [(Text.ofString "detail", .text (Text.ofString detail))]⟩

theorem lawful_reading (limits : Json.Limits) : (reading limits).Lawful where
  routes endpoint := by cases endpoint <;> simp [reading, Endpoint.method, Endpoint.path]
  decodes := by
    intro body written asked fields typed
    have read : (Json.fieldsOfDocument limits body).toOption = some written := fields
    simp [reading, read, PruneRequest.ofFields?_eq_some_iff.mpr typed]
  characters fields inside :=
    Json.strayFree_of_fieldsOfDocument (toOption_eq_some_iff.mp fields) inside
  returns _ := ⟨rfl, rfl, rfl⟩
  refuses detail := ⟨rfl, rfl⟩

/-- A body that is read within limits has the fields of what it asks for. -/
theorem exists_fields_of_read {limits : Json.Limits} {body : String} {asked : PruneRequest}
    (read : (Json.fieldsOfDocument limits body).toOption.bind PruneRequest.ofFields? =
      some asked) :
    ∃ written, (reading limits).fields? body = some written ∧
      asked.WellTyped written := by
  obtain ⟨written, fields, typed⟩ := Option.bind_eq_some_iff.mp read
  exact ⟨written, fields, PruneRequest.ofFields?_eq_some_iff.mp typed⟩

end Framework

end Service

end AttributeLists
