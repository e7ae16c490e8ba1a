/-
# What the service replies to a pruning request

A pruning request is answered as pruning itself answers, with what the request leaves open
filled in from the settings. Left out and null are the only ways to leave something open:
an empty attribute is asked for and refused, and a false setting is kept. The requests around
a request have no part in its response. All this holds in every framework that does what the
service relies on.
-/

import AttributeLists.Proofs.Name.Identifier
import AttributeLists.Proofs.Prune.Several
import AttributeLists.Proofs.Service.Framework
import AttributeLists.Service.Session

namespace AttributeLists.Service

namespace Settings

variable {settings : Settings} {framework : Framework}

/-- Requests are answered each on its own. -/
theorem responses_eq_map (settings : Settings) (framework : Framework)
    (requests : List Request) :
    settings.responses framework requests = requests.map (settings.respond framework) := by
  induction requests with
  | nil => rfl
  | cons request rest ih =>
      rw [List.map_cons, ← ih]
      rfl

/-- What is asked for is pruned with what it leaves open filled in from the settings. -/
theorem respond_of_wellTyped (lawful : framework.Lawful) {request : Request}
    (posted : request.method = "POST") (addressed : request.path = "/rewrite")
    {written : List (Text × Json.Value)} (fields : framework.fields? request.body = some written)
    {asked : PruneRequest} (typed : asked.WellTyped written) :
    settings.respond framework request = framework.send (settings.answer asked) := by
  have routed : framework.route? request.method request.path = some .prune := by
    rw [posted, addressed]
    exact lawful.routes .prune
  rw [respond, routed]
  simp only [lawful.decodes fields typed]

theorem answer_of_error {asked : PruneRequest} {cause : InvalidName}
    (refused : AttributeName.ofText (asked.name?.getD settings.defaultName) = .error cause) :
    settings.answer asked = .rejected cause.message := by
  rw [answer, refused]

theorem answer_of_ok {asked : PruneRequest} {name : AttributeName}
    (valid : AttributeName.ofText (asked.name?.getD settings.defaultName) = .ok name) :
    settings.answer asked =
      .pruned (asked.content.prune name (asked.collapse?.getD settings.collapse)) := by
  rw [answer, valid]

end Settings

/-- A refused name is kept as it was given, and the message shows it. -/
theorem message_of_ofText {t : Text} {cause : InvalidName}
    (refused : AttributeName.ofText t = .error cause) :
    cause.message = "Not an attribute name: " ++ t.quoted := by
  rw [AttributeName.ofText] at refused
  split at refused
  · injection refused
  · injection refused with refused
    subst refused
    rfl

variable {framework : Framework} {env loaded : Environment} {own shared : Option Text}

/-- A service that can be loaded answers each request on its own. -/
theorem session_of_load (load : env.load own shared = .ok loaded) (requests : List Request) :
    session framework env own shared requests =
      .ok (requests.map ((Settings.ofEnvironment loaded).respond framework)) := by
  rw [session, load, Except.map, Settings.responses_eq_map]

/-- Settings that can be computed belong to a service that can be loaded. -/
theorem exists_load_of_settings {settings : Settings}
    (made : (env.load own shared).toOption.map Settings.ofEnvironment = some settings) :
    ∃ loaded, env.load own shared = .ok loaded ∧ Settings.ofEnvironment loaded = settings := by
  obtain ⟨loaded, load, settled⟩ := Option.map_eq_some_iff.mp made
  exact ⟨loaded, toOption_eq_some_iff.mp load, settled⟩

/-- A well typed pruning request is answered as pruning answers: with the attribute it names,
an empty name included, and else with that of the settings; collapsing as it says, and else as
the settings say. A name that is no attribute name is refused with the message that shows it.
The response is the same wherever the request stands among other requests. -/
theorem reply_agrees_with_prune (lawful : framework.Lawful)
    (load : env.load own shared = .ok loaded) {request : Request}
    (posted : request.method = "POST") (addressed : request.path = "/rewrite")
    {written : List (Text × Json.Value)} (fields : framework.fields? request.body = some written)
    {asked : PruneRequest} (typed : asked.WellTyped written) :
    let settings := Settings.ofEnvironment loaded
    let wanted := asked.name?.getD settings.defaultName
    ∃ response,
      (∀ cause, AttributeName.ofText wanted = .error cause →
        response.status = 400 ∧
          response.field? "detail" = some (.text (Text.ofString cause.message)) ∧
          cause.message = "Not an attribute name: " ++ wanted.quoted) ∧
      (∀ name, AttributeName.ofText wanted = .ok name →
        let result := asked.content.prune name (asked.collapse?.getD settings.collapse)
        response.status = 200 ∧ response.field? "content" = some (.text result.text) ∧
          response.field? "removed" = some (.integer result.removed)) ∧
      ∀ before after, ∃ responses,
        session framework env own shared (before ++ request :: after) = .ok responses ∧
          responses[before.length]? = some response := by
  intro settings wanted
  have responded : settings.respond framework request = framework.send (settings.answer asked) :=
    Settings.respond_of_wellTyped lawful posted addressed fields typed
  refine ⟨settings.respond framework request, fun cause refused => ?_, fun name valid => ?_,
    fun before after => ⟨_, session_of_load load _, ?_⟩⟩
  · rw [responded, Settings.answer_of_error refused]
    obtain ⟨status, detail⟩ := lawful.refuses cause.message
    exact ⟨status, detail, message_of_ofText refused⟩
  · rw [responded, Settings.answer_of_ok valid]
    have free : asked.content.StrayFree :=
      lawful.characters fields (Json.Value.mem_of_lastValue? typed.content)
    obtain ⟨status, parts⟩ := lawful.returns
      (free.prune name (asked.collapse?.getD settings.collapse))
    exact ⟨Option.some.inj status, parts⟩
  · rw [List.getElem?_map, List.getElem?_append_right (Nat.le_refl _), Nat.sub_self]
    rfl

/-- A request for an empty name. -/
def emptyNameRequest : Request :=
  ⟨"POST", "/rewrite", "\x7b\"content\":\"[T]\",\"attribute\":\"\"\x7d"⟩

/-- A request that leaves the name open, since the last of its two names is null, and that
keeps blank lines. -/
def nullNameRequest : Request :=
  ⟨"POST", "/rewrite", "\x7b\"content\":\"[T]\\n\",\"attribute\":\"\"," ++
    "\"attribute\":null,\"collapse_blank_lines\":false,\"x\":[\x7b\x7d]\x7d"⟩

/-- An empty name is refused although a settings file names an attribute, an open name is
that attribute, and a false setting of a request counts against the true one of the
service. -/
theorem reply_agrees_with_prune_at_empty_and_null_name :
    let file := Text.ofString "ATTRSTRIP_ATTRIBUTE=T"
    ∃ responses refusal pruned,
      session (Framework.reading ⟨10, 10⟩) ⟨[]⟩ (some file) none
          [emptyNameRequest, nullNameRequest] = .ok responses ∧
        responses[0]? = some refusal ∧ refusal.status = 400 ∧
        refusal.field? "detail" = some (.text (Text.ofString "Not an attribute name: ''")) ∧
        responses[1]? = some pruned ∧ pruned.status = 200 ∧
        pruned.field? "content" = some (.text (Text.ofString "\n")) ∧
        pruned.field? "removed" = some (.integer 1) := by
  intro file
  have configured : (Environment.load ⟨[]⟩ (some file) none).toOption.map
      Settings.ofEnvironment = some ⟨Text.ofString "T", true⟩ := by
    decide +kernel
  obtain ⟨loaded, load, settled⟩ := exists_load_of_settings configured
  have lawful := Framework.lawful_reading ⟨10, 10⟩
  have empty_read : (Json.fieldsOfDocument ⟨10, 10⟩ emptyNameRequest.body).toOption.bind
      PruneRequest.ofFields? = some ⟨Text.ofString "[T]", some [], none⟩ := by
    decide +kernel
  obtain ⟨empty_written, empty_fields, empty_typed⟩ := Framework.exists_fields_of_read empty_read
  obtain ⟨refusal, refused, -, first⟩ :=
    reply_agrees_with_prune lawful load rfl rfl empty_fields empty_typed
  have null_read : (Json.fieldsOfDocument ⟨10, 10⟩ nullNameRequest.body).toOption.bind
      PruneRequest.ofFields? = some ⟨Text.ofString "[T]\n", none, some false⟩ := by
    decide +kernel
  obtain ⟨null_written, null_fields, null_typed⟩ := Framework.exists_fields_of_read null_read
  obtain ⟨pruned, -, answered, second⟩ :=
    reply_agrees_with_prune lawful load rfl rfl null_fields null_typed
  rw [settled] at refused answered
  have invalid : AttributeName.ofText [] = .error ⟨.text []⟩ := dif_neg (by decide)
  obtain ⟨refused_status, detail, -⟩ := refused _ invalid
  have shown : InvalidName.message ⟨.text []⟩ = "Not an attribute name: ''" := by decide +kernel
  rw [shown] at detail
  let name : AttributeName := ⟨Text.ofString "T", isAttributeName_singleton rfl⟩
  have valid : AttributeName.ofText (Text.ofString "T") = .ok name := dif_pos name.valid
  have kept : (Text.ofString "[T]\n").prune name false = ⟨Text.ofString "\n", 1⟩ := by
    decide +kernel
  have sent := answered name valid
  simp only [Option.getD_some, kept] at sent
  obtain ⟨answered_status, content, removed⟩ := sent
  obtain ⟨responses, made, refusal_first⟩ := first [] [nullNameRequest]
  obtain ⟨again, made_again, pruned_second⟩ := second [emptyNameRequest] []
  obtain rfl : responses = again := Except.ok.inj (made.symm.trans made_again)
  exact ⟨responses, refusal, pruned, made, refusal_first, refused_status, detail, pruned_second,
    answered_status, content, removed⟩

end AttributeLists.Service
