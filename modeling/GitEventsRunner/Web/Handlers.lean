/-
# The webhook handlers

The two handlers of the webhooks server: find the trigger in the cache, check
the authorization of the request, check that the request is within the scope of
the trigger, and add one task to the scheduler.  Every check has an error of its
own, and an early return must not leave a task behind: the handlers run in a
state that survives their errors, so that what they leave behind can be said.

The trigger cache, the secrets, the runtime configuration and the scheduler's
answer are parameters, so all results hold for every content of them.
-/

import GitEventsRunner.Secrets.Cache
import GitEventsRunner.Triggers.Records

namespace GitEventsRunner.Web

open GitEventsRunner.Lib
open GitEventsRunner.Triggers

/-! ## Requests -/

/-- The characters of a header name; upper case letters are read as lower case. -/
def headerNameChars : List Char :=
  "!#$%&'*+-.^_`|~0123456789abcdefghijklmnopqrstuvwxyzABCDEFGHIJKLMNOPQRSTUVWXYZ".toList

/-- The header a text names: header names have no case, are not empty and have a
limited length and alphabet. -/
def parseHeaderName (name : String) : Option String :=
  if name.toList ≠ [] ∧ name.toList.length < 2 ^ 16 ∧
      name.toList.all fun c => c ∈ headerNameChars then
    some name.toLower
  else none

/-- The headers of a request in order, each with a name in lower case and a value
of bytes. -/
abbrev HeaderMap := List (String × List UInt8)

/-- `HeaderMap::get`: the first value of the header with that name. -/
def HeaderMap.get (headers : HeaderMap) (name : String) : Option (List UInt8) :=
  (parseHeaderName name).bind fun name =>
    (headers.find? fun header => header.1 = name).map Prod.snd

/-! ## Triggers -/

/-- Reference to a secret in the namespace of the trigger. -/
structure SecretRef where
  name : String
  deriving DecidableEq, Repr

/-- Webhook auth config. -/
structure TriggerWebhookAuthConfig where
  secretRef : SecretRef
  key : String
  header : Option String := none
  deriving DecidableEq, Repr

/-- Webhook trigger specific config. -/
structure TriggerWebhook where
  multiSource : Bool
  authConfig : Option TriggerWebhookAuthConfig := none
  deriving DecidableEq, Repr

/-- A webhook trigger: what every trigger has, and its webhook section. -/
structure WebhookTrigger where
  trigger : Trigger
  webhook : TriggerWebhook
  kind_eq : trigger.kind = .webhookTrigger := by rfl
  deriving DecidableEq

/-- `DEFAULT_WEBHOOK_TRIGGER_AUTH_HEADER` -/
def defaultWebhookTriggerAuthHeader : String := "x-trigger-auth"

/-! ## Responses -/

/-- `WebError` -/
inductive WebError
  | forbiddenMultiSource
  | triggerNotFound
  | sourceNotFound
  | unauthorized
  | forbidden
  | authorizationError
  | kubeError (msg : String)
  | schedulerError (msg : String)
  | unknownError (msg : String)
  deriving DecidableEq, Repr

namespace WebError

/-- The message of an error response. -/
def message : WebError → String
  | .forbiddenMultiSource => "multi-source hook isn't allowed"
  | .triggerNotFound => "trigger doesn't exist"
  | .sourceNotFound => "source doesn't exist in the trigger"
  | .unauthorized => "authorization is required"
  | .forbidden => "forbidden"
  | .authorizationError => "unable to complete authorization"
  | .kubeError msg => "KubeError: " ++ msg
  | .schedulerError msg => "TaskScheduler: " ++ msg
  | .unknownError msg => "Unknown: " ++ msg

/-- The status code of an error response. -/
def statusCode : WebError → ℕ
  | .forbiddenMultiSource => 400
  | .triggerNotFound | .sourceNotFound => 404
  | .unauthorized => 401
  | .forbidden => 403
  | .kubeError _ | .schedulerError _ | .authorizationError | .unknownError _ => 500

end WebError

/-- `WebResponseStatus` -/
inductive WebResponseStatus
  | ok | error
  deriving DecidableEq, Repr

/-- `WebResponseJson` -/
structure WebResponseJson where
  status : WebResponseStatus
  message : String
  taskId : Option String
  deriving DecidableEq, Repr

namespace WebResponseJson

/-- The response to a scheduled task. -/
def ofTaskId (taskId : String) : WebResponseJson := ⟨.ok, "job has been scheduled", some taskId⟩

/-- The body of an error response. -/
def ofError (error : WebError) : WebResponseJson := ⟨.error, error.message, none⟩

end WebResponseJson

/-- The status code and the body a handler answers with. -/
def intoResponse : Except WebError WebResponseJson → ℕ × WebResponseJson
  | .ok response => (202, response)
  | .error error => (error.statusCode, .ofError error)

/-! ## Handlers -/

/-- A task that runs once: the trigger it was created for and what it is to
check. -/
structure OnceTask where
  trigger : Trigger
  request : TaskRequest

/-- The surroundings of the handlers: the cached webhook triggers, what the
secrets cache answers, the default header of the runtime configuration, what the
scheduler answers to a new task, and the folder tasks clone to. -/
structure WebState where
  webhookTriggers : List WebhookTrigger
  secret : String → String → String → Except Secrets.Error String
  defaultAuthHeader : String := defaultWebhookTriggerAuthHeader
  add : List OnceTask → OnceTask → Except String String
  sourceCloneFolder : String

/-- A handler: it may fail, and what it did to the scheduler stays. -/
abbrev Handler := ExceptT WebError (StateM (List OnceTask))

namespace WebState

variable (state : WebState)

/-- What the trigger cache holds under a name in a namespace. -/
def find (name ns : String) : Option WebhookTrigger :=
  state.webhookTriggers.find? fun cached => cached.trigger.name = name ∧ cached.trigger.ns = ns

/-- `WebhookTrigger::get`; a missing trigger is reported as such. -/
def getTrigger (name ns : String) : Handler WebhookTrigger :=
  match state.find name ns with
  | some trigger => pure trigger
  | none => throw .triggerNotFound

/-- The name of the header that carries the token. -/
def authHeader (authConfig : TriggerWebhookAuthConfig) : String :=
  authConfig.header.getD state.defaultAuthHeader

/-- `WebState::check_hook_authorization` -/
def checkHookAuthorization (headers : HeaderMap) (webhook : TriggerWebhook) (ns : String) :
    Handler Unit :=
  match webhook.authConfig with
  | some authConfig =>
      match headers.get (state.authHeader authConfig) with
      | some header =>
          match state.secret ns authConfig.secretRef.name authConfig.key with
          | .ok secret =>
              if secret.toUTF8.toList = header then pure ()
              else throw .forbidden
          | .error _ => throw .authorizationError
      | none => throw .unauthorized
  | none => pure ()

/-- `scheduler.add` -/
def addTask (task : OnceTask) : Handler String := do
  let scheduled ← get
  match state.add scheduled task with
  | .ok taskId =>
      set (scheduled ++ [task])
      pure taskId
  | .error msg => throw (.schedulerError msg)

/-- The task a handler makes for a trigger. -/
def task (trigger : WebhookTrigger) (taskSources : TriggerTaskSources) : OnceTask :=
  ⟨trigger.trigger, ⟨taskSources, state.sourceCloneFolder⟩⟩

/-- What both handlers do: they differ in what a trigger must admit, in the error
if it does not, and in the sources of the task. -/
def handlePostWebhook (admits : WebhookTrigger → Bool) (refusal : WebError)
    (taskSources : TriggerTaskSources) (ns name : String) (headers : HeaderMap) :
    Handler WebResponseJson := do
  let trigger ← state.getTrigger name ns
  state.checkHookAuthorization headers trigger.webhook ns
  if admits trigger then
    let taskId ← state.addTask (state.task trigger taskSources)
    pure (.ofTaskId taskId)
  else throw refusal

/-- `handle_post_trigger_webhook` -/
def handlePostTriggerWebhook (ns trigger : String) (headers : HeaderMap) :
    Handler WebResponseJson :=
  state.handlePostWebhook (fun found => found.webhook.multiSource) .forbiddenMultiSource .all
    ns trigger headers

/-- `handle_post_source_webhook` -/
def handlePostSourceWebhook (ns trigger source : String) (headers : HeaderMap) :
    Handler WebResponseJson :=
  state.handlePostWebhook (fun found => found.trigger.sources.names.contains source)
    .sourceNotFound (.single source) ns trigger headers

/-! ## The gate -/

/-- A request is authorized for a trigger: the trigger asks for no token, or the
first value of the header it names is the token its secret holds. -/
def Authorized (headers : HeaderMap) (trigger : WebhookTrigger) : Prop :=
  ∀ authConfig, trigger.webhook.authConfig = some authConfig →
    ∃ header secret, headers.get (state.authHeader authConfig) = some header ∧
      state.secret trigger.trigger.ns authConfig.secretRef.name authConfig.key = .ok secret ∧
      secret.toUTF8.toList = header

/-- What a handler has to keep to.  It adds a task exactly if the trigger exists,
the request is authorized and admitted, and the scheduler accepts the task; the
task is the one of that trigger, for the given sources; and an error adds
nothing. -/
structure Gated (Admits : WebhookTrigger → Prop) (taskSources : TriggerTaskSources)
    (ns name : String) (headers : HeaderMap) (handler : Handler WebResponseJson) : Prop where
  added_iff : ∀ scheduled, (∃ task, (handler.run scheduled).2 = scheduled ++ [task]) ↔
    ∃ trigger taskId, state.find name ns = some trigger ∧ state.Authorized headers trigger ∧
      Admits trigger ∧ state.add scheduled (state.task trigger taskSources) = .ok taskId
  added : ∀ scheduled, (handler.run scheduled).2 = scheduled ∨
    ∃ trigger, state.find name ns = some trigger ∧
      (handler.run scheduled).2 = scheduled ++ [state.task trigger taskSources]
  unchanged : ∀ scheduled error, (handler.run scheduled).1 = .error error →
    (handler.run scheduled).2 = scheduled

variable {state}

theorem run_bind_of_ok {α β : Type} {x : Handler α} {f : α → Handler β} {a : α}
    {scheduled scheduled' : List OnceTask} (h : x.run scheduled = (.ok a, scheduled')) :
    (x >>= f).run scheduled = (f a).run scheduled' := by
  show ExceptT.bindCont f (x.run scheduled).1 (x.run scheduled).2 = _
  rw [h]
  rfl

theorem run_bind_of_error {α β : Type} {x : Handler α} {f : α → Handler β} {error : WebError}
    {scheduled scheduled' : List OnceTask} (h : x.run scheduled = (.error error, scheduled')) :
    (x >>= f).run scheduled = (.error error, scheduled') := by
  show ExceptT.bindCont f (x.run scheduled).1 (x.run scheduled).2 = _
  rw [h]
  rfl

theorem ns_of_find {name ns : String} {trigger : WebhookTrigger}
    (h : state.find name ns = some trigger) : trigger.trigger.ns = ns := by
  have hfound := List.find?_some h
  simp only [decide_eq_true_eq] at hfound
  exact hfound.2

/-- With the header and the secret at hand, being authorized is equality of bytes. -/
theorem authorized_iff {headers : HeaderMap} {trigger : WebhookTrigger}
    {authConfig : TriggerWebhookAuthConfig} {header : List UInt8} {secret : String}
    (hauth : trigger.webhook.authConfig = some authConfig)
    (hheader : headers.get (state.authHeader authConfig) = some header)
    (hsecret : state.secret trigger.trigger.ns authConfig.secretRef.name authConfig.key =
      .ok secret) :
    state.Authorized headers trigger ↔ secret.toUTF8.toList = header := by
  apply Iff.intro
  · intro h
    rcases h authConfig hauth with ⟨header', secret', hheader', hsecret', hequal⟩
    rw [hheader] at hheader'
    rw [hsecret] at hsecret'
    rw [Option.some.inj hheader', Except.ok.inj hsecret']
    exact hequal
  · intro hequal authConfig' hauth'
    rw [hauth] at hauth'
    rw [← Option.some.inj hauth']
    exact ⟨header, secret, hheader, hsecret, hequal⟩

/-- The check leaves the scheduler alone and passes authorized requests only. -/
theorem checkHookAuthorization_run (headers : HeaderMap) (trigger : WebhookTrigger)
    (scheduled : List OnceTask) :
    ∃ result, (state.checkHookAuthorization headers trigger.webhook trigger.trigger.ns).run
        scheduled = (result, scheduled) ∧
      (result = .ok () ↔ state.Authorized headers trigger) := by
  rw [checkHookAuthorization]
  cases hauth : trigger.webhook.authConfig with
  | none =>
      refine ⟨.ok (), rfl, ?_⟩
      simp [Authorized, hauth]
  | some authConfig =>
      cases hheader : headers.get (state.authHeader authConfig) with
      | none =>
          simp only [hheader]
          refine ⟨.error .unauthorized, rfl, ?_⟩
          simp [Authorized, hauth, hheader]
      | some header =>
          cases hsecret : state.secret trigger.trigger.ns authConfig.secretRef.name
              authConfig.key with
          | error error =>
              simp only [hheader, hsecret]
              refine ⟨.error .authorizationError, rfl, ?_⟩
              simp [Authorized, hauth, hheader, hsecret]
          | ok secret =>
              by_cases hequal : secret.toUTF8.toList = header
              · simp only [hheader, hsecret, if_pos hequal]
                refine ⟨.ok (), rfl, ?_⟩
                rw [authorized_iff hauth hheader hsecret]
                exact iff_of_true rfl hequal
              · simp only [hheader, hsecret, if_neg hequal]
                refine ⟨.error .forbidden, rfl, ?_⟩
                rw [authorized_iff hauth hheader hsecret]
                exact iff_of_false (fun h => by cases h) hequal

theorem addTask_run (task : OnceTask) (scheduled : List OnceTask) :
    (state.addTask task).run scheduled =
      match state.add scheduled task with
      | .ok taskId => (.ok taskId, scheduled ++ [task])
      | .error msg => (.error (.schedulerError msg), scheduled) := by
  have hget : (get : Handler (List OnceTask)).run scheduled = (.ok scheduled, scheduled) := rfl
  rw [addTask, run_bind_of_ok hget]
  cases state.add scheduled task with
  | ok taskId => rfl
  | error msg => rfl

/-- A handler answers with an error and adds nothing, or adds the task of the
trigger the request was admitted to. -/
theorem handlePostWebhook_run {admits : WebhookTrigger → Bool} (refusal : WebError)
    (taskSources : TriggerTaskSources) (ns name : String) (headers : HeaderMap)
    (scheduled : List OnceTask) :
    (∃ error, (state.handlePostWebhook admits refusal taskSources ns name headers).run scheduled =
        (.error error, scheduled) ∧
      ∀ trigger, state.find name ns = some trigger → state.Authorized headers trigger →
        admits trigger = true →
        ∃ msg, state.add scheduled (state.task trigger taskSources) = .error msg) ∨
    ∃ trigger taskId, state.find name ns = some trigger ∧ state.Authorized headers trigger ∧
      admits trigger = true ∧
      state.add scheduled (state.task trigger taskSources) = .ok taskId ∧
      (state.handlePostWebhook admits refusal taskSources ns name headers).run scheduled =
        (.ok (.ofTaskId taskId), scheduled ++ [state.task trigger taskSources]) := by
  rw [handlePostWebhook, getTrigger]
  cases hfind : state.find name ns with
  | none =>
      left
      refine ⟨.triggerNotFound, rfl, ?_⟩
      intro trigger hfound
      cases hfound
  | some trigger =>
      obtain rfl := ns_of_find hfind
      rcases @checkHookAuthorization_run state headers trigger scheduled with
        ⟨result, hcheck, hiff⟩
      have hfound : (pure trigger : Handler WebhookTrigger).run scheduled =
          (.ok trigger, scheduled) := rfl
      rw [run_bind_of_ok hfound]
      cases result with
      | error error =>
          left
          refine ⟨error, run_bind_of_error hcheck, ?_⟩
          intro trigger' hfind' hauth
          rw [← Option.some.inj hfind'] at hauth
          exact absurd (hiff.mpr hauth) (fun h => by cases h)
      | ok _ =>
          rw [run_bind_of_ok hcheck]
          have hauth : state.Authorized headers trigger := hiff.mp rfl
          by_cases hadmits : admits trigger = true
          · rw [if_pos hadmits]
            cases hadd : state.add scheduled (state.task trigger taskSources) with
            | error msg =>
                left
                have htask : (state.addTask (state.task trigger taskSources)).run scheduled =
                    (.error (.schedulerError msg), scheduled) := by
                  rw [addTask_run, hadd]
                refine ⟨.schedulerError msg, run_bind_of_error htask, ?_⟩
                intro trigger' hfind' _ _
                rw [← Option.some.inj hfind']
                exact ⟨msg, hadd⟩
            | ok taskId =>
                right
                have htask : (state.addTask (state.task trigger taskSources)).run scheduled =
                    (.ok taskId, scheduled ++ [state.task trigger taskSources]) := by
                  rw [addTask_run, hadd]
                exact ⟨trigger, taskId, rfl, hauth, hadmits, hadd, run_bind_of_ok htask⟩
          · rw [if_neg hadmits]
            left
            refine ⟨refusal, rfl, ?_⟩
            intro trigger' hfind' _ hadmits'
            rw [← Option.some.inj hfind'] at hadmits'
            exact absurd hadmits' hadmits

theorem handlePostWebhook_gated {admits : WebhookTrigger → Bool} (refusal : WebError)
    (taskSources : TriggerTaskSources) (ns name : String) (headers : HeaderMap) :
    state.Gated (fun trigger => admits trigger = true) taskSources ns name headers
      (state.handlePostWebhook admits refusal taskSources ns name headers) where
  added_iff := by
    intro scheduled
    rcases handlePostWebhook_run refusal taskSources ns name headers scheduled with
      ⟨error, hrun, hrefused⟩ | ⟨trigger, taskId, hfind, hauth, hadmits, hadd, hrun⟩
    · rw [hrun]
      apply iff_of_false
      · rintro ⟨task, htask⟩
        simp at htask
      · rintro ⟨trigger, taskId, hfind, hauth, hadmits, hadd⟩
        rcases hrefused trigger hfind hauth hadmits with ⟨msg, hmsg⟩
        rw [hmsg] at hadd
        cases hadd
    · rw [hrun]
      exact iff_of_true ⟨_, rfl⟩ ⟨trigger, taskId, hfind, hauth, hadmits, hadd⟩
  added := by
    intro scheduled
    rcases handlePostWebhook_run refusal taskSources ns name headers scheduled with
      ⟨error, hrun, -⟩ | ⟨trigger, taskId, hfind, -, -, -, hrun⟩
    · left
      rw [hrun]
    · right
      exact ⟨trigger, hfind, by rw [hrun]⟩
  unchanged := by
    intro scheduled error herror
    rcases handlePostWebhook_run refusal taskSources ns name headers scheduled with
      ⟨error', hrun, -⟩ | ⟨trigger, taskId, -, -, -, -, hrun⟩
    · rw [hrun]
    · rw [hrun] at herror
      cases herror

/-- For every content of the trigger cache, the secrets and the configuration,
and whatever the scheduler answers, both handlers schedule work exactly for
authorized requests within the scope of an existing trigger, and at most one
task: for all sources, or for the requested one. -/
theorem handlers_gated (state : WebState) (ns trigger source : String) (headers : HeaderMap) :
    state.Gated (fun found => found.webhook.multiSource = true) .all ns trigger headers
      (state.handlePostTriggerWebhook ns trigger headers) ∧
    state.Gated (fun found => source ∈ found.trigger.sources.names) (.single source) ns trigger
      headers (state.handlePostSourceWebhook ns trigger source headers) := by
  apply And.intro
  · exact handlePostWebhook_gated .forbiddenMultiSource .all ns trigger headers
  · have h := @handlePostWebhook_gated state
      (fun found => found.trigger.sources.names.contains source) .sourceNotFound (.single source)
      ns trigger headers
    simp only [List.contains_iff_mem] at h
    exact h

end WebState

end GitEventsRunner.Web
