/-
# Tokens through the secrets cache

The handler of a trigger with a token reads the trigger and the name of the header,
and then waits for the secrets cache.  While it waits secrets are rotated on the API
server, other handlers fetch the same secret, entries expire, the trigger is edited
and clients hang up.

Here the handlers call the interleaved cache.  Seen from outside, the cache is not
there: every answer of a handler is the one it would give if it asked the API server
itself, at a time that is less than the expiration timeout before the request arrived
or later, or it is the error of a call that the server did not answer.  So a rotated
token is refused from one timeout on, and a token that stays is never refused.
-/

import GitEventsRunner.Secrets.Staleness
import GitEventsRunner.Web.Admission

namespace GitEventsRunner.Web.Tokens

open GitEventsRunner.Lib
open GitEventsRunner.Triggers
open GitEventsRunner.Secrets (SecretsCache SecretStore)
open GitEventsRunner.Web.Admission (Request)

/-! ## What a handler asks for -/

/-- What the handler of a request finds in its copy of the trigger cache. -/
def found (request : Request) (web : WebState) : Option WebhookTrigger :=
  { web with webhookTriggers := request.seen }.find request.trigger request.ns

/-- The secret a handler has to see: there is one if the trigger asks for a token and
the request has the header for it. -/
def asks (request : Request) (web : WebState) : Option TriggerWebhookAuthConfig :=
  (found request web).bind fun trigger => trigger.webhook.authConfig.filter fun authConfig =>
    (request.headers.get (web.authHeader authConfig)).isSome

/-- The call of the secrets cache for a key of a secret; no namespace has a slash. -/
def secretRequest (ns secretName key : String) : Option Secrets.Request :=
  if h : '/' ∉ ns.toList then some ⟨ns, secretName, key, h⟩ else none

/-- What the API server says about a key of a secret. -/
def direct (server : SecretStore) (ns secretName key : String) : Except Secrets.Error String :=
  match secretRequest ns secretName key with
  | some request => request.direct server
  | none => .error (.kubeError (some 404))

/-! ## The system -/

/-- A request whose handler waits: the surroundings as it read them when the request
arrived, and its call of the secrets cache if it makes one. -/
structure Visit where
  request : Request
  web : WebState
  arrivedAt : SystemTime
  call : Option ℕ
  header_eq : request.defaultAuthHeader = web.defaultAuthHeader := by rfl

/-- The scheduler's answer to a new task. -/
abbrev AddTask := List OnceTask → OnceTask → Except String String

/-- The handler of a visit, with the answers of the secrets cache and the scheduler. -/
def Visit.handler (visit : Visit) (add : AddTask)
    (secret : String → String → String → Except Secrets.Error String) :
    Handler WebResponseJson :=
  visit.request.handler { visit.web with add := add, secret := secret }

/-- An answered request, with the scheduler it met and the time of the answer.  A client that
hangs up while its task is handed to the scheduler does not hear the answer. -/
structure Answered where
  visit : Visit
  add : AddTask
  answeredAt : SystemTime
  response : Except WebError WebResponseJson

/-- The handlers with the secrets cache they share.  `failures` and `answered` only
record: the calls that the API server failed to answer, and the answers so far. -/
structure System where
  secrets : Secrets.State
  web : WebState
  visits : List Visit := []
  scheduled : List OnceTask := []
  failures : List ℕ := []
  answered : List Answered := []

/-- A request arrives, its handler comes to its answer, its client hangs up before that,
something around the handlers changes, or the secrets cache or its surroundings make a
step. -/
inductive Action
  | arrive (ns trigger : String) (source : Option String) (headers : HeaderMap)
  | answer (visit : ℕ)
  | leave (visit : ℕ)
  | change (web : WebState)
  | secrets (action : Secrets.Action)

namespace System

/-- A handler comes to its answer. -/
def finish (s : System) (index : ℕ) (visit : Visit)
    (secret : String → String → String → Except Secrets.Error String) : System :=
  let outcome := (visit.handler s.web.add secret).run s.scheduled
  { s with
    visits := s.visits.eraseIdx index
    scheduled := outcome.2
    answered := s.answered ++ [⟨visit, s.web.add, s.secrets.clock, outcome.1⟩] }

/-- One step of the system. -/
def step (timeout : Duration) (s : System) : Action → Option System
  | .arrive ns trigger source headers =>
      let request : Request :=
        ⟨ns, trigger, source, headers, s.web.webhookTriggers, s.web.defaultAuthHeader⟩
      match asks request s.web with
      | none =>
          some { s with visits := s.visits ++ [⟨request, s.web, s.secrets.clock, none, rfl⟩] }
      | some authConfig =>
          (secretRequest ns authConfig.secretRef.name authConfig.key).bind fun asked =>
            (s.secrets.step timeout (.call asked)).map fun secrets =>
              { s with
                secrets := secrets
                visits := s.visits ++
                  [⟨request, s.web, s.secrets.clock, some s.secrets.calls.length, rfl⟩] }
  | .answer index =>
      (s.visits[index]?).bind fun visit =>
        match visit.call with
        | none => some (s.finish index visit visit.web.secret)
        | some call =>
            (s.secrets.returns.find? fun ret => ret.id = call).map fun ret =>
              s.finish index visit fun _ _ _ => ret.result
  | .leave index =>
      (s.visits[index]?).map fun visit =>
        -- a call that is over is not abandoned
        let secrets := visit.call.bind fun call => s.secrets.step timeout (.abandon call)
        { s with secrets := secrets.getD s.secrets, visits := s.visits.eraseIdx index }
  | .change web => some { s with web := web }
  -- only handlers call the cache
  | .secrets (.call _) => none
  | .secrets action =>
      (s.secrets.step timeout action).map fun secrets =>
        { s with secrets := secrets, failures := s.failures ++ action.failed.toList }

theorem step_secrets {timeout : Duration} {s : System} {action : Secrets.Action}
    (h : ¬ ∃ request, action = .call request) :
    s.step timeout (.secrets action) = (s.secrets.step timeout action).map fun secrets =>
      { s with secrets := secrets, failures := s.failures ++ action.failed.toList } := by
  cases action with
  | call request => exact absurd ⟨request, rfl⟩ h
  | _ => rfl

/-- The system before any request, with an empty cache. -/
def start (clock : SystemTime) (server : SecretStore) (web : WebState) : System where
  secrets := .start clock server
  web := web

end System

/-! ## Handlers without a cache -/

/-- The time is not more than the timeout before the request arrived, and not after the
answer. -/
structure Answered.Covers (timeout : Duration) (answer : Answered) (time : SystemTime) : Prop where
  recent : answer.visit.arrivedAt - timeout < time
  past : time ≤ answer.answeredAt

/-- The answers and the tasks of handlers that ask the API server themselves, each at a
time of its own choice that its answer covers; a handler whose call fails says so and
schedules nothing. -/
inductive Direct (timeout : Duration) (history : List (SystemTime × SecretStore))
    (failures : List ℕ) : List Answered → List OnceTask → Prop
  | start : Direct timeout history failures [] []
  | checked {answered : List Answered} {scheduled : List OnceTask}
      (before : Direct timeout history failures answered scheduled) (answer : Answered)
      (time : SystemTime) (server : SecretStore) (held : (time, server) ∈ history)
      (covers : answer.Covers timeout time)
      (response : ((answer.visit.handler answer.add (direct server)).run scheduled).1 =
        answer.response) :
      Direct timeout history failures (answered ++ [answer])
        ((answer.visit.handler answer.add (direct server)).run scheduled).2
  | failed {answered : List Answered} {scheduled : List OnceTask}
      (before : Direct timeout history failures answered scheduled) (answer : Answered)
      (call : ℕ) (asked : answer.visit.call = some call) (failed : call ∈ failures)
      (response : answer.response = .error .authorizationError) :
      Direct timeout history failures (answered ++ [answer]) scheduled

theorem Direct.mono {timeout : Duration} {history history' : List (SystemTime × SecretStore)}
    {failures failures' : List ℕ} {answered : List Answered} {scheduled : List OnceTask}
    (h : Direct timeout history failures answered scheduled) (hhistory : history ⊆ history')
    (hfailures : failures ⊆ failures') :
    Direct timeout history' failures' answered scheduled := by
  induction h with
  | start => exact .start
  | checked _ answer time server held covers response ih =>
      exact .checked ih answer time server (hhistory held) covers response
  | failed _ answer call asked failed response ih =>
      exact .failed ih answer call asked (hfailures failed) response

/-! ## What a handler does with the secret -/

/-- A request that asks for no secret, or asks for this one. -/
theorem mem_asks {request : Request} {web : WebState} {authConfig : TriggerWebhookAuthConfig} :
    authConfig ∈ asks request web ↔ ∃ trigger, found request web = some trigger ∧
      trigger.webhook.authConfig = some authConfig ∧
      (request.headers.get (web.authHeader authConfig)).isSome = true := by
  simp [asks, Option.bind_eq_some_iff, Option.filter_eq_some_iff]

/-- The namespace of a trigger has no slash, so a handler can always make its call. -/
theorem secretRequest_isSome_of_asks {request : Request} {web : WebState}
    {authConfig : TriggerWebhookAuthConfig} (h : asks request web = some authConfig)
    (secretName key : String) : (secretRequest request.ns secretName key).isSome = true := by
  obtain ⟨trigger, hfound, -, -⟩ := mem_asks.mp h
  have hplain : '/' ∉ request.ns.toList := WebState.ns_of_find hfound ▸ trigger.trigger.ns_plain
  rw [secretRequest, dif_pos hplain]
  rfl

/-- No request is turned away. -/
theorem System.arrive_isSome (timeout : Duration) (s : System) (ns trigger : String)
    (source : Option String) (headers : HeaderMap) :
    (s.step timeout (.arrive ns trigger source headers)).isSome = true := by
  simp only [System.step]
  split
  · rfl
  · next authConfig hasks =>
      obtain ⟨asked, hasked⟩ := Option.isSome_iff_exists.mp
        (secretRequest_isSome_of_asks hasks authConfig.secretRef.name authConfig.key)
      rw [hasked]
      rfl

section Secret

variable {add : AddTask} {secret secret' : String → String → String → Except Secrets.Error String}

/-- What the check of a trigger looks at. -/
theorem checkHookAuthorization_congr {web : WebState} {webhook : TriggerWebhook} {ns : String}
    {headers : HeaderMap}
    (h : ∀ authConfig, webhook.authConfig = some authConfig →
      (headers.get (web.authHeader authConfig)).isSome = true →
      secret ns authConfig.secretRef.name authConfig.key =
        secret' ns authConfig.secretRef.name authConfig.key) :
    { web with add := add, secret := secret }.checkHookAuthorization headers webhook ns =
      { web with add := add, secret := secret' }.checkHookAuthorization headers webhook ns := by
  rw [WebState.checkHookAuthorization, WebState.checkHookAuthorization]
  cases hauth : webhook.authConfig with
  | none => rfl
  | some authConfig =>
      have hheader : ∀ other : String → String → String → Except Secrets.Error String,
          { web with add := add, secret := other }.authHeader authConfig =
            web.authHeader authConfig := fun _ => rfl
      simp only [hheader]
      cases hget : headers.get (web.authHeader authConfig) with
      | none => rfl
      | some header =>
          have hsome : (headers.get (web.authHeader authConfig)).isSome = true := by rw [hget]; rfl
          simp only [h authConfig hauth hsome]

/-- A handler looks at no secret but the one it asks for. -/
theorem handlePostWebhook_congr {web : WebState} {admits : WebhookTrigger → Bool}
    {refusal : WebError} {taskSources : TriggerTaskSources} {ns name : String}
    {headers : HeaderMap}
    (h : ∀ trigger authConfig, web.find name ns = some trigger →
      trigger.webhook.authConfig = some authConfig →
      (headers.get (web.authHeader authConfig)).isSome = true →
      secret ns authConfig.secretRef.name authConfig.key =
        secret' ns authConfig.secretRef.name authConfig.key) :
    { web with add := add, secret := secret }.handlePostWebhook admits refusal taskSources ns name
        headers =
      { web with add := add, secret := secret' }.handlePostWebhook admits refusal taskSources ns
        name headers := by
  have hfind : ∀ other : String → String → String → Except Secrets.Error String,
      { web with add := add, secret := other }.find name ns = web.find name ns := fun _ => rfl
  simp only [WebState.handlePostWebhook, WebState.getTrigger, hfind]
  cases hfound : web.find name ns with
  | none => rfl
  | some trigger =>
      simp only [pure_bind]
      rw [checkHookAuthorization_congr fun authConfig => h trigger authConfig hfound]
      rfl

/-- The handler of a request that was read in these surroundings. -/
theorem handler_eq {request : Request} {web : WebState}
    (hread : request.defaultAuthHeader = web.defaultAuthHeader) :
    request.handler { web with add := add, secret := secret } =
      match request.source with
      | none => { web with
          webhookTriggers := request.seen, add := add,
          secret := secret }.handlePostTriggerWebhook request.ns request.trigger request.headers
      | some source => { web with
          webhookTriggers := request.seen, add := add,
          secret := secret }.handlePostSourceWebhook request.ns request.trigger source
            request.headers := by
  cases request with
  | mk ns trigger source headers seen header =>
      obtain rfl : header = web.defaultAuthHeader := hread
      rfl

/-- A handler asks for no other secret. -/
theorem handler_congr {request : Request} {web : WebState}
    (hread : request.defaultAuthHeader = web.defaultAuthHeader)
    (h : ∀ authConfig, asks request web = some authConfig →
      secret request.ns authConfig.secretRef.name authConfig.key =
        secret' request.ns authConfig.secretRef.name authConfig.key) :
    request.handler { web with add := add, secret := secret } =
      request.handler { web with add := add, secret := secret' } := by
  have hasked : ∀ trigger authConfig,
      { web with webhookTriggers := request.seen }.find request.trigger request.ns = some trigger →
      trigger.webhook.authConfig = some authConfig →
      (request.headers.get (web.authHeader authConfig)).isSome = true →
      secret request.ns authConfig.secretRef.name authConfig.key =
        secret' request.ns authConfig.secretRef.name authConfig.key := by
    intro trigger authConfig hfound hauth hheader
    exact h authConfig (mem_asks.mpr ⟨trigger, hfound, hauth, hheader⟩)
  rw [handler_eq hread, handler_eq hread]
  cases request.source with
  | none => exact handlePostWebhook_congr hasked
  | some source => exact handlePostWebhook_congr hasked

/-- The outcome of a handler by what it hears about the token, if it asks for one and the
request has the header. -/
inductive Checked (header : List UInt8) (scheduled : List OnceTask) :
    Except Secrets.Error String → Except WebError WebResponseJson × List OnceTask → Prop
  | failed (error : Secrets.Error) :
      Checked header scheduled (.error error) (.error .authorizationError, scheduled)
  | refused (token : String) (differs : token.toUTF8.toList ≠ header) :
      Checked header scheduled (.ok token) (.error .forbidden, scheduled)
  | passed (token : String) (equal : token.toUTF8.toList = header)
      (outcome : Except WebError WebResponseJson × List OnceTask)
      (allowed : outcome.1 ≠ .error .forbidden) (clear : outcome.1 ≠ .error .authorizationError) :
      Checked header scheduled (.ok token) outcome

namespace Checked

variable {header : List UInt8} {scheduled : List OnceTask}
  {outcome : Except WebError WebResponseJson × List OnceTask}

theorem eq_of_error {error : Secrets.Error} (h : Checked header scheduled (.error error) outcome) :
    outcome = (.error .authorizationError, scheduled) := by
  cases h with
  | failed => rfl

/-- A handler that does not hear the token of the header refuses. -/
theorem refuses {heard : Except Secrets.Error String} (h : Checked header scheduled heard outcome)
    (hother : ∀ token, heard = .ok token → token.toUTF8.toList ≠ header) :
    outcome.1 = .error .forbidden ∨ outcome.1 = .error .authorizationError := by
  cases h with
  | failed error => exact Or.inr rfl
  | refused token differs => exact Or.inl rfl
  | passed token equal _ allowed clear => exact absurd equal (hother token rfl)

/-- A handler that hears the token of the header does not refuse. -/
theorem admits {token : String} (h : Checked header scheduled (.ok token) outcome)
    (hequal : token.toUTF8.toList = header) :
    outcome.1 ≠ .error .forbidden ∧ outcome.1 ≠ .error .authorizationError := by
  cases h with
  | refused _ differs => exact absurd hequal differs
  | passed _ equal _ allowed clear => exact ⟨allowed, clear⟩

end Checked

theorem handlePostWebhook_checked {web : WebState} {admits : WebhookTrigger → Bool}
    (refusal : WebError) {taskSources : TriggerTaskSources} {ns name : String}
    {headers : HeaderMap} {trigger : WebhookTrigger} {authConfig : TriggerWebhookAuthConfig}
    {header : List UInt8} (hfound : web.find name ns = some trigger)
    (hauth : trigger.webhook.authConfig = some authConfig)
    (hheader : headers.get (web.authHeader authConfig) = some header)
    (hforbidden : refusal ≠ .forbidden) (hauthorization : refusal ≠ .authorizationError)
    (scheduled : List OnceTask) :
    Checked header scheduled (web.secret ns authConfig.secretRef.name authConfig.key)
      ((web.handlePostWebhook admits refusal taskSources ns name headers).run scheduled) := by
  simp only [WebState.handlePostWebhook, WebState.getTrigger, hfound, pure_bind,
    WebState.checkHookAuthorization, hauth, hheader]
  cases web.secret ns authConfig.secretRef.name authConfig.key with
  | error error => exact .failed error
  | ok token =>
      by_cases hequal : token.toUTF8.toList = header
      · simp only [if_pos hequal, pure_bind]
        by_cases hadmits : admits trigger = true
        · rw [if_pos hadmits]
          have htask := @WebState.addTask_run web (web.task trigger taskSources) scheduled
          cases hadd : web.add scheduled (web.task trigger taskSources) with
          | ok taskId =>
              rw [hadd] at htask
              rw [WebState.run_bind_of_ok htask]
              apply Checked.passed token hequal
              · intro h
                cases h
              · intro h
                cases h
          | error msg =>
              rw [hadd] at htask
              rw [WebState.run_bind_of_error htask]
              apply Checked.passed token hequal
              · intro h
                cases h
              · intro h
                cases h
        · rw [if_neg hadmits]
          apply Checked.passed token hequal
          · exact fun h => hforbidden (Except.error.inj h)
          · exact fun h => hauthorization (Except.error.inj h)
      · simp only [if_neg hequal]
        exact .refused token hequal

theorem handler_checked {request : Request} {web : WebState} {trigger : WebhookTrigger}
    {authConfig : TriggerWebhookAuthConfig} {header : List UInt8}
    (hread : request.defaultAuthHeader = web.defaultAuthHeader)
    (hfound : found request web = some trigger)
    (hauth : trigger.webhook.authConfig = some authConfig)
    (hheader : request.headers.get (web.authHeader authConfig) = some header)
    (scheduled : List OnceTask) :
    Checked header scheduled (secret request.ns authConfig.secretRef.name authConfig.key)
      ((request.handler { web with add := add, secret := secret }).run scheduled) := by
  have hfound : { web with
      webhookTriggers := request.seen, add := add, secret := secret }.find request.trigger
        request.ns = some trigger := hfound
  rw [handler_eq hread]
  cases request.source with
  | none =>
      exact handlePostWebhook_checked .forbiddenMultiSource hfound hauth hheader nofun nofun
        scheduled
  | some source =>
      exact handlePostWebhook_checked .sourceNotFound hfound hauth hheader nofun nofun scheduled

/-- A handler whose secret is an error. -/
theorem handler_run_of_error {request : Request} {web : WebState}
    (hread : request.defaultAuthHeader = web.defaultAuthHeader)
    {authConfig : TriggerWebhookAuthConfig} (hasks : asks request web = some authConfig)
    {error : Secrets.Error}
    (hsecret : secret request.ns authConfig.secretRef.name authConfig.key = .error error)
    (scheduled : List OnceTask) :
    (request.handler { web with add := add, secret := secret }).run scheduled =
      (.error .authorizationError, scheduled) := by
  obtain ⟨trigger, hfound, hauth, hheader⟩ := mem_asks.mp hasks
  obtain ⟨header, hheader⟩ := Option.isSome_iff_exists.mp hheader
  have hchecked : Checked header scheduled (.error error)
      ((request.handler { web with add := add, secret := secret }).run scheduled) := by
    rw [← hsecret]
    exact handler_checked hread hfound hauth hheader scheduled
  exact hchecked.eq_of_error

end Secret

/-! ## Runs -/

/-- What a waiting handler can rely on: its request arrived in the past, it has called the
cache for the secret it needs, and that call is answered after the arrival. -/
structure Visit.Waits (secrets : Secrets.State) (visit : Visit) : Prop where
  arrived : visit.arrivedAt ≤ secrets.clock
  unasked : visit.call = none → asks visit.request visit.web = none
  asked : ∀ call, visit.call = some call → ∃ authConfig asked,
    asks visit.request visit.web = some authConfig ∧
      secretRequest visit.request.ns authConfig.secretRef.name authConfig.key = some asked ∧
      secrets.Asks call asked
  later : ∀ ret ∈ secrets.returns, visit.call = some ret.id → visit.arrivedAt ≤ ret.time

/-- The cache echoes the server, every waiting handler waits for its own secret, and the
answers so far are those of handlers that ask the server. -/
structure System.Sound (timeout : Duration) (s : System) : Prop where
  echoing : Secrets.Echoing timeout s.failures s.secrets
  visits : ∀ visit ∈ s.visits, visit.Waits s.secrets
  direct : Direct timeout s.secrets.history s.failures s.answered s.scheduled

section Keep

variable {timeout : Duration} {s t : System}

/-- No step of the cache disturbs a waiting handler. -/
theorem Visit.Waits.step {visit : Visit} {secrets secrets' : Secrets.State}
    {action : Secrets.Action} (h : visit.Waits secrets)
    (hstep : secrets.step timeout action = some secrets') : visit.Waits secrets' where
  arrived := h.arrived.trans (Secrets.clock_le_of_step hstep)
  unasked := h.unasked
  asked := by
    intro call hcall
    obtain ⟨authConfig, asked, hasks, hrequest, hthere⟩ := h.asked call hcall
    exact ⟨authConfig, asked, hasks, hrequest, hthere.step hstep⟩
  later := by
    intro ret hret hcall
    rcases Secrets.Fresh.of_step hstep hret with hold | hnew
    · exact h.later ret hold hcall
    · exact h.arrived.trans hnew.time.ge

/-- The API server says what the secret request of a handler would hear. -/
theorem direct_of_secretRequest {server : SecretStore} {ns secretName key : String}
    {asked : Secrets.Request} (h : secretRequest ns secretName key = some asked) :
    direct server ns secretName key = asked.direct server := by
  rw [direct, h]

namespace System.Sound

/-- A step of the cache and its surroundings. -/
theorem secrets (hpos : 0 < timeout) (h : s.Sound timeout) {action : Secrets.Action}
    {secrets' : Secrets.State} (hstep : s.secrets.step timeout action = some secrets') :
    Sound timeout
      { s with secrets := secrets', failures := s.failures ++ action.failed.toList } where
  echoing := h.echoing.step hpos hstep
  visits := fun visit hvisit => (h.visits visit hvisit).step hstep
  direct := h.direct.mono (Secrets.history_subset_of_step hstep) (List.subset_append_left _ _)

theorem secrets_of_not_failed (hpos : 0 < timeout) (h : s.Sound timeout)
    {action : Secrets.Action} {secrets' : Secrets.State}
    (hstep : s.secrets.step timeout action = some secrets') (haction : action.failed = none) :
    Sound timeout { s with secrets := secrets' } := by
  have hsound := h.secrets hpos hstep
  rw [haction, Option.toList_none, List.append_nil] at hsound
  exact hsound

/-- A handler begins to wait. -/
theorem wait (h : s.Sound timeout) {visit : Visit} (hvisit : visit.Waits s.secrets) :
    Sound timeout { s with visits := s.visits ++ [visit] } where
  echoing := h.echoing
  visits := by
    intro other hother
    rcases List.mem_append.mp hother with hold | hnew
    · exact h.visits other hold
    · rw [List.mem_singleton.mp hnew]
      exact hvisit
  direct := h.direct

/-- A new call has no answer yet. -/
theorem waits_of_call (h : s.Sound timeout) {request : Request}
    (hread : request.defaultAuthHeader = s.web.defaultAuthHeader)
    {authConfig : TriggerWebhookAuthConfig} {asked : Secrets.Request}
    (hasks : asks request s.web = some authConfig)
    (hrequest : secretRequest request.ns authConfig.secretRef.name authConfig.key = some asked) :
    Visit.Waits { s.secrets with calls := s.secrets.calls ++ [⟨asked, .reading⟩] }
      ⟨request, s.web, s.secrets.clock, some s.secrets.calls.length, hread⟩ where
  arrived := le_refl _
  unasked := nofun
  asked := by
    intro call hcall
    obtain rfl := Option.some.inj hcall
    exact ⟨authConfig, asked, hasks, hrequest, .reading, List.getElem?_concat_length⟩
  later := by
    intro ret hret hcall
    obtain ⟨phase, hphase⟩ := h.echoing.asked ret hret
    rw [← Option.some.inj hcall] at hphase
    exact absurd (List.getElem?_eq_some_iff.mp hphase).1 (lt_irrefl _)

/-- A handler goes away. -/
theorem eraseIdx (h : s.Sound timeout) (index : ℕ) :
    Sound timeout { s with visits := s.visits.eraseIdx index } where
  echoing := h.echoing
  visits := fun visit hvisit => h.visits visit (List.mem_of_mem_eraseIdx hvisit)
  direct := h.direct

/-- A handler answers as if it had asked the server. -/
theorem finish_checked (h : s.Sound timeout) (index : ℕ) {visit : Visit}
    {secret : String → String → String → Except Secrets.Error String} {time : SystemTime}
    {server : SecretStore} (hheld : (time, server) ∈ s.secrets.history)
    (hrecent : visit.arrivedAt - timeout < time) (hpast : time ≤ s.secrets.clock)
    (hsame : visit.handler s.web.add secret = visit.handler s.web.add (Tokens.direct server)) :
    Sound timeout (s.finish index visit secret) where
  echoing := h.echoing
  visits := (h.eraseIdx index).visits
  direct := by
    rw [System.finish, hsame]
    exact .checked h.direct _ time server hheld ⟨hrecent, hpast⟩ rfl

/-- A handler answers that its call failed. -/
theorem finish_failed (h : s.Sound timeout) (index : ℕ) {visit : Visit} {call : ℕ}
    (hcall : visit.call = some call) (hfailed : call ∈ s.failures)
    {secret : String → String → String → Except Secrets.Error String}
    (hrun : (visit.handler s.web.add secret).run s.scheduled =
      (.error .authorizationError, s.scheduled)) :
    Sound timeout (s.finish index visit secret) where
  echoing := h.echoing
  visits := (h.eraseIdx index).visits
  direct := by
    rw [System.finish, hrun]
    exact .failed h.direct _ call hcall hfailed rfl

/-- A handler that has no call to wait for. -/
theorem finish_unasked (hpos : 0 < timeout) (h : s.Sound timeout) (index : ℕ) {visit : Visit}
    (hvisit : visit.Waits s.secrets) (hcall : visit.call = none) :
    Sound timeout (s.finish index visit visit.web.secret) := by
  apply h.finish_checked index h.echoing.truthful.present _ (le_refl _)
  · apply handler_congr visit.header_eq
    intro authConfig hasks
    rw [hvisit.unasked hcall] at hasks
    cases hasks
  · have hpast := Int.sub_lt_self s.secrets.clock (Int.natCast_pos.mpr hpos)
    exact lt_of_le_of_lt (Int.sub_le_sub_right hvisit.arrived _) hpast

/-- A handler whose call has been answered. -/
theorem finish_asked (h : s.Sound timeout) (index : ℕ) {visit : Visit}
    (hvisit : visit.Waits s.secrets) {ret : Secrets.Returned} (hret : ret ∈ s.secrets.returns)
    (hcall : visit.call = some ret.id) :
    Sound timeout (s.finish index visit fun _ _ _ => ret.result) := by
  obtain ⟨authConfig, asked, hasks, hrequest, before, hbefore⟩ := hvisit.asked _ hcall
  obtain ⟨after, hafter⟩ := h.echoing.asked ret hret
  -- the answer is to the request of this handler
  obtain rfl : asked = ret.request := by
    rw [hbefore] at hafter
    exact congrArg Secrets.Call.request (Option.some.inj hafter)
  rcases h.echoing.echoes ret hret with ⟨hfailed, error, herror⟩ | hechoes
  · apply h.finish_failed index hcall hfailed
    exact handler_run_of_error visit.header_eq hasks herror s.scheduled
  · obtain ⟨time, server, hmem, hrecent, hpast, hresult⟩ := hechoes
    have hlater := hvisit.later ret hret hcall
    apply h.finish_checked index hmem (lt_of_le_of_lt (Int.sub_le_sub_right hlater _) hrecent)
      (hpast.trans (h.echoing.past ret hret))
    apply handler_congr visit.header_eq
    intro authConfig' hasks'
    obtain rfl := Option.some.inj (hasks.symm.trans hasks')
    rw [direct_of_secretRequest hrequest, hresult]

/-- Every step keeps the system sound. -/
theorem step (hpos : 0 < timeout) (h : s.Sound timeout) {action : Action}
    (hstep : s.step timeout action = some t) : t.Sound timeout := by
  cases action with
  | arrive ns trigger source headers =>
      simp only [System.step] at hstep
      split at hstep
      · next hasks =>
          obtain rfl := Option.some.inj hstep
          exact h.wait ⟨le_refl _, fun _ => hasks, nofun, fun ret _ hcall => nomatch hcall⟩
      · next authConfig hasks =>
          obtain ⟨asked, hrequest, hcall⟩ := Option.bind_eq_some_iff.mp hstep
          obtain ⟨secrets', hsecrets, rfl⟩ := Option.map_eq_some_iff.mp hcall
          have hsound := h.secrets_of_not_failed hpos hsecrets rfl
          obtain rfl := Option.some.inj hsecrets
          exact hsound.wait (h.waits_of_call rfl hasks hrequest)
  | answer index =>
      simp only [System.step] at hstep
      obtain ⟨visit, hvisit, hanswer⟩ := Option.bind_eq_some_iff.mp hstep
      have hwaits := h.visits visit (List.mem_of_getElem? hvisit)
      split at hanswer
      · next hcall =>
          obtain rfl := Option.some.inj hanswer
          exact h.finish_unasked hpos index hwaits hcall
      · next call hcall =>
          obtain ⟨ret, hfind, rfl⟩ := Option.map_eq_some_iff.mp hanswer
          have hid := List.find?_some hfind
          simp only [decide_eq_true_eq] at hid
          exact h.finish_asked index hwaits (List.mem_of_find?_eq_some hfind) (hid ▸ hcall)
  | leave index =>
      obtain ⟨visit, -, rfl⟩ := Option.map_eq_some_iff.mp hstep
      cases habandon : visit.call.bind fun call => s.secrets.step timeout (.abandon call) with
      | none => exact h.eraseIdx index
      | some secrets' =>
          obtain ⟨call, -, hsecrets⟩ := Option.bind_eq_some_iff.mp habandon
          exact (h.secrets_of_not_failed hpos hsecrets rfl).eraseIdx index
  | change web =>
      obtain rfl := Option.some.inj hstep
      exact ⟨h.echoing, h.visits, h.direct⟩
  | secrets action =>
      by_cases hcall : ∃ request, action = .call request
      · obtain ⟨request, rfl⟩ := hcall
        cases hstep
      · rw [System.step_secrets hcall] at hstep
        obtain ⟨secrets', hsecrets, rfl⟩ := Option.map_eq_some_iff.mp hstep
        exact h.secrets hpos hsecrets

theorem start (timeout : Duration) (clock : SystemTime) (server : SecretStore) (web : WebState) :
    Sound timeout (System.start clock server web) where
  echoing := Secrets.start_echoing timeout clock server
  visits := by
    intro visit hvisit
    cases hvisit
  direct := .start

theorem run (cache : SecretsCache) (clock : SystemTime) (server : SecretStore) (web : WebState)
    {actions : List Action}
    (hrun : Lib.run (System.step cache.expirationTimeout) (System.start clock server web) actions =
      some t) : t.Sound cache.expirationTimeout := by
  apply invariant_of_run _ hrun (start _ clock server web)
  intro s a t hstep h
  exact h.step cache.expires hstep

end System.Sound

end Keep

/-- In every interleaving of requests, answers, lost clients, edits of the triggers, steps of
the secrets cache and changes of the secrets, the handlers answer and schedule as if there
were no cache: each as the API server would have had it at a time that its answer covers,
unless the server did not answer its own call. -/
theorem answers_as_if_direct (cache : SecretsCache) (clock : SystemTime) (server : SecretStore)
    (web : WebState) {actions : List Action} {t : System}
    (hrun : run (System.step cache.expirationTimeout) (System.start clock server web) actions =
      some t) :
    Direct cache.expirationTimeout t.secrets.history t.failures t.answered t.scheduled :=
  (System.Sound.run cache clock server web hrun).direct

/-- The token of `hook`. -/
def hookAuth : TriggerWebhookAuthConfig where
  secretRef := ⟨"hook"⟩
  key := "token"

/-- A trigger whose token is in the secret `hook`. -/
def hook : WebhookTrigger where
  trigger := Shared.twoSources
  webhook := { multiSource := true, authConfig := some hookAuth }
  kind_eq := Admission.twoSources_kind

/-- Surroundings with this trigger and a scheduler that takes every task. -/
def hookWeb : WebState where
  webhookTriggers := [hook]
  secret _ _ _ := .ok ""
  add _ _ := .ok "task"
  sourceCloneFolder := "/tmp"

/-- A request that carries the token `old`. -/
def withOldToken : Action :=
  .arrive "default" "trigger" none [("x-trigger-auth", "old".toUTF8.toList)]

/-- The token is fetched and rotated; one request still meets the cached one, the next comes
when the entry has expired. -/
def rotation : List Action :=
  [withOldToken, .secrets (.read 0), .secrets (.acquire 0), .secrets (.fetch 0 none), .answer 0,
    .secrets (.change "default" "hook"
      (some ⟨some ((∅ : Secrets.SecretData).insert "token" "new".toUTF8.toList)⟩)),
    .secrets (.tick 1), withOldToken, .secrets (.read 1), .answer 0,
    .secrets (.tick 9), withOldToken, .secrets (.read 2), .secrets (.acquire 2),
    .secrets (.fetch 2 none), .answer 0]

/-- The server at the start of `rotation`. -/
def hookServer : SecretStore :=
  (∅ : SecretStore).insert ("default", "hook")
    ⟨some ((∅ : Secrets.SecretData).insert "token" "old".toUTF8.toList)⟩

theorem answers_as_if_direct_rotation :
    ∃ t, run (System.step 10) (System.start 0 hookServer hookWeb) rotation = some t ∧
      t.answered.map Answered.response =
        [.ok (.ofTaskId "task"), .ok (.ofTaskId "task"), .error .forbidden] ∧
      Direct 10 t.secrets.history t.failures t.answered t.scheduled := by
  have hresponses : (run (System.step 10) (System.start 0 hookServer hookWeb) rotation).map
      (fun t => t.answered.map Answered.response) =
        some [.ok (.ofTaskId "task"), .ok (.ofTaskId "task"), .error .forbidden] := by
    decide +kernel
  obtain ⟨t, hrun, hresponse⟩ := Option.map_eq_some_iff.mp hresponses
  exact ⟨t, hrun, hresponse, answers_as_if_direct ⟨10, by decide⟩ 0 hookServer hookWeb hrun⟩

/-! ## Rotated tokens -/

/-- The server holds the token of the trigger, and it is the one in the header. -/
def Opens (server : SecretStore) (ns : String) (authConfig : TriggerWebhookAuthConfig)
    (header : List UInt8) : Prop :=
  ∃ token, direct server ns authConfig.secretRef.name authConfig.key = .ok token ∧
    token.toUTF8.toList = header

/-- What an answer to a request with a header for the token says about the token. -/
structure Answered.Decided (timeout : Duration) (history : List (SystemTime × SecretStore))
    (failures : List ℕ) (authConfig : TriggerWebhookAuthConfig) (header : List UInt8)
    (answer : Answered) : Prop where
  /-- A token that the server did not have at all is refused. -/
  revoked : (∀ time server, (time, server) ∈ history → answer.Covers timeout time →
      ¬ Opens server answer.visit.request.ns authConfig header) →
    answer.response = .error .forbidden ∨ answer.response = .error .authorizationError
  /-- A token that the server had all the time is not refused. -/
  kept : (∀ time server, (time, server) ∈ history → answer.Covers timeout time →
      Opens server answer.visit.request.ns authConfig header) →
    answer.response ≠ .error .forbidden ∧ (answer.response = .error .authorizationError →
      ∃ call, answer.visit.call = some call ∧ call ∈ failures)

/-- Where an answer comes from. -/
theorem Direct.of_mem {timeout : Duration} {history : List (SystemTime × SecretStore)}
    {failures : List ℕ} {answered : List Answered} {scheduled : List OnceTask}
    (h : Direct timeout history failures answered scheduled) {answer : Answered}
    (hmem : answer ∈ answered) :
    (∃ time server scheduled, (time, server) ∈ history ∧ answer.Covers timeout time ∧
      ((answer.visit.handler answer.add (direct server)).run scheduled).1 = answer.response) ∨
    answer.response = .error .authorizationError ∧
      ∃ call, answer.visit.call = some call ∧ call ∈ failures := by
  induction h with
  | start => cases hmem
  | checked _ last time server held covers response ih =>
      rcases List.mem_append.mp hmem with hold | hnew
      · exact ih hold
      · obtain rfl := List.mem_singleton.mp hnew
        exact Or.inl ⟨time, server, _, held, covers, response⟩
  | failed _ last call asked failed response ih =>
      rcases List.mem_append.mp hmem with hold | hnew
      · exact ih hold
      · obtain rfl := List.mem_singleton.mp hnew
        exact Or.inr ⟨response, call, asked, failed⟩

theorem Answered.decided {timeout : Duration} {history : List (SystemTime × SecretStore)}
    {failures : List ℕ} {answered : List Answered} {scheduled : List OnceTask}
    (h : Direct timeout history failures answered scheduled) {answer : Answered}
    (hmem : answer ∈ answered) {trigger : WebhookTrigger} {authConfig : TriggerWebhookAuthConfig}
    {header : List UInt8} (hfound : found answer.visit.request answer.visit.web = some trigger)
    (hauth : trigger.webhook.authConfig = some authConfig)
    (hheader : answer.visit.request.headers.get (answer.visit.web.authHeader authConfig) =
      some header) :
    answer.Decided timeout history failures authConfig header := by
  rcases h.of_mem hmem with ⟨time, server, scheduled, hheld, hcovers, hresponse⟩ |
    ⟨hresponse, hfailed⟩
  · have hchecked : Checked header scheduled _
        ((answer.visit.handler answer.add (direct server)).run scheduled) :=
      handler_checked answer.visit.header_eq hfound hauth hheader scheduled
    constructor
    case revoked =>
      intro hcloses
      rw [← hresponse]
      apply hchecked.refuses
      intro token htoken hequal
      exact hcloses time server hheld hcovers ⟨token, htoken, hequal⟩
    case kept =>
      intro hopens
      obtain ⟨token, htoken, hequal⟩ := hopens time server hheld hcovers
      rw [htoken] at hchecked
      obtain ⟨hallowed, hclear⟩ := hchecked.admits hequal
      rw [← hresponse]
      exact ⟨hallowed, fun h => absurd h hclear⟩
  · constructor
    case revoked => exact fun _ => Or.inr hresponse
    case kept =>
      intro _
      rw [hresponse]
      exact ⟨nofun, fun _ => hfailed⟩

/-- In every run, a token that the server has not held since one timeout before the request
arrived is refused, and one that it has held since then is not refused unless the server did
not answer the handler's own call. -/
theorem tokens_decide (cache : SecretsCache) (clock : SystemTime) (server : SecretStore)
    (web : WebState) {actions : List Action} {t : System}
    (hrun : run (System.step cache.expirationTimeout) (System.start clock server web) actions =
      some t) {answer : Answered} (hmem : answer ∈ t.answered) {trigger : WebhookTrigger}
    (hfound : found answer.visit.request answer.visit.web = some trigger)
    {authConfig : TriggerWebhookAuthConfig} (hauth : trigger.webhook.authConfig = some authConfig)
    {header : List UInt8}
    (hheader : answer.visit.request.headers.get (answer.visit.web.authHeader authConfig) =
      some header) :
    answer.Decided cache.expirationTimeout t.secrets.history t.failures authConfig header := by
  have hsound := System.Sound.run cache clock server web hrun
  exact Answered.decided hsound.direct hmem hfound hauth hheader

/-- The last request of `rotation`. -/
theorem tokens_decide_rotation :
    ∃ t answer, run (System.step 10) (System.start 0 hookServer hookWeb) rotation = some t ∧
      answer ∈ t.answered ∧ answer.response = .error .forbidden ∧
      answer.Decided 10 t.secrets.history t.failures hookAuth "old".toUTF8.toList := by
  have hfacts : ((run (System.step 10) (System.start 0 hookServer hookWeb) rotation).bind
      fun t => (t.answered[2]?).map fun answer => (answer.response,
        found answer.visit.request answer.visit.web,
        answer.visit.request.headers.get (answer.visit.web.authHeader hookAuth))) =
      some (.error .forbidden, some hook, some "old".toUTF8.toList) := by
    decide +kernel
  obtain ⟨t, hrun, hfacts⟩ := Option.bind_eq_some_iff.mp hfacts
  obtain ⟨answer, hanswer, hfacts⟩ := Option.map_eq_some_iff.mp hfacts
  simp only [Prod.mk.injEq] at hfacts
  obtain ⟨hresponse, hfound, hheader⟩ := hfacts
  have hmem := List.mem_of_getElem? hanswer
  exact ⟨t, answer, hrun, hmem, hresponse,
    tokens_decide ⟨10, by decide⟩ 0 hookServer hookWeb hrun hmem hfound rfl hheader⟩

end GitEventsRunner.Web.Tokens
