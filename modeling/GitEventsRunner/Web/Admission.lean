/-
# From a request to the action

A request for one source is admitted if the trigger lists the source.  The
handler finds that out from the version of the trigger it read, and the task it
schedules reads the trigger again, when a worker is free.  In between the trigger
can be edited any number of times.

Here requests, changes of everything around the handlers, and the steps of the
scheduled tasks are interleaved in any order.  A task for all sources takes them
from the version it read itself.  A task for one source takes the source from the
request and does not look whether the trigger still has it.
-/

import GitEventsRunner.Web.Handlers

namespace GitEventsRunner.Web.Admission

open GitEventsRunner.Lib
open GitEventsRunner.Triggers

/-- A request whose handler has read the trigger cache and the name of the header: to
which trigger it goes, with which source if it names one, and what the handler read. -/
structure Request where
  ns : String
  trigger : String
  source : Option String
  headers : HeaderMap
  seen : List WebhookTrigger
  defaultAuthHeader : String

/-- A scheduled task: the version of the trigger it read, once it has looked for
one, and what is left of its body. -/
structure Thread where
  task : OnceTask
  version : Option (Option Trigger)
  rest : TriggerTask Unit

/-- The surroundings of the handlers with the requests they are at, the tasks they
have scheduled, and these tasks at work. -/
structure System where
  web : WebState
  requests : List Request := []
  scheduled : List OnceTask := []
  threads : List Thread := []

/-- A request arrives, its handler comes to its answer, something around the
handlers changes, or a task performs its next effect. -/
inductive Action
  | arrive (ns trigger : String) (source : Option String) (headers : HeaderMap)
  | answer (request : ℕ)
  | change (web : WebState)
  | perform (thread : ℕ) (oracle : (e : Effect) → e.Reply)

variable (chrono : Rfc3339.Codec)

/-- The body of a task that no worker has begun. -/
def Thread.ofTask (task : OnceTask) : Thread where
  task := task
  version := none
  rest := task.trigger.createTriggerTask chrono task.request.taskSources
    task.request.sourceCloneFolder

/-- The surroundings of a handler, with the cache and the header as it read them. -/
def Request.surroundings (request : Request) (web : WebState) : WebState :=
  { web with webhookTriggers := request.seen, defaultAuthHeader := request.defaultAuthHeader }

/-- The handler of a request; it awaits the secret and the scheduler. -/
def Request.handler (request : Request) (web : WebState) : Handler WebResponseJson :=
  match request.source with
  | none => (request.surroundings web).handlePostTriggerWebhook request.ns request.trigger
      request.headers
  | some source => (request.surroundings web).handlePostSourceWebhook request.ns request.trigger
      source request.headers

/-- The cache answers a lookup of the trigger; anything may come of other effects. -/
def reply (web : WebState) (oracle : (e : Effect) → e.Reply) : (e : Effect) → e.Reply
  | .getTrigger name (some ns) => (web.find name ns).map WebhookTrigger.trigger
  | e => oracle e

/-- The version of the trigger that an effect read. -/
def versionRead : (e : Effect) → e.Reply → Option Trigger
  | .getTrigger _ _, found => found
  | _, _ => none

namespace System

/-- One step of the system. -/
def step (s : System) : Action → Option System
  | .arrive ns trigger source headers =>
      some { s with requests := s.requests ++
        [⟨ns, trigger, source, headers, s.web.webhookTriggers, s.web.defaultAuthHeader⟩] }
  | .answer request =>
      (s.requests[request]?).map fun answered =>
        let scheduled := ((answered.handler s.web).run s.scheduled).2
        { s with
          requests := s.requests.eraseIdx request
          scheduled := scheduled
          threads := s.threads ++
            (scheduled.drop s.scheduled.length).map (Thread.ofTask chrono) }
  | .change web => some { s with web := web }
  | .perform thread oracle =>
      match s.threads[thread]? with
      | some ⟨task, version, .call e k⟩ =>
          let r := reply s.web oracle e
          let next : Thread := ⟨task, version.or (some (versionRead e r)), k r⟩
          some { s with threads := s.threads.set thread next }
      | _ => none

end System

/-! ## The property and the condition -/

/-- The next effect of a task executes the action for a source of the version the
task read, if it executes one at all. -/
def Thread.configured (thread : Thread) : Bool :=
  match thread.rest with
  | .call (.execute call _) _ =>
      match thread.version with
      | some (some version) => version.sources.names.contains call.sourceName
      | _ => false
  | _ => true

/-- A step of a task executes the action for configured sources only. -/
def ExecutesConfigured (s : System) (a : Action) (_ : System) : Prop :=
  match a with
  | .perform thread _ => (s.threads[thread]?).all Thread.configured = true
  | _ => True

instance (s : System) (a : Action) (t : System) : Decidable (ExecutesConfigured s a t) :=
  match a with
  | .perform thread _ =>
      inferInstanceAs (Decidable ((s.threads[thread]?).all Thread.configured = true))
  | .arrive .. | .answer _ | .change _ => isTrue trivial

/-- A source of a trigger that somebody asks for. -/
structure Asked where
  ns : String
  trigger : String
  source : String

/-- The cached trigger lists the source, if there is one. -/
def lists (triggers : List WebhookTrigger) (asked : Asked) : Bool :=
  (triggers.find? fun cached =>
    cached.trigger.name = asked.trigger ∧ cached.trigger.ns = asked.ns).all fun found =>
      found.trigger.sources.names.contains asked.source

/-- What a task asks for that has not read the trigger yet. -/
def Thread.asked (thread : Thread) : Option Asked :=
  match thread.version, thread.task.request.taskSources with
  | none, .single source => some ⟨thread.task.trigger.ns, thread.task.trigger.name, source⟩
  | _, _ => none

/-- What a request asks for whose handler read a version that lists the source. -/
def Request.asked (request : Request) : Option Asked :=
  request.source.bind fun source =>
    if lists request.seen ⟨request.ns, request.trigger, source⟩ then
      some ⟨request.ns, request.trigger, source⟩
    else none

/-- The sources that are asked for. -/
def System.asked (s : System) : List Asked :=
  s.threads.filterMap Thread.asked ++ s.requests.filterMap Request.asked

/-- No change of the cache takes a source from a trigger while it is asked for. -/
def KeepsAsked (s : System) (a : Action) (_ : System) : Prop :=
  match a with
  | .change web => s.asked.all (lists web.webhookTriggers) = true
  | _ => True

instance (s : System) (a : Action) (t : System) : Decidable (KeepsAsked s a t) :=
  match a with
  | .change web => inferInstanceAs (Decidable (s.asked.all (lists web.webhookTriggers) = true))
  | .arrive .. | .answer _ | .perform .. => isTrue trivial

/-! ## The handlers -/

/-- A request that asks for a source saw a version that lists it. -/
theorem Request.lists_of_asked {request : Request} {asked : Asked}
    (h : request.asked = some asked) : lists request.seen asked = true := by
  obtain ⟨source, -, hsource⟩ := Option.bind_eq_some_iff.mp h
  split at hsource
  · obtain rfl := Option.some.inj hsource
    assumption
  · cases hsource

/-- A handler schedules nothing, or one task that asks for what the request asked
for. -/
theorem Request.handler_run (request : Request) (web : WebState) (scheduled : List OnceTask) :
    ((request.handler web).run scheduled).2 = scheduled ∨
      ∃ task, ((request.handler web).run scheduled).2 = scheduled ++ [task] ∧
        (Thread.ofTask chrono task).asked = request.asked := by
  unfold handler Request.asked
  cases request.source with
  | none =>
      rcases WebState.handlePostWebhook_run .forbiddenMultiSource .all request.ns request.trigger
        request.headers scheduled with ⟨error, hrun, -⟩ | ⟨found, taskId, hfind, -, -, -, hrun⟩
      · exact Or.inl (congrArg Prod.snd hrun)
      · exact Or.inr ⟨_, congrArg Prod.snd hrun, rfl⟩
  | some source =>
      rcases WebState.handlePostWebhook_run .sourceNotFound (.single source) request.ns
        request.trigger request.headers scheduled with
        ⟨error, hrun, -⟩ | ⟨found, taskId, hfind, -, hadmits, -, hrun⟩
      · exact Or.inl (congrArg Prod.snd hrun)
      · refine Or.inr ⟨_, congrArg Prod.snd hrun, ?_⟩
        have hnamed := List.find?_some hfind
        simp only [decide_eq_true_eq] at hnamed
        have hlists : lists request.seen ⟨request.ns, request.trigger, source⟩ = true := by
          show ((request.surroundings web).find request.trigger request.ns).all _ = true
          rw [hfind]
          exact hadmits
        rw [Option.bind_some, if_pos hlists, ← hnamed.1, ← hnamed.2]
        rfl

/-! ## The tasks -/

/-- An effect executes the action for a source of the version, if it executes it
at all. -/
def ExecutesFor (version : Option Trigger) : Effect → Prop
  | .execute call _ => ∃ trigger, version = some trigger ∧
      call.sourceName ∈ trigger.sources.names
  | _ => True

/-- A task has not begun, or it executes the action for sources of the version it
read. -/
inductive Thread.Sound : Thread → Prop
  | waiting (task : OnceTask) : Sound (Thread.ofTask chrono task)
  | begun (task : OnceTask) (version : Option Trigger) (rest : TriggerTask Unit)
      (hrest : rest.All (ExecutesFor version)) : Sound ⟨task, some version, rest⟩

variable {chrono}

theorem Thread.Sound.configured {thread : Thread} (h : thread.Sound chrono) :
    thread.configured = true := by
  cases h with
  | waiting task => rfl
  | begun task version rest hrest =>
      cases rest with
      | pure _ => rfl
      | call e k =>
          cases e with
          | execute call checked =>
              obtain ⟨trigger, rfl, hmem⟩ := hrest.1
              exact List.contains_iff_mem.mpr hmem
          | _ => rfl

/-- What a task does after it read the trigger. -/
theorem runTask_executesFor (self trigger : Trigger) (taskSources : TriggerTaskSources)
    (sourceCloneFolder suffix : String)
    (hsingle : ∀ source, taskSources = .single source → source ∈ trigger.sources.names) :
    (self.runTask chrono taskSources sourceCloneFolder trigger suffix).All
      (ExecutesFor (some trigger)) := by
  apply self.runTask_all chrono taskSources sourceCloneFolder trigger suffix trivial
    (fun _ => trivial) trivial trivial
  intro source hsource e he
  cases he with
  | execute commit checked =>
      refine ⟨trigger, rfl, ?_⟩
      cases taskSources with
      | all => exact hsource
      | single requested =>
          rw [← List.mem_singleton.mp hsource] at hsingle
          exact hsingle source rfl
  | _ => trivial

/-- A task that begins while the trigger, if it is there, lists the source asked
for. -/
theorem Thread.Sound.begin {web : WebState} {task : OnceTask} {e : Effect}
    {k : e.Reply → TriggerTask Unit} (oracle : (e : Effect) → e.Reply)
    (hrest : (Thread.ofTask chrono task).rest = .call e k)
    (hlists : ∀ source, task.request.taskSources = .single source →
      lists web.webhookTriggers ⟨task.trigger.ns, task.trigger.name, source⟩ = true) :
    Thread.Sound chrono
      ⟨task, some (versionRead e (reply web oracle e)), k (reply web oracle e)⟩ := by
  cases hrest
  apply Thread.Sound.begun
  generalize hread : reply web oracle
    (Effect.getTrigger task.trigger.name (some task.trigger.ns)) = read
  cases read with
  | none => trivial
  | some trigger =>
      obtain ⟨found, hfound, rfl⟩ := Option.map_eq_some_iff.mp hread
      apply Prog.all_perform_bind trivial
      intro suffix
      apply runTask_executesFor
      intro source hsource
      have hlisted : (web.find task.trigger.name task.trigger.ns).all _ = true :=
        hlists source hsource
      rw [hfound] at hlisted
      exact List.contains_iff_mem.mp hlisted

/-- A task that goes on. -/
theorem Thread.Sound.next {task : OnceTask} {version : Option Trigger} {e : Effect}
    {k : e.Reply → TriggerTask Unit} (h : Thread.Sound chrono ⟨task, some version, .call e k⟩)
    (r : e.Reply) : Thread.Sound chrono ⟨task, some version, k r⟩ := by
  cases h with
  | begun _ _ _ hrest => exact .begun task version (k r) (hrest.2 r)

/-! ## Runs -/

variable (chrono) in
/-- The cache lists every source that is asked for, and every task executes the
action for sources of the version it read. -/
structure System.Sound (s : System) : Prop where
  asked : ∀ asked ∈ s.asked, lists s.web.webhookTriggers asked = true
  threads : ∀ thread ∈ s.threads, thread.Sound chrono

theorem mem_asked {s : System} {asked : Asked} :
    asked ∈ s.asked ↔ (∃ thread ∈ s.threads, thread.asked = some asked) ∨
      ∃ request ∈ s.requests, request.asked = some asked := by
  rw [System.asked, List.mem_append, List.mem_filterMap, List.mem_filterMap]

namespace System.Sound

variable {s t : System}

theorem arrive (h : s.Sound chrono) (ns trigger : String) (source : Option String)
    (headers : HeaderMap) :
    Sound chrono { s with requests := s.requests ++
      [⟨ns, trigger, source, headers, s.web.webhookTriggers, s.web.defaultAuthHeader⟩] } where
  asked := by
    intro asked hasked
    rcases mem_asked.mp hasked with hthread | ⟨request, hmem, hrequest⟩
    · exact h.asked asked (mem_asked.mpr (Or.inl hthread))
    · rcases List.mem_append.mp hmem with hold | hnew
      · exact h.asked asked (mem_asked.mpr (Or.inr ⟨request, hold, hrequest⟩))
      · rw [List.mem_singleton.mp hnew] at hrequest
        exact Request.lists_of_asked hrequest
  threads := h.threads

theorem answer (h : s.Sound chrono) {index : ℕ} {request : Request}
    (hrequest : s.requests[index]? = some request) :
    Sound chrono { s with
      requests := s.requests.eraseIdx index
      scheduled := ((request.handler s.web).run s.scheduled).2
      threads := s.threads ++ (((request.handler s.web).run s.scheduled).2.drop
        s.scheduled.length).map (Thread.ofTask chrono) } := by
  have hmem := List.mem_of_getElem? hrequest
  have herase : ∀ asked, (∃ other ∈ s.requests.eraseIdx index, other.asked = some asked) →
      lists s.web.webhookTriggers asked = true := by
    rintro asked ⟨other, hother, hasked⟩
    exact h.asked asked (mem_asked.mpr (Or.inr ⟨other, List.mem_of_mem_eraseIdx hother, hasked⟩))
  rcases request.handler_run chrono s.web s.scheduled with hsame | ⟨task, hadded, hsame⟩
  · rw [hsame, List.drop_length, List.map_nil, List.append_nil]
    constructor
    case asked =>
      intro asked hasked
      rcases mem_asked.mp hasked with hthread | hother
      · exact h.asked asked (mem_asked.mpr (Or.inl hthread))
      · exact herase asked hother
    case threads => exact h.threads
  · rw [hadded, List.drop_left, List.map_singleton]
    constructor
    case asked =>
      intro asked hasked
      rcases mem_asked.mp hasked with ⟨thread, hthread, hwaiting⟩ | hother
      · rcases List.mem_append.mp hthread with hold | hnew
        · exact h.asked asked (mem_asked.mpr (Or.inl ⟨thread, hold, hwaiting⟩))
        · -- the new task asks for what the request asked for
          rw [List.mem_singleton.mp hnew, hsame] at hwaiting
          exact h.asked asked (mem_asked.mpr (Or.inr ⟨request, hmem, hwaiting⟩))
      · exact herase asked hother
    case threads =>
      intro thread hthread
      rcases List.mem_append.mp hthread with hold | hnew
      · exact h.threads thread hold
      · rw [List.mem_singleton.mp hnew]
        exact .waiting task

theorem change (h : s.Sound chrono) {web : WebState}
    (hkeeps : s.asked.all (lists web.webhookTriggers) = true) :
    Sound chrono { s with web := web } where
  asked := List.all_eq_true.mp hkeeps
  threads := h.threads

theorem perform (h : s.Sound chrono) {index : ℕ} {task : OnceTask}
    {version : Option (Option Trigger)} {e : Effect} {k : e.Reply → TriggerTask Unit}
    (hthread : s.threads[index]? = some ⟨task, version, .call e k⟩)
    (oracle : (e : Effect) → e.Reply) :
    Sound chrono { s with
      threads := s.threads.set index ⟨task,
        version.or (some (versionRead e (reply s.web oracle e))), k (reply s.web oracle e)⟩ } := by
  have hmem := List.mem_of_getElem? hthread
  have hold := h.threads _ hmem
  have hnew : Thread.Sound chrono ⟨task, version.or (some (versionRead e (reply s.web oracle e))),
      k (reply s.web oracle e)⟩ := by
    cases version with
    | some version => exact hold.next _
    | none =>
        have hrest : (Thread.ofTask chrono task).rest = .call e k := by
          generalize hwaiting : (⟨task, none, .call e k⟩ : Thread) = thread at hold
          cases hold with
          | waiting task =>
              cases hwaiting
              rfl
          | begun => cases hwaiting
        apply Thread.Sound.begin oracle hrest
        intro source hsource
        apply h.asked
        refine mem_asked.mpr (Or.inl ⟨_, hmem, ?_⟩)
        simp only [Thread.asked, hsource]
  constructor
  case asked =>
    intro asked hasked
    apply h.asked asked
    rcases mem_asked.mp hasked with ⟨thread, hset, hwaiting⟩ | hother
    · rcases List.mem_or_eq_of_mem_set hset with hmem' | rfl
      · exact mem_asked.mpr (Or.inl ⟨thread, hmem', hwaiting⟩)
      · -- a task that has begun asks for nothing
        cases version with
        | none => cases hwaiting
        | some version => cases hwaiting
    · exact mem_asked.mpr (Or.inr hother)
  case threads =>
    intro thread hset
    rcases List.mem_or_eq_of_mem_set hset with hother | rfl
    · exact h.threads thread hother
    · exact hnew

/-- A step under the condition keeps the system sound. -/
theorem step {a : Action} (h : s.Sound chrono) (hstep : s.step chrono a = some t)
    (hkeeps : KeepsAsked s a t) : t.Sound chrono := by
  cases a with
  | arrive ns trigger source headers =>
      obtain rfl := Option.some.inj hstep
      exact h.arrive ns trigger source headers
  | answer request =>
      obtain ⟨answered, hrequest, rfl⟩ := Option.map_eq_some_iff.mp hstep
      exact h.answer hrequest
  | change web =>
      obtain rfl := Option.some.inj hstep
      exact h.change hkeeps
  | perform thread oracle =>
      simp only [System.step] at hstep
      split at hstep
      · obtain rfl := Option.some.inj hstep
        exact h.perform ‹_› oracle
      · cases hstep

end System.Sound

/-- The system before any request. -/
def start (web : WebState) : System where
  web := web

theorem start_sound (web : WebState) : (start web).Sound chrono where
  asked := by
    intro asked hasked
    cases hasked
  threads := by
    intro thread hmem
    cases hmem

/-- In every interleaving of requests, changes and task steps in which no change
takes a source from a trigger while the source is asked for, every task executes
the action for sources of the version it read only. -/
theorem executes_configured_sources (chrono : Rfc3339.Codec) (web : WebState)
    (actions : List Action)
    (h : Along (System.step chrono) KeepsAsked (start web) actions) :
    Along (System.step chrono) ExecutesConfigured (start web) actions := by
  apply along_of_along (System.Sound chrono) _ _ (start_sound web) h
  · intro s a t hstep hs hkeeps
    exact hs.step hstep hkeeps
  · intro s a t _ hs _
    cases a with
    | perform thread oracle =>
        show (s.threads[thread]?).all Thread.configured = true
        cases hfound : s.threads[thread]? with
        | none => rfl
        | some found => exact (hs.threads found (List.mem_of_getElem? hfound)).configured
    | _ => trivial

theorem twoSources_kind : Shared.twoSources.kind = .webhookTrigger := rfl

/-- A webhook trigger with the given sources. -/
def hookWith (names : List String) : WebhookTrigger where
  trigger := { Shared.twoSources with sources := { names := names } }
  webhook := { multiSource := false }
  kind_eq := twoSources_kind

/-- Surroundings with this trigger and a scheduler that takes every task. -/
def webWith (names : List String) : WebState where
  webhookTriggers := [hookWith names]
  secret _ _ _ := .ok ""
  add _ _ := .ok "task"
  sourceCloneFolder := "/tmp"

/-- A request for the source `a` is answered, the sources of the trigger change,
and the task runs up to its call of the action. -/
def requestThenEdit (names : List String) : List Action :=
  [.arrive "default" "trigger" (some "a") [], .answer 0, .change (webWith names)] ++
    List.replicate 12 (.perform 0 (obliging Shared.twoSources))

/-- An edit that keeps the source. -/
theorem executes_configured_sources_kept :
    Along (System.step Rfc3339.standard) KeepsAsked (start (webWith ["a", "b"]))
        (requestThenEdit ["a"]) ∧
      (run (System.step Rfc3339.standard) (start (webWith ["a", "b"]))
        (requestThenEdit ["a"])).isSome = true ∧
      Along (System.step Rfc3339.standard) ExecutesConfigured (start (webWith ["a", "b"]))
        (requestThenEdit ["a"]) := by
  have hkeeps : Along (System.step Rfc3339.standard) KeepsAsked (start (webWith ["a", "b"]))
      (requestThenEdit ["a"]) := by
    decide +kernel
  apply And.intro hkeeps
  apply And.intro (by decide +kernel)
  exact executes_configured_sources Rfc3339.standard _ _ hkeeps

/-- An edit that removes the source: the task executes the action for it. -/
theorem executes_removed_source :
    ¬ Along (System.step Rfc3339.standard) ExecutesConfigured (start (webWith ["a", "b"]))
      (requestThenEdit ["b"]) := by
  decide +kernel

end GitEventsRunner.Web.Admission
