/-
# Every action has its request

An observer stands beside the interleaving of requests, changes and task steps, and
keeps a journal: which requests arrived, which were answered and in what
surroundings, and which task called the action for which source.

In the journal of every run each call of the action goes back to a request of its
own task: one that was authorized when it was answered, to a trigger that admitted
it, in the namespace and under the name the call carries.  A request that arrives
once is answered once at most, and pays for one call for each source at most.
-/

import GitEventsRunner.Triggers.Once
import GitEventsRunner.Web.Admission

namespace GitEventsRunner.Web.Admission

open GitEventsRunner.Lib
open GitEventsRunner.Triggers

/-! ## The journal -/

/-- A request that was answered, and the surroundings of the handlers at that moment. -/
structure Answer where
  request : Request
  web : WebState

/-- A call of the action, with the position of the task that made it. -/
structure Charge where
  thread : ℕ
  call : ExecuteCall

/-- What a charge is for: no two charges of a journal have the same key. -/
def Charge.key (charge : Charge) : ℕ × String := (charge.thread, charge.call.sourceName)

structure Journal where
  arrived : List Request := []
  answered : List Answer := []
  executed : List Charge := []

/-- The charge for an effect of a task. -/
def chargeFor (thread : ℕ) : Effect → Option Charge
  | .execute call _ => some ⟨thread, call⟩
  | _ => none

/-- What an effect calls the action with, if it calls it at all, satisfies `P`. -/
def Calls (P : ExecuteCall → Prop) : Effect → Prop
  | .execute call _ => P call
  | _ => True

/-- The observer writes down what a step is about to do. -/
def Journal.note (journal : Journal) (s : System) : Action → Journal
  | .arrive ns trigger source headers =>
      { journal with arrived := journal.arrived ++
        [⟨ns, trigger, source, headers, s.web.webhookTriggers, s.web.defaultAuthHeader⟩] }
  | .answer request =>
      { journal with answered := journal.answered ++
        ((s.requests[request]?).map fun answered => ⟨answered, s.web⟩).toList }
  | .change _ => journal
  | .perform thread _ =>
      match s.threads[thread]? with
      | some ⟨_, _, .call e _⟩ =>
          { journal with executed := journal.executed ++ (chargeFor thread e).toList }
      | _ => journal

/-! ## The account -/

/-- The surroundings of an answer, with the trigger cache and the name of the header as the
request read them. -/
def Answer.seen (answer : Answer) : WebState := answer.request.surroundings answer.web

/-- The trigger admits what the request is for. -/
def Answer.Admits (answer : Answer) (found : WebhookTrigger) : Prop :=
  match answer.request.source with
  | none => found.webhook.multiSource = true
  | some source => source ∈ found.trigger.sources.names

/-- The answer is a license for the call: the request was authorized and admitted, and the
call is for the trigger it names, and for the source if it names one. -/
structure Answer.Permits (answer : Answer) (call : ExecuteCall) : Prop where
  granted : ∃ found, answer.seen.find answer.request.trigger answer.request.ns = some found ∧
    answer.seen.Authorized answer.request.headers found ∧ answer.Admits found
  ns : call.ns = answer.request.ns
  triggerName : call.triggerName = answer.request.trigger
  triggerKind : call.triggerKind = "WebhookTrigger"
  sourceName : ∀ source, answer.request.source = some source → call.sourceName = source

/-- The journal is in order.  No request is answered that did not arrive, and none more often
than it arrived; the tasks have one answer each, in the order of the answers, and the answer
of a task permits its calls; and no task makes two calls for one source. -/
structure Journal.Accounted (journal : Journal) : Prop where
  answered : (journal.answered.map Answer.request).Subperm journal.arrived
  permitted : ∃ grants : List Answer, grants.Sublist journal.answered ∧
    ∀ charge ∈ journal.executed, ∃ grant, grants[charge.thread]? = some grant ∧
      Answer.Permits grant charge.call
  once : (journal.executed.map Charge.key).Nodup

/-! ## The tasks -/

theorem Calls.mono {P P' : ExecuteCall → Prop} {e : Effect} (h : Calls P e)
    (hP : ∀ call, P call → P' call) : Calls P' e := by
  cases e with
  | execute call checked => exact hP call h
  | _ => trivial

section Tasks

variable (chrono : Rfc3339.Codec) (self : Trigger) (taskSources : TriggerTaskSources)
  (sourceCloneFolder : String)

/-- The calls of the action carry the trigger the task was made for, and the source if it was
made for one. -/
theorem createTriggerTask_calls :
    (self.createTriggerTask chrono taskSources sourceCloneFolder).All (Calls fun call =>
      call.ns = self.ns ∧ call.triggerName = self.name ∧ call.triggerKind = self.kind.crdKind ∧
        ∀ source, taskSources = .single source → call.sourceName = source) := by
  apply Prog.all_perform_bind trivial
  intro found
  cases found with
  | none => trivial
  | some trigger =>
      apply Prog.all_perform_bind trivial
      intro suffix
      apply self.runTask_all chrono taskSources sourceCloneFolder trigger _ trivial
        (fun _ => trivial) trivial trivial
      intro source hsource e he
      cases he with
      | execute commit checked =>
          refine ⟨rfl, rfl, rfl, ?_⟩
          intro requested hrequested
          subst hrequested
          exact List.mem_singleton.mp hsource
      | _ => trivial

/-- A task makes one call for each source at most. -/
theorem createTriggerTask_sparing :
    (self.createTriggerTask chrono taskSources sourceCloneFolder).Sparing
      Triggers.ExecutesFor fun _ => False := by
  intro source
  apply And.intro
  · apply Prog.single_perform_bind not_false
    intro found
    cases found with
    | none => trivial
    | some trigger =>
        apply Prog.single_perform_bind not_false
        intro suffix
        exact Trigger.runTask_single taskSources
  · exact False.elim

end Tasks

/-- A handler schedules nothing, or a task whose calls the answer permits. -/
theorem Request.handler_permits (chrono : Rfc3339.Codec) (request : Request) (web : WebState)
    (scheduled : List OnceTask) :
    ((request.handler web).run scheduled).2 = scheduled ∨
      ∃ task, ((request.handler web).run scheduled).2 = scheduled ++ [task] ∧
        (Thread.ofTask chrono task).rest.All (Calls (Answer.Permits ⟨request, web⟩)) := by
  -- both handlers are instances of one, with their own refusal and sources
  have hcalls : ∀ (admits : WebhookTrigger → Bool) (refusal : WebError)
      (taskSources : TriggerTaskSources),
      (∀ found, admits found = true → Answer.Admits ⟨request, web⟩ found) →
      (∀ requested, request.source = some requested → taskSources = .single requested) →
      (((request.surroundings web).handlePostWebhook admits refusal taskSources request.ns
          request.trigger request.headers).run scheduled).2 = scheduled ∨
        ∃ task, (((request.surroundings web).handlePostWebhook admits refusal taskSources
            request.ns request.trigger request.headers).run scheduled).2 = scheduled ++ [task] ∧
          (Thread.ofTask chrono task).rest.All (Calls (Answer.Permits ⟨request, web⟩)) := by
    intro admits refusal taskSources hadmits hsources
    rcases WebState.handlePostWebhook_run refusal taskSources request.ns request.trigger
      request.headers scheduled with
      ⟨error, hrun, -⟩ | ⟨found, taskId, hfind, hauthorized, hadmitted, -, hrun⟩
    · exact Or.inl (congrArg Prod.snd hrun)
    · refine Or.inr ⟨_, congrArg Prod.snd hrun, ?_⟩
      have hnamed := List.find?_some hfind
      simp only [decide_eq_true_eq] at hnamed
      apply (createTriggerTask_calls chrono found.trigger taskSources _).mono
      intro e he
      apply he.mono
      intro call hcall
      obtain ⟨hns, hname, hkind, hsource⟩ := hcall
      constructor
      case granted => exact ⟨found, hfind, hauthorized, hadmits found hadmitted⟩
      case ns => exact hns.trans hnamed.2
      case triggerName => exact hname.trans hnamed.1
      case triggerKind => rw [hkind, found.kind_eq]; rfl
      case sourceName =>
        intro requested hrequested
        exact hsource requested (hsources requested hrequested)
  unfold Request.handler
  cases hsource : request.source with
  | none =>
      apply hcalls
      · intro found hfound
        rw [Answer.Admits, hsource]
        exact hfound
      · intro requested hrequested
        cases hsource.symm.trans hrequested
  | some source =>
      apply hcalls
      · intro found hfound
        rw [Answer.Admits, hsource]
        exact List.contains_iff_mem.mp hfound
      · intro requested hrequested
        rw [Option.some.inj (hsource.symm.trans hrequested)]

/-! ## Runs -/

theorem mem_chargeFor {thread : ℕ} {e : Effect} {charge : Charge} :
    charge ∈ (chargeFor thread e).toList ↔
      ∃ call checked, e = .execute call checked ∧ charge = ⟨thread, call⟩ := by
  cases e with
  | execute call checked =>
      simp only [chargeFor, Option.toList_some, List.mem_singleton]
      apply Iff.intro
      · intro h
        exact ⟨call, checked, rfl, h⟩
      · rintro ⟨call', checked', hcall, h⟩
        cases hcall
        exact h
  | _ => simp [chargeFor]

/-- A task made a call for a source. -/
def Journal.Spent (journal : Journal) (thread : ℕ) (source : String) : Prop :=
  ∃ charge ∈ journal.executed, charge.key = (thread, source)

/-- The tasks with the answers that license them: what a task will still call is permitted, it
spares the sources it called the action for, and every charge is one of a task. -/
structure Licensed (journal : Journal) (licensed : List (Answer × Thread)) : Prop where
  answers : (licensed.map Prod.fst).Sublist journal.answered
  permitted : ∀ pair ∈ licensed, pair.2.rest.All (Calls pair.1.Permits)
  sparing : ∀ (thread : ℕ) (pair : Answer × Thread), licensed[thread]? = some pair →
    pair.2.rest.Sparing Triggers.ExecutesFor (journal.Spent thread)
  charged : ∀ charge ∈ journal.executed,
    ∃ pair, licensed[charge.thread]? = some pair ∧ pair.1.Permits charge.call

theorem Licensed.thread_lt {journal : Journal} {licensed : List (Answer × Thread)}
    (h : Licensed journal licensed) {charge : Charge} (hcharge : charge ∈ journal.executed) :
    charge.thread < licensed.length := by
  obtain ⟨pair, hpair, -⟩ := h.charged charge hcharge
  exact (List.getElem?_eq_some_iff.mp hpair).1

/-- A new task with its answer. -/
theorem Licensed.add {journal : Journal} {licensed : List (Answer × Thread)}
    (h : Licensed journal licensed) (answer : Answer) (task : OnceTask) (chrono : Rfc3339.Codec)
    (hcalls : (Thread.ofTask chrono task).rest.All (Calls answer.Permits)) :
    Licensed { journal with answered := journal.answered ++ [answer] }
      (licensed ++ [(answer, Thread.ofTask chrono task)]) where
  answers := by
    rw [List.map_append]
    exact h.answers.append (List.Sublist.refl _)
  permitted := by
    intro pair hpair
    rcases List.mem_append.mp hpair with hold | hnew
    · exact h.permitted pair hold
    · rw [List.mem_singleton.mp hnew]
      exact hcalls
  sparing := by
    intro thread pair hpair
    rcases lt_or_ge thread licensed.length with hlt | hge
    · rw [List.getElem?_append_left hlt] at hpair
      exact h.sparing thread pair hpair
    · -- nothing is charged to a position that has no task yet
      rw [List.getElem?_append_right hge] at hpair
      rw [List.mem_singleton.mp (List.mem_of_getElem? hpair)]
      intro source
      obtain ⟨hsingle, -⟩ := createTriggerTask_sparing chrono task.trigger
        task.request.taskSources task.request.sourceCloneFolder source
      apply And.intro hsingle
      rintro ⟨charge, hcharge, hkey⟩
      have hthread : charge.thread = thread := congrArg Prod.fst hkey
      have hlt := h.thread_lt hcharge
      omega
  charged := by
    intro charge hcharge
    obtain ⟨pair, hpair, hpermits⟩ := h.charged charge hcharge
    refine ⟨pair, ?_, hpermits⟩
    rw [List.getElem?_append_left (h.thread_lt hcharge), hpair]

/-- A source is spent if it was, or if the effect that is charged calls the action for it. -/
theorem Journal.Spent.of_add {journal : Journal} {index thread : ℕ} {e : Effect} {source : String}
    (h : Journal.Spent { journal with executed := journal.executed ++ (chargeFor index e).toList }
      thread source) :
    journal.Spent thread source ∨ index = thread ∧ Triggers.ExecutesFor source e := by
  obtain ⟨charge, hcharge, hkey⟩ := h
  rcases List.mem_append.mp hcharge with hold | hnew
  · exact Or.inl ⟨charge, hold, hkey⟩
  · obtain ⟨call, checked, rfl, rfl⟩ := mem_chargeFor.mp hnew
    exact Or.inr ⟨congrArg Prod.fst hkey, congrArg Prod.snd hkey⟩

/-- A task goes on, and what it does is charged to it. -/
theorem Licensed.perform {journal : Journal} {licensed : List (Answer × Thread)}
    (h : Licensed journal licensed) {index : ℕ} {answer : Answer} {task : OnceTask}
    {version : Option (Option Trigger)} {e : Effect} {k : e.Reply → TriggerTask Unit}
    (hpair : licensed[index]? = some (answer, ⟨task, version, .call e k⟩))
    (version' : Option (Option Trigger)) (r : e.Reply) :
    Licensed { journal with executed := journal.executed ++ (chargeFor index e).toList }
      (licensed.set index (answer, ⟨task, version', k r⟩)) := by
  have hlt : index < licensed.length := (List.getElem?_eq_some_iff.mp hpair).1
  have hcalls := h.permitted _ (List.mem_of_getElem? hpair)
  constructor
  case answers =>
    have hanswer : (licensed.map Prod.fst)[index]? = some answer := by
      rw [List.getElem?_map, hpair]
      rfl
    obtain ⟨_, hsame⟩ := List.getElem?_eq_some_iff.mp hanswer
    rw [List.map_set, ← hsame, List.set_getElem_self]
    exact h.answers
  case permitted =>
    intro pair hset
    rcases List.mem_or_eq_of_mem_set hset with hother | rfl
    · exact h.permitted pair hother
    · exact hcalls.2 r
  case sparing =>
    intro thread pair hset
    by_cases hthread : index = thread
    · subst hthread
      rw [List.getElem?_set_self hlt] at hset
      rw [← Option.some.inj hset]
      apply (h.sparing index _ hpair).next r
      intro source hspent
      exact hspent.of_add.imp_right And.right
    · rw [List.getElem?_set_ne hthread] at hset
      apply (h.sparing thread pair hset).mono
      intro source hspent
      exact hspent.of_add.resolve_right fun hnew => hthread hnew.1
  case charged =>
    intro charge hcharge
    rcases List.mem_append.mp hcharge with hold | hnew
    · obtain ⟨pair, hfound, hpermits⟩ := h.charged charge hold
      by_cases hthread : index = charge.thread
      · rw [← hthread, hpair] at hfound
        rw [← hthread, List.getElem?_set_self hlt]
        rw [← Option.some.inj hfound] at hpermits
        exact ⟨_, rfl, hpermits⟩
      · rw [List.getElem?_set_ne hthread]
        exact ⟨pair, hfound, hpermits⟩
    · obtain ⟨call, checked, rfl, rfl⟩ := mem_chargeFor.mp hnew
      exact ⟨_, List.getElem?_set_self hlt, hcalls.1⟩

/-- The journal agrees with the system it was kept of. -/
structure Journal.Agrees (journal : Journal) (s : System) : Prop where
  requests : (journal.answered.map Answer.request ++ s.requests).Perm journal.arrived
  licensed : ∃ licensed, licensed.map Prod.snd = s.threads ∧ Licensed journal licensed
  once : (journal.executed.map Charge.key).Nodup

namespace Journal.Agrees

variable {chrono : Rfc3339.Codec} {journal : Journal} {s t : System}

theorem arrive (h : journal.Agrees s) (request : Request) :
    Journal.Agrees { journal with arrived := journal.arrived ++ [request] }
      { s with requests := s.requests ++ [request] } where
  requests := by
    rw [← List.append_assoc]
    exact h.requests.append_right [request]
  licensed := by
    obtain ⟨licensed, hthreads, hlicensed⟩ := h.licensed
    exact ⟨licensed, hthreads, hlicensed.answers, hlicensed.permitted, hlicensed.sparing,
      hlicensed.charged⟩
  once := h.once

theorem answer (h : journal.Agrees s) {index : ℕ} {request : Request}
    (hrequest : s.requests[index]? = some request) :
    Journal.Agrees { journal with answered := journal.answered ++ [⟨request, s.web⟩] }
      { s with
        requests := s.requests.eraseIdx index
        scheduled := ((request.handler s.web).run s.scheduled).2
        threads := s.threads ++ (((request.handler s.web).run s.scheduled).2.drop
          s.scheduled.length).map (Thread.ofTask chrono) } where
  requests := by
    obtain ⟨hlt, rfl⟩ := List.getElem?_eq_some_iff.mp hrequest
    rw [List.map_append, List.append_assoc]
    exact ((List.getElem_cons_eraseIdx_perm hlt).append_left _).trans h.requests
  licensed := by
    obtain ⟨licensed, hthreads, hlicensed⟩ := h.licensed
    rcases request.handler_permits chrono s.web s.scheduled with hsame | ⟨task, hadded, hcalls⟩
    · refine ⟨licensed, ?_, ?_, hlicensed.permitted, hlicensed.sparing, hlicensed.charged⟩
      · rw [hsame, List.drop_length, List.map_nil, List.append_nil]
        exact hthreads
      · exact hlicensed.answers.trans (List.sublist_append_left _ _)
    · refine ⟨_, ?_, hlicensed.add ⟨request, s.web⟩ task chrono hcalls⟩
      rw [hadded, List.drop_left, List.map_append, hthreads]
      rfl
  once := h.once

theorem perform (h : journal.Agrees s) {index : ℕ} {task : OnceTask}
    {version : Option (Option Trigger)} {e : Effect} {k : e.Reply → TriggerTask Unit}
    (hthread : s.threads[index]? = some ⟨task, version, .call e k⟩)
    (version' : Option (Option Trigger)) (r : e.Reply) :
    Journal.Agrees { journal with executed := journal.executed ++ (chargeFor index e).toList }
      { s with threads := s.threads.set index ⟨task, version', k r⟩ } := by
  obtain ⟨licensed, hthreads, hlicensed⟩ := h.licensed
  have hfound : (licensed[index]?).map Prod.snd = some ⟨task, version, .call e k⟩ := by
    rw [← List.getElem?_map, hthreads, hthread]
  obtain ⟨⟨answer, thread⟩, hpair, rfl⟩ := Option.map_eq_some_iff.mp hfound
  constructor
  case requests => exact h.requests
  case licensed =>
    refine ⟨_, ?_, hlicensed.perform hpair version' r⟩
    rw [List.map_set, hthreads]
  case once =>
    rw [List.map_append]
    apply h.once.append
    · cases e with
      | execute call checked => exact List.nodup_singleton _
      | _ => exact List.nodup_nil
    · intro key hold hnew
      obtain ⟨charge, hcharge, rfl⟩ := List.mem_map.mp hold
      obtain ⟨other, hother, hkey⟩ := List.mem_map.mp hnew
      obtain ⟨call, checked, rfl, rfl⟩ := mem_chargeFor.mp hother
      -- the task has not called the action for this source yet
      apply (hlicensed.sparing index _ hpair).not_spent call.sourceName rfl
      exact ⟨charge, hcharge, hkey.symm⟩

/-- What the observer notes of a step keeps the journal in agreement. -/
theorem step {a : Action} (h : journal.Agrees s) (hstep : s.step chrono a = some t) :
    (journal.note s a).Agrees t := by
  cases a with
  | arrive ns trigger source headers =>
      obtain rfl := Option.some.inj hstep
      exact h.arrive _
  | answer request =>
      obtain ⟨answered, hrequest, rfl⟩ := Option.map_eq_some_iff.mp hstep
      have hnote : journal.note s (.answer request) =
          { journal with answered := journal.answered ++ [⟨answered, s.web⟩] } := by
        rw [Journal.note, hrequest]
        rfl
      rw [hnote]
      exact h.answer hrequest
  | change web =>
      obtain rfl := Option.some.inj hstep
      exact ⟨h.requests, h.licensed, h.once⟩
  | perform thread oracle =>
      simp only [System.step] at hstep
      split at hstep
      · rename_i task version e k hthread
        obtain rfl := Option.some.inj hstep
        have hnote : journal.note s (.perform thread oracle) =
            { journal with executed := journal.executed ++ (chargeFor thread e).toList } := by
          rw [Journal.note, hthread]
        rw [hnote]
        exact h.perform hthread _ (reply s.web oracle e)
      · cases hstep

theorem start (web : WebState) : Journal.Agrees {} (start web) where
  requests := List.Perm.refl _
  licensed := by
    refine ⟨[], rfl, List.Sublist.refl _, ?_, ?_, ?_⟩
    · intro pair hpair
      cases hpair
    · intro thread pair hpair
      cases hpair
    · intro charge hcharge
      cases hcharge
  once := List.nodup_nil

theorem accounted (h : journal.Agrees s) : journal.Accounted where
  answered := by
    apply List.Subperm.trans _ h.requests.subperm
    exact (List.sublist_append_left _ _).subperm
  permitted := by
    obtain ⟨licensed, -, hlicensed⟩ := h.licensed
    refine ⟨licensed.map Prod.fst, hlicensed.answers, ?_⟩
    intro charge hcharge
    obtain ⟨pair, hpair, hpermits⟩ := hlicensed.charged charge hcharge
    refine ⟨pair.1, ?_, hpermits⟩
    rw [List.getElem?_map, hpair]
    rfl
  once := h.once

end Journal.Agrees

/-- In every interleaving of requests, changes and task steps, every call of the action goes
back to a request that was authorized and admitted when it was answered, and that pays for no
other call for the same source. -/
theorem executions_accounted (chrono : Rfc3339.Codec) (web : WebState) (actions : List Action) :
    (watch (System.step chrono) Journal.note {} (start web) actions).1.Accounted := by
  have hagrees : (watch (System.step chrono) Journal.note {} (start web) actions).1.Agrees
      (watch (System.step chrono) Journal.note {} (start web) actions).2 := by
    apply invariant_of_watch _ (Journal.Agrees.start web)
    intro journal s a t hstep h
    exact h.step hstep
  exact hagrees.accounted

/-- A request for a source that is not edited away: the task calls the action for it. -/
example : (watch (System.step Rfc3339.standard) Journal.note {} (start (webWith ["a", "b"]))
    (requestThenEdit ["a"])).1.executed.map Charge.key = [(0, "a")] := by
  decide +kernel

end GitEventsRunner.Web.Admission
