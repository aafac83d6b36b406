/-
# Many replicas on one cluster

Every replica of the program has a jobs queue of its own, and all of them create
their Jobs on one API server.  A replica knows its Jobs by a label: `enqueue` writes
the identity of the replica on every Job, and the watch of the replica asks the server
for the Jobs with its own identity only.  The identity is drawn anew whenever a replica
starts, so a replica that is gone leaves Jobs nobody watches.

Here any number of replicas share a server that files each Job under who created it
and publishes each change of a Job to the replicas whose identity the Job carries.
With pairwise different identities a replica cannot tell that it is not alone: what it
sees of a run of all of them is a run of the system of one.
-/

import Mathlib.Algebra.Order.BigOperators.Group.Finset
import GitEventsRunner.Jobs.Limit

namespace GitEventsRunner.Jobs

open GitEventsRunner.Lib

/-! ## Labels -/

/-- The label selector of the watch of the replica with this identity. -/
def Selects (identity : String) (labels : HashMap String String) : Prop :=
  labels.get actionJobIdentityLabel = some identity

instance (identity : String) (labels : HashMap String String) :
    Decidable (Selects identity labels) :=
  inferInstanceAs (Decidable (_ = _))

theorem Selects.unique {identity other : String} {labels : HashMap String String}
    (h : Selects identity labels) (hother : Selects other labels) : other = identity :=
  Option.some.inj (hother.symm.trans h)

/-- The labels a Job is created with. -/
def JobsQueueItem.labels (item : JobsQueueItem) : HashMap String String :=
  item.job.metadata.labels.getD ∅

/-- `enqueue` writes the identity over whatever label the Job brings along. -/
theorem JobsQueueItem.selects_ofJob (identity : String) (job : Job) (ns : String)
    (expireAfter : Option Duration) (now : SystemTime) :
    Selects identity (ofJob identity job ns expireAfter now).labels :=
  HashMap.get_insert_self ..

namespace System

/-! ## What one replica contributes -/

/-- The `run_queue` call that waits for the reply to a create request. -/
def creating (s : System) : Option (Caller × Pass × Checked) :=
  match s.call with
  | some (c, .passing pass) =>
      match pass.phase with
      | .creating checked => some (c, pass, checked)
      | .atLoop | .checking _ | .created _ | .gauging => none
  | _ => none

/-- The server stores the Job of an item; its first event is not published yet. -/
def fileJob (s : System) (item : JobsQueueItem) (status : Option JobStatus) : System :=
  { s with
    cluster := s.cluster.insert s.nextUid ⟨item.job.objectRef, status⟩
    unhandled := s.unhandled ++ [s.nextUid]
    stored := s.stored ++ [item]
    nextUid := s.nextUid + 1 }

/-- An event is on its way to the watch of the replica. -/
def receive (s : System) (delivery : Delivery) : System :=
  { s with backlog := s.backlog ++ [delivery] }

end System

/-- What a replica does by itself.  The rest is the server's part. -/
def Action.isLocal : Action → Bool
  | .call (.accept _) | .setStatus .. | .deleteJob _ | .foreign _ => false
  | _ => true

namespace System

theorem creating_eq_some {s : System} {c : Caller} {pass : Pass} {checked : Checked}
    (h : s.creating = some (c, pass, checked)) :
    s.call = some (c, .passing pass) ∧ pass.phase = .creating checked := by
  unfold creating at h
  split at h
  next caller inLoop hcall =>
    split at h
    next inCreate hphase =>
      obtain ⟨rfl, rfl, rfl⟩ : caller = c ∧ inLoop = pass ∧ inCreate = checked := by
        simpa using h
      exact ⟨hcall, hphase⟩
    all_goals cases h
  next => cases h

/-- Every item that was put in carries the identity of the replica. -/
def Tagged (s : System) : Prop := ∀ item ∈ s.putIn, Selects s.identity item.labels

theorem step_identity {s t : System} {action : Action} (hstep : s.step action = some t) :
    t.identity = s.identity := by
  cases Transition.of_step hstep <;> rfl

theorem Tagged.step {s t : System} {action : Action} (h : s.Tagged)
    (hstep : s.step action = some t) : t.Tagged := by
  cases Transition.of_step hstep with
  | enqueue job ns expireAfter now =>
      intro item hmem
      rcases List.mem_append.mp hmem with hold | hnew
      · exact h item hold
      · rw [List.mem_singleton.mp hnew]
        exact JobsQueueItem.selects_ofJob ..
  | _ => exact h

/-- The item of a create request was put in by `enqueue`. -/
theorem Conserved.mem_putIn {s : System} (h : s.Conserved) {c : Caller} {pass : Pass}
    {checked : Checked} (hcreating : s.creating = some (c, pass, checked)) :
    checked.item ∈ s.putIn := by
  obtain ⟨hcall, hphase⟩ := creating_eq_some hcreating
  have hhand : s.phase = .creating checked := (phase_of_call hcall).trans hphase
  rw [h.order, takenItems, hhand]
  simp [PassPhase.inHand]

/-- The server's part of a create request, seen from the replica that made it. -/
theorem step_accept {s : System} {c : Caller} {pass : Pass} {checked : Checked}
    {status : Option JobStatus} (hcreating : s.creating = some (c, pass, checked))
    (hstatus : status.all JobStatus.isUnfinished = true) :
    s.step (.call (.accept status)) =
      some (((s.fileJob checked.item status).setCall c
        (.passing { pass with phase := .created checked })).receive
          ⟨some s.nextUid, .apply checked.item.job.objectRef status⟩) := by
  obtain ⟨hcall, hphase⟩ := creating_eq_some hcreating
  have hcalm : s.panics (.call (.accept status)) = false := by
    simp only [panics, hcall, passPanics, hphase]
  rw [step_eq_proceed rfl hcalm]
  simp only [proceed, callStep, hcall, passStep, hphase, if_pos hstatus]
  rfl

/-- What a replica does by itself leaves the Jobs on the server alone. -/
theorem cluster_of_isLocal {s t : System} {action : Action} (hlocal : action.isLocal = true)
    (hstep : s.step action = some t) : t.cluster = s.cluster := by
  cases Transition.of_step hstep with
  | accept | setStatus | deleteJob => cases hlocal
  | _ => rfl

end System

/-! ## The replicas and the server -/

/-- The uid of a Job, by who created it: the queue of a replica or anybody else. -/
inductive Uid (I : Type)
  | created (replica : I) (n : ℕ)
  | other (n : ℕ)
  deriving DecidableEq

/-- The replicas, each with the Jobs the server filed under it, the Jobs created by
others, and the labels of all Jobs. -/
structure Replicas (I : Type) where
  replicas : I → System
  others : HashMap ℕ ClusterJob
  nextOther : ℕ
  labels : Uid I → HashMap String String

/-- What can happen next: a step of a replica by itself, the server creating the Job a
replica asked for, a change or the removal of any Job, and somebody else creating a
Job with any labels. -/
inductive ReplicasAction (I : Type)
  | replica (i : I) (action : Action)
  | accept (i : I) (status : Option JobStatus)
  | setStatus (uid : Uid I) (status : JobStatus)
  | deleteJob (uid : Uid I)
  | createOther (key : ObjectRef) (labels : HashMap String String) (status : Option JobStatus)

namespace Replicas

variable {I : Type} [DecidableEq I]

/-- Every replica has just entered its event loops. -/
def start (identity : I → String) (config : I → ActionConfig) : Replicas I where
  replicas i := System.start (identity i) (config i) JobsWatch.init
  others := ∅
  nextOther := 0
  labels _ := ∅

/-- Replica `i` moves. -/
def setReplica (g : Replicas I) (i : I) (s : System) : Replicas I :=
  { g with replicas := Function.update g.replicas i s }

/-- The Job with a uid, if it exists. -/
def job (g : Replicas I) : Uid I → Option ClusterJob
  | .created i n => (g.replicas i).cluster.get n
  | .other n => g.others.get n

/-- Store a Job. -/
def store (g : Replicas I) (uid : Uid I) (job : ClusterJob) : Replicas I :=
  match uid with
  | .created i n => g.setReplica i
      { g.replicas i with cluster := (g.replicas i).cluster.insert n job }
  | .other n => { g with others := g.others.insert n job }

/-- Remove a Job. -/
def erase (g : Replicas I) (uid : Uid I) : Replicas I :=
  match uid with
  | .created i n => g.setReplica i
      { g.replicas i with cluster := (g.replicas i).cluster.remove n }
  | .other n => { g with others := g.others.remove n }

/-- An event as replica `i` gets it: the uid tells it apart only if the Job is its own. -/
def delivery (i : I) (uid : Uid I) (event : WatchEvent) : Delivery :=
  match uid with
  | .created j n => ⟨if j = i then some n else none, event⟩
  | .other _ => ⟨none, event⟩

/-- The server sends an event to every replica whose selector the Job's labels match. -/
def publish (g : Replicas I) (uid : Uid I) (event : WatchEvent) : Replicas I :=
  { g with
    replicas := fun i =>
      if Selects (g.replicas i).identity (g.labels uid) then
        (g.replicas i).receive (delivery i uid event)
      else g.replicas i }

/-- Write down the labels of a new Job. -/
def setLabels (g : Replicas I) (uid : Uid I) (labels : HashMap String String) : Replicas I :=
  { g with labels := Function.update g.labels uid labels }

/-- Perform one action; `none` if it is not possible now. -/
def step (g : Replicas I) : ReplicasAction I → Option (Replicas I)
  | .replica i action =>
      if action.isLocal then ((g.replicas i).step action).map (g.setReplica i) else none
  | .accept i status =>
      match (g.replicas i).creating with
      | some (c, pass, checked) =>
          if status.all JobStatus.isUnfinished then
            let uid := Uid.created i (g.replicas i).nextUid
            let s := ((g.replicas i).fileJob checked.item status).setCall c
              (.passing { pass with phase := .created checked })
            some (((g.setReplica i s).setLabels uid checked.item.labels).publish uid
              (.apply checked.item.job.objectRef status))
          else none
      | none => none
  | .setStatus uid status =>
      match g.job uid with
      | some job =>
          -- a finished Job stays finished
          if job.isUnfinished = true ∨ status.isUnfinished = false then
            some ((g.store uid ⟨job.key, some status⟩).publish uid (.apply job.key (some status)))
          else none
      | none => none
  | .deleteJob uid =>
      match g.job uid with
      | some job => some ((g.erase uid).publish uid (.delete job.key))
      | none => none
  | .createOther key labels status =>
      let uid := Uid.other g.nextOther
      some ((({ g with nextOther := g.nextOther + 1 }.store uid ⟨key, status⟩).setLabels uid
        labels).publish uid (.apply key status))

/-! ## What one replica sees of a step -/

/-- The step of its own system that a step of all of them is for replica `i`. -/
inductive Mirror (i : I) : ReplicasAction I → Action → Prop
  | replica (action : Action) : Mirror i (.replica i action) action
  | accept (status : Option JobStatus) : Mirror i (.accept i status) (.call (.accept status))
  | setStatus (n : ℕ) (status : JobStatus) :
      Mirror i (.setStatus (.created i n) status) (.setStatus n status)
  | deleteJob (n : ℕ) : Mirror i (.deleteJob (.created i n)) (.deleteJob n)
  | foreign (action : ReplicasAction I) (event : WatchEvent) : Mirror i action (.foreign event)

/-- Where the Jobs of the server come from: a Job filed under a replica carries its
identity, and an identity on any other Job is one that `Borrowed` allows for. -/
structure Filed (identity : I → String) (Borrowed : String → Prop) (g : Replicas I) : Prop where
  named : ∀ i, (g.replicas i).identity = identity i
  conserved : ∀ i, (g.replicas i).Conserved
  tagged : ∀ i, (g.replicas i).Tagged
  created : ∀ i n job, (g.replicas i).cluster.get n = some job →
    Selects (identity i) (g.labels (.created i n))
  others : ∀ n id, Selects id (g.labels (.other n)) → Borrowed id

/-- What replica `i` sees of a step: nothing, or a step of its own system, of which it did
not take part only in changes of Jobs with a borrowed identity. -/
def Sees (identity : I → String) (Borrowed : String → Prop) (g : Replicas I)
    (action : ReplicasAction I) (h : Replicas I) (i : I) : Prop :=
  h.replicas i = g.replicas i ∨
    ∃ own, (Mirror i action own ∧ ∀ event, own = .foreign event → Borrowed (identity i)) ∧
      (g.replicas i).step own = some (h.replicas i)

omit [DecidableEq I] in
theorem start_filed (identity : I → String) (config : I → ActionConfig)
    (Borrowed : String → Prop) : (start identity config).Filed identity Borrowed where
  named _ := rfl
  conserved _ := System.start_conserved ..
  tagged _ _ hmem := by cases hmem
  created _ _ _ hjob := by cases hjob
  others _ _ hselects := by cases hselects

variable {identity : I → String} {Borrowed : String → Prop} {g h : Replicas I}

/-- A Job of somebody else, changed: the replicas it selects see a foreign change. -/
theorem sees_other (hnamed : ∀ i, (g.replicas i).identity = identity i)
    (hkept : h.replicas = g.replicas) (n : ℕ) (event : WatchEvent)
    (hothers : ∀ id, Selects id (h.labels (.other n)) → Borrowed id)
    (action : ReplicasAction I) (i : I) :
    Sees identity Borrowed g action (h.publish (.other n) event) i := by
  by_cases hselects : Selects (identity i) (h.labels (.other n))
  · refine Or.inr ⟨.foreign event, ⟨.foreign action event, fun _ _ => hothers _ hselects⟩, ?_⟩
    rw [System.step_eq_proceed rfl rfl]
    simp only [publish, hkept, hnamed, if_pos hselects]
    rfl
  · exact Or.inl (by simp only [publish, hkept, hnamed, if_neg hselects])

/-- A Job of a replica, changed: this replica sees its own change and no other replica
sees anything. -/
theorem sees_created (hdistinct : Function.Injective identity)
    (hnamed : ∀ i, (g.replicas i).identity = identity i) {j : I} {n : ℕ} {s : System}
    (hkept : h.replicas = Function.update g.replicas j s)
    (hidentity : s.identity = identity j) (event : WatchEvent)
    (hselects : Selects (identity j) (h.labels (.created j n)))
    {action : ReplicasAction I} {own : Action} (hmirror : Mirror j action own)
    (hforeign : ∀ event, own ≠ .foreign event)
    (hstep : (g.replicas j).step own = some (s.receive ⟨some n, event⟩)) (i : I) :
    Sees identity Borrowed g action (h.publish (.created j n) event) i := by
  by_cases hij : i = j
  · subst hij
    refine Or.inr ⟨own, ⟨hmirror, fun event hown => absurd hown (hforeign event)⟩, ?_⟩
    simpa only [publish, hkept, Function.update_self, hidentity, if_pos hselects, delivery,
      reduceIte] using hstep
  · have hother : ¬ Selects (identity i) (h.labels (.created j n)) :=
      fun hi => hij (hdistinct (hselects.unique hi))
    refine Or.inl ?_
    simp only [publish, hkept, Function.update_of_ne hij, hnamed, if_neg hother]

@[simp]
theorem publish_cluster (g : Replicas I) (uid : Uid I) (event : WatchEvent) (i : I) :
    ((g.publish uid event).replicas i).cluster = (g.replicas i).cluster := by
  simp only [publish]
  split <;> rfl

omit [DecidableEq I] in
/-- What the replicas see keeps everything that is said of each replica alone. -/
theorem Filed.of_sees {action : ReplicasAction I} (hfiled : g.Filed identity Borrowed)
    (hsees : ∀ i, Sees identity Borrowed g action h i)
    (hcreated : ∀ i n job, (h.replicas i).cluster.get n = some job →
      Selects (identity i) (h.labels (.created i n)))
    (hothers : ∀ n id, Selects id (h.labels (.other n)) → Borrowed id) :
    h.Filed identity Borrowed := by
  have hkept : ∀ i, (h.replicas i).identity = identity i ∧ (h.replicas i).Conserved ∧
      (h.replicas i).Tagged := by
    intro i
    rcases hsees i with hsame | ⟨own, -, hown⟩
    · rw [hsame]
      exact ⟨hfiled.named i, hfiled.conserved i, hfiled.tagged i⟩
    · exact ⟨(System.step_identity hown).trans (hfiled.named i),
        (hfiled.conserved i).step hown, (hfiled.tagged i).step hown⟩
  exact ⟨fun i => (hkept i).1, fun i => (hkept i).2.1, fun i => (hkept i).2.2, hcreated, hothers⟩

/-! ## Every step, seen by every replica -/

theorem step_replica (hfiled : g.Filed identity Borrowed) {i : I} {action : Action}
    (hstep : g.step (.replica i action) = some h) :
    h.Filed identity Borrowed ∧ ∀ j, Sees identity Borrowed g (.replica i action) h j := by
  simp only [step] at hstep
  split at hstep
  next hlocal =>
    obtain ⟨s, hown, rfl⟩ := Option.map_eq_some_iff.mp hstep
    have hsees : ∀ j, Sees identity Borrowed g (.replica i action) (g.setReplica i s) j := by
      intro j
      by_cases hij : j = i
      · subst hij
        refine Or.inr ⟨action, ⟨.replica action, ?_⟩, ?_⟩
        · intro event hevent
          subst hevent
          cases hlocal
        · simpa only [setReplica, Function.update_self] using hown
      · exact Or.inl (by simp only [setReplica, Function.update_of_ne hij])
    refine ⟨hfiled.of_sees hsees ?_ hfiled.others, hsees⟩
    intro j n job hjob
    by_cases hij : j = i
    · subst hij
      simp only [setReplica, Function.update_self, System.cluster_of_isLocal hlocal hown] at hjob
      exact hfiled.created j n job hjob
    · simp only [setReplica, Function.update_of_ne hij] at hjob
      exact hfiled.created j n job hjob
  next => cases hstep

theorem step_accept (hdistinct : Function.Injective identity)
    (hfiled : g.Filed identity Borrowed) {i : I} {status : Option JobStatus}
    (hstep : g.step (.accept i status) = some h) :
    h.Filed identity Borrowed ∧ ∀ j, Sees identity Borrowed g (.accept i status) h j := by
  simp only [step] at hstep
  split at hstep
  next c pass checked hcreating =>
    split at hstep
    next hstatus =>
      obtain rfl := Option.some.inj hstep
      have htag : Selects (identity i) checked.item.labels := by
        rw [← hfiled.named i]
        exact hfiled.tagged i _ ((hfiled.conserved i).mem_putIn hcreating)
      have hown := System.step_accept hcreating hstatus
      generalize hs : ((g.replicas i).fileJob checked.item status).setCall c
        (.passing { pass with phase := .created checked }) = s at hown ⊢
      have hidentity : s.identity = identity i := by
        rw [← hs]
        exact hfiled.named i
      have hsees : ∀ j, Sees identity Borrowed g (.accept i status)
          (((g.setReplica i s).setLabels (.created i (g.replicas i).nextUid)
            checked.item.labels).publish _ _) j :=
        sees_created hdistinct hfiled.named rfl hidentity _
          (by simpa only [setLabels, Function.update_self] using htag)
          (.accept status) (fun _ hne => nomatch hne) hown
      refine ⟨hfiled.of_sees hsees ?_ ?_, hsees⟩
      · intro j n job hjob
        rw [publish_cluster] at hjob
        change (Function.update g.replicas i s j).cluster.get n = some job at hjob
        show Selects (identity j) (Function.update g.labels _ checked.item.labels (.created j n))
        by_cases hnew : Uid.created j n = .created i (g.replicas i).nextUid
        · obtain ⟨rfl, rfl⟩ := Uid.created.inj hnew
          rw [Function.update_self]
          exact htag
        · rw [Function.update_of_ne hnew]
          apply hfiled.created j n job
          by_cases hij : j = i
          · subst hij
            rw [Function.update_self, ← hs] at hjob
            have hne : n ≠ (g.replicas j).nextUid := fun hn => hnew (hn ▸ rfl)
            exact (HashMap.get_insert_of_ne _ _ hne).symm.trans hjob
          · rwa [Function.update_of_ne hij] at hjob
      · intro n id hselects
        exact hfiled.others n id hselects
    next => cases hstep
  next => cases hstep

/-- The server changes or removes a Job of replica `i` and publishes the change. -/
theorem change_created (hdistinct : Function.Injective identity)
    (hfiled : g.Filed identity Borrowed) {i : I} {n : ℕ} {job : ClusterJob}
    (hfound : (g.replicas i).cluster.get n = some job) {cluster : HashMap ℕ ClusterJob}
    (hkept : ∀ m, cluster.get m ≠ none → (g.replicas i).cluster.get m ≠ none)
    {action : ReplicasAction I} {own : Action} (hmirror : Mirror i action own)
    (hforeign : ∀ event, own ≠ .foreign event) {event : WatchEvent}
    (hown : (g.replicas i).step own =
      some ({ g.replicas i with cluster := cluster }.receive ⟨some n, event⟩))
    (hresult : h = (g.setReplica i { g.replicas i with cluster := cluster }).publish
      (.created i n) event) :
    h.Filed identity Borrowed ∧ ∀ j, Sees identity Borrowed g action h j := by
  subst hresult
  have hsees : ∀ j, Sees identity Borrowed g action ((g.setReplica i
      { g.replicas i with cluster := cluster }).publish (.created i n) event) j :=
    sees_created (h := g.setReplica i { g.replicas i with cluster := cluster }) hdistinct
      hfiled.named rfl (hfiled.named i) event (hfiled.created i n job hfound) hmirror hforeign hown
  refine ⟨hfiled.of_sees hsees ?_ hfiled.others, hsees⟩
  intro j m other hother
  rw [publish_cluster] at hother
  by_cases hij : j = i
  · subst hij
    simp only [setReplica, Function.update_self] at hother
    obtain ⟨before, hbefore⟩ := Option.ne_none_iff_exists'.mp (hkept m (by simp [hother]))
    exact hfiled.created j m before hbefore
  · simp only [setReplica, Function.update_of_ne hij] at hother
    exact hfiled.created j m other hother

/-- The server stores, changes or removes a Job of somebody else. -/
theorem change_other (hfiled : g.Filed identity Borrowed) {h' : Replicas I} {n : ℕ}
    {event : WatchEvent} (hresult : h = h'.publish (.other n) event)
    (hreplicas : h'.replicas = g.replicas)
    (hcreated : ∀ i n, h'.labels (.created i n) = g.labels (.created i n))
    (hothers : ∀ n id, Selects id (h'.labels (.other n)) → Borrowed id)
    {action : ReplicasAction I} :
    h.Filed identity Borrowed ∧ ∀ j, Sees identity Borrowed g action h j := by
  subst hresult
  have hsees : ∀ j, Sees identity Borrowed g action (h'.publish (.other n) event) j :=
    sees_other hfiled.named hreplicas n event (hothers n) action
  refine ⟨hfiled.of_sees hsees ?_ hothers, hsees⟩
  intro j m job hjob
  rw [publish_cluster, hreplicas] at hjob
  show Selects (identity j) (h'.labels (.created j m))
  rw [hcreated]
  exact hfiled.created j m job hjob

theorem step_setStatus (hdistinct : Function.Injective identity)
    (hfiled : g.Filed identity Borrowed) {uid : Uid I} {status : JobStatus}
    (hstep : g.step (.setStatus uid status) = some h) :
    h.Filed identity Borrowed ∧ ∀ j, Sees identity Borrowed g (.setStatus uid status) h j := by
  simp only [step] at hstep
  split at hstep
  next job hfound =>
    split at hstep
    next hfinal =>
      have hresult := (Option.some.inj hstep).symm
      cases uid with
      | created i n =>
          apply change_created hdistinct hfiled hfound _ (.setStatus n status)
            (fun _ hne => nomatch hne) _ hresult
          · intro m hget
            by_cases hm : m = n
            · rw [hm]
              exact fun hnone => nomatch hnone.symm.trans hfound
            · rwa [HashMap.get_insert_of_ne _ _ hm] at hget
          · have hown : (g.replicas i).cluster.get n = some job := hfound
            rw [System.step_eq_proceed rfl rfl]
            simp only [System.proceed, hown, if_pos hfinal]
            rfl
      | other n => exact change_other hfiled hresult rfl (fun _ _ => rfl) hfiled.others
    next => cases hstep
  next => cases hstep

theorem step_deleteJob (hdistinct : Function.Injective identity)
    (hfiled : g.Filed identity Borrowed) {uid : Uid I}
    (hstep : g.step (.deleteJob uid) = some h) :
    h.Filed identity Borrowed ∧ ∀ j, Sees identity Borrowed g (.deleteJob uid) h j := by
  simp only [step] at hstep
  split at hstep
  next job hfound =>
    have hresult := (Option.some.inj hstep).symm
    cases uid with
    | created i n =>
        apply change_created hdistinct hfiled hfound _ (.deleteJob n)
          (fun _ hne => nomatch hne) _ hresult
        · intro m hget hnone
          apply hget
          by_cases hm : m = n
          · rw [hm, HashMap.get_remove_self]
          · rw [HashMap.get_remove_of_ne _ hm, hnone]
        · have hown : (g.replicas i).cluster.get n = some job := hfound
          rw [System.step_eq_proceed rfl rfl]
          simp only [System.proceed, hown]
          rfl
    | other n => exact change_other hfiled hresult rfl (fun _ _ => rfl) hfiled.others
  next => cases hstep

theorem step_createOther (hfiled : g.Filed identity Borrowed) {key : ObjectRef}
    {labels : HashMap String String} {status : Option JobStatus}
    (hborrowed : ∀ id, Selects id labels → Borrowed id)
    (hstep : g.step (.createOther key labels status) = some h) :
    h.Filed identity Borrowed ∧
      ∀ j, Sees identity Borrowed g (.createOther key labels status) h j := by
  have hresult := (Option.some.inj hstep).symm
  apply change_other hfiled hresult rfl fun _ _ => rfl
  intro n id hselects
  change Selects id (Function.update g.labels (.other g.nextOther) labels (.other n)) at hselects
  by_cases hn : Uid.other n = Uid.other (I := I) g.nextOther
  · rw [hn, Function.update_self] at hselects
    exact hborrowed id hselects
  · rw [Function.update_of_ne hn] at hselects
    exact hfiled.others n id hselects

/-- Every step files its Jobs right, and every replica sees nothing of it or a step of its
own system. -/
theorem Filed.step (hdistinct : Function.Injective identity)
    (hfiled : g.Filed identity Borrowed) {action : ReplicasAction I}
    (hborrowed : ∀ key labels status, action = .createOther key labels status →
      ∀ id, Selects id labels → Borrowed id)
    (hstep : g.step action = some h) :
    h.Filed identity Borrowed ∧ ∀ j, Sees identity Borrowed g action h j := by
  cases action with
  | replica i action => exact step_replica hfiled hstep
  | accept i status => exact step_accept hdistinct hfiled hstep
  | setStatus uid status => exact step_setStatus hdistinct hfiled hstep
  | deleteJob uid => exact step_deleteJob hdistinct hfiled hstep
  | createOther key labels status =>
      exact step_createOther hfiled (hborrowed key labels status rfl) hstep

/-! ## Runs of all replicas -/

/-- Somebody creates a Job with this identity on it by hand. -/
def BorrowedBy (actions : List (ReplicasAction I)) (id : String) : Prop :=
  ∃ key labels status, .createOther key labels status ∈ actions ∧ Selects id labels

theorem Filed.step_of_mem (hdistinct : Function.Injective identity)
    {actions : List (ReplicasAction I)} {action : ReplicasAction I} (hmem : action ∈ actions)
    (hfiled : g.Filed identity (BorrowedBy actions)) (hstep : g.step action = some h) :
    h.Filed identity (BorrowedBy actions) ∧
      ∀ i, Sees identity (BorrowedBy actions) g action h i := by
  apply hfiled.step hdistinct _ hstep
  intro key labels status haction id hselects
  exact ⟨key, labels, status, haction ▸ hmem, hselects⟩

/-- In a run of any number of replicas with pairwise different identities, each replica goes
through a run of the system of one, and a foreign Job turns up in it only if somebody put
the identity of the replica on a Job by hand.  On the server the Jobs the queues created
carry the identity of the replica that created them and of no other. -/
theorem replicas_isolated (identity : I → String) (hdistinct : Function.Injective identity)
    (config : I → ActionConfig) (actions : List (ReplicasAction I)) (g : Replicas I)
    (hrun : run step (start identity config) actions = some g) (i : I) :
    (∃ own, (∀ event, Action.foreign event ∈ own → BorrowedBy actions (identity i)) ∧
      run System.step (System.start (identity i) (config i) JobsWatch.init) own =
        some (g.replicas i)) ∧
    ∀ j n job, g.job (.created j n) = some job →
      (Selects (identity i) (g.labels (.created j n)) ↔ j = i) := by
  obtain ⟨hfiled, own, hown, hview⟩ := exists_run_of_view (fun g : Replicas I => g.replicas i)
    (fun g => g.Filed identity (BorrowedBy actions))
    (fun own => ∀ event, own = Action.foreign event → BorrowedBy actions (identity i))
    (fun s action t hmem hstep hfiled => by
      obtain ⟨hnext, hsees⟩ := hfiled.step_of_mem hdistinct hmem hstep
      rcases hsees i with hsame | ⟨own, ⟨-, hown⟩, hstep⟩
      · exact ⟨hnext, Or.inl hsame⟩
      · exact ⟨hnext, Or.inr ⟨own, hown, hstep⟩⟩)
    hrun (start_filed identity config _)
  refine ⟨⟨own, fun event hmem => hown _ hmem event rfl, hview⟩, ?_⟩
  intro j n job hjob
  have hselects := hfiled.created j n job hjob
  constructor
  · intro hi
    exact (hdistinct (hselects.unique hi)).symm
  · intro hij
    exact hij ▸ hselects

/-- Two replicas: a Job is put in at the first one, created, and its event handled. -/
def twoNames : Bool → String
  | true => "first"
  | false => "second"

theorem twoNames_injective : Function.Injective twoNames := by
  decide

def createAtFirst : List (ReplicasAction Bool) :=
  [.replica true (.enqueue ⟨{ name := some "job" }⟩ "default" none 0),
    .replica true .notify, .replica false .watchError,
    .replica true (.loop .queueEvents .changed),
    .replica true (.loop .queueEvents .borrowAndUpdate),
    .replica true (.loop .queueEvents .lock), .replica true (.call .loadRunningJobs),
    .replica true (.call .readLen), .replica true (.call .readConfig),
    .replica true (.call .updateGauges), .replica true (.call .recv),
    .replica true (.call (.check 1 1)), .accept true none, .setStatus (.created true 0) {},
    .replica true (.call .reply), .replica true (.call .updateGauges),
    .replica true (.call .stop), .replica true (.deliver true)]

theorem replicas_isolated_createAtFirst :
    ∃ g, run step (start twoNames fun _ => {}) createAtFirst = some g ∧
      ∃ own, run System.step (System.start "second" {} JobsWatch.init) own =
        some (g.replicas false) := by
  obtain ⟨⟨own, -, hown⟩, -⟩ := replicas_isolated twoNames twoNames_injective (fun _ => {})
    createAtFirst _ rfl false
  exact ⟨_, rfl, own, hown⟩

/-! ## The limits of all replicas -/

/-- What a step has to keep for the limits: a replica keeps its own limit, finds its
unfinished Jobs counted when it loads the counter, and hears of every Job it created. -/
def LimitsKept (limit : I → ℕ) (g : Replicas I) : ReplicasAction I → Replicas I → Prop
  | .replica i action, h =>
      System.WithinReach (limit i) (g.replicas i) action (h.replicas i)
  | _, _ => True

instance (limit : I → ℕ) (g : Replicas I) (action : ReplicasAction I) (h : Replicas I) :
    Decidable (LimitsKept limit g action h) :=
  match action with
  | .replica i action =>
      inferInstanceAs (Decidable (System.WithinReach (limit i) (g.replicas i) action _))
  | .accept .. | .setStatus .. | .deleteJob _ | .createOther .. => instDecidableTrue

omit [DecidableEq I] in
theorem limited_of_sees {limit : I → ℕ} {action : ReplicasAction I} {i : I}
    (hsees : Sees identity Borrowed g action h i) (hconserved : (g.replicas i).Conserved)
    (hkept : LimitsKept limit g action h) (hlimited : (g.replicas i).Limited (limit i)) :
    (h.replicas i).Limited (limit i) := by
  rcases hsees with hsame | ⟨own, ⟨hmirror, -⟩, hstep⟩
  · rwa [hsame]
  · cases hmirror with
    | replica action => exact hlimited.step hstep hconserved hkept
    | accept | setStatus | deleteJob | foreign =>
        exact hlimited.step hstep hconserved ⟨trivial, trivial, trivial⟩

/-- In every run of the replicas in which each keeps its limit, loads its counter only when
its own unfinished Jobs are counted, and hears of every Job it created, the replicas
together have at most as many unfinished Jobs on the server as their limits allow together. -/
theorem unfinished_le_limits [Fintype I] (identity : I → String)
    (hdistinct : Function.Injective identity) (config : I → ActionConfig)
    (actions : List (ReplicasAction I)) (g : Replicas I)
    (hrun : run step (start identity config) actions = some g)
    (hkept : Along step (LimitsKept fun i => (config i).maxRunningJobs) (start identity config)
      actions) :
    ∑ i, (g.replicas i).unfinishedInCluster ≤ ∑ i, (config i).maxRunningJobs := by
  have hstep : ∀ s action t, step s action = some t →
      s.Filed identity (BorrowedBy actions) ∧
        (∀ i, (s.replicas i).Limited (config i).maxRunningJobs) →
      LimitsKept (fun i => (config i).maxRunningJobs) s action t ∧ action ∈ actions →
      t.Filed identity (BorrowedBy actions) ∧
        ∀ i, (t.replicas i).Limited (config i).maxRunningJobs := by
    rintro s action t hst ⟨hfiled, hlimited⟩ ⟨hkept, hmem⟩
    obtain ⟨hnext, hsees⟩ := hfiled.step_of_mem hdistinct hmem hst
    refine ⟨hnext, fun i => ?_⟩
    exact limited_of_sees (hsees i) (hfiled.conserved i) hkept (hlimited i)
  have hinv := invariant_of_along hstep hrun
    (hkept.and (along_of_forall_mem _ fun _ hmem => hmem))
    ⟨start_filed identity config _, fun i => System.start_limited ..⟩
  exact Finset.sum_le_sum fun i _ => (hinv.2 i).within

theorem unfinished_le_limits_createAtFirst :
    ∃ g, run step (start twoNames fun _ => {}) createAtFirst = some g ∧
      ∑ i, (g.replicas i).unfinishedInCluster ≤ 32 := by
  exact ⟨_, rfl, unfinished_le_limits twoNames twoNames_injective (fun _ => {})
    createAtFirst _ rfl (by decide)⟩

end Replicas

end GitEventsRunner.Jobs
