/-
# The limit on running Jobs

`maxRunningJobs` is documented as the maximum number of simultaneously running
Jobs per controller replica.  `run_queue` enforces it against a counter that only
the watch handler moves, so a Job that was created a moment ago is invisible to
the next call until its first event is handled.  And a call gives up the capacity a
Job takes only when it hears that the Job was created.

The limit holds in every run in which a call that loads the counter finds the
unfinished Jobs of the cluster counted, and hears of every Job it created.  It fails
in a run of two calls without an event between them, and in a run of one call that
misses a reply.
-/

import GitEventsRunner.Jobs.Conservation

namespace GitEventsRunner.Jobs

open GitEventsRunner.Lib

namespace Call

/-- What a call that found all of the `unfinished` Jobs of the cluster counted
may still rely on: the capacity it has left fits under the limit. -/
def Fits (limit unfinished : ℕ) : Call → Prop
  | .locked => True
  | .counted runningJobs | .measured runningJobs _ => unfinished ≤ runningJobs
  | .limited runningJobs _ maxRunningJobs => unfinished ≤ runningJobs ∧ maxRunningJobs = limit
  | .passing pass => unfinished + pass.freeCapacity ≤ limit + pass.phase.owed

/-- Jobs that finish or are deleted only make room. -/
theorem Fits.mono {call : Call} {limit n m : ℕ} (h : call.Fits limit n) (hle : m ≤ n) :
    call.Fits limit m := by
  cases call with
  | locked => trivial
  | counted runningJobs => exact le_trans hle h
  | measured runningJobs waitingJobs => exact le_trans hle h
  | limited runningJobs waitingJobs maxRunningJobs => exact ⟨le_trans hle h.1, h.2⟩
  | passing pass =>
      have hfits : n + pass.freeCapacity ≤ limit + pass.phase.owed := h
      show m + pass.freeCapacity ≤ limit + pass.phase.owed
      omega

end Call

namespace System

/-- The limit is in force, kept by the cluster and respected by the call. -/
structure Limited (limit : ℕ) (s : System) : Prop where
  inForce : s.config.maxRunningJobs = limit
  within : s.unfinishedInCluster ≤ limit
  current : ∀ c call, s.call = some (c, call) → call.Fits limit s.unfinishedInCluster

/-- The config may be replaced, but the limit stays. -/
def KeepsLimit (limit : ℕ) (_ : System) : Action → System → Prop
  | .replaceConfig config, _ => config.maxRunningJobs = limit
  | _, _ => True

instance (limit : ℕ) (s : System) (action : Action) (t : System) :
    Decidable (KeepsLimit limit s action t) :=
  match action with
  | .replaceConfig config => Nat.decEq config.maxRunningJobs limit
  | .enqueue .. | .notify | .loop .. | .call _ | .setStatus .. | .deleteJob _ | .foreign _
  | .deliver _ | .watchError => instDecidableTrue

/-- A call that loads the counter finds every unfinished Job of this instance
counted: no creation and no event that concerns one is still under way. -/
def CountedAtLoad (s : System) : Action → System → Prop
  | .call .loadRunningJobs, _ => s.unfinishedInCluster ≤ s.watch.runningJobs
  | _, _ => True

instance (s : System) (action : Action) (t : System) : Decidable (CountedAtLoad s action t) :=
  match action with
  | .call .loadRunningJobs => Nat.decLe s.unfinishedInCluster s.watch.runningJobs
  | .call .readLen | .call .readConfig | .call .updateGauges | .call .recv | .call (.check ..)
  | .call (.accept ..) | .call .reject | .call .reply | .call .loseReply | .call .stop
  | .enqueue .. | .notify | .replaceConfig _ | .loop .. | .setStatus .. | .deleteJob _
  | .foreign _ | .deliver _ | .watchError => instDecidableTrue

/-- The reply about a Job that the server stored is not lost. -/
def RepliesArrive (_ : System) (action : Action) (_ : System) : Prop :=
  match action with
  | .call .loseReply => False
  | _ => True

instance (s : System) (action : Action) (t : System) : Decidable (RepliesArrive s action t) :=
  match action with
  | .call .loseReply => instDecidableFalse
  | .call .loadRunningJobs | .call .readLen | .call .readConfig | .call .updateGauges
  | .call .recv | .call (.check ..) | .call (.accept ..) | .call .reject | .call .reply
  | .call .stop | .enqueue .. | .notify | .replaceConfig _ | .loop .. | .setStatus ..
  | .deleteJob _ | .foreign _ | .deliver _ | .watchError => instDecidableTrue

/-- What a step has to meet for the limit to hold: the limit stays, the counter may be
believed when it is loaded, and no reply is lost. -/
def WithinReach (limit : ℕ) (s : System) (action : Action) (t : System) : Prop :=
  KeepsLimit limit s action t ∧ CountedAtLoad s action t ∧ RepliesArrive s action t

instance (limit : ℕ) (s : System) (action : Action) (t : System) :
    Decidable (WithinReach limit s action t) :=
  inferInstanceAs (Decidable (_ ∧ _ ∧ _))

theorem start_limited (identity : String) (config : ActionConfig) (watch : JobsWatch) :
    (start identity config watch).Limited config.maxRunningJobs where
  inForce := rfl
  within := Nat.zero_le _
  current := by simp [start]

/-! ## The number of unfinished Jobs -/

theorem unfinishedInCluster_createJob (s : System) (item : JobsQueueItem)
    (status : Option JobStatus) :
    (s.createJob item status).unfinishedInCluster ≤ s.unfinishedInCluster + 1 := by
  have hcount := HashMap.countP_insert ClusterJob.isUnfinished s.cluster s.nextUid
    ⟨item.job.objectRef, status⟩
  have hweight : HashMap.weight ClusterJob.isUnfinished
      (some ⟨item.job.objectRef, status⟩) ≤ 1 := by
    rw [HashMap.weight_some]
    split <;> omega
  show (s.cluster.insert s.nextUid _).countP _ ≤ s.cluster.countP _ + 1
  omega

/-- A finished Job stays finished, so a new status never adds an unfinished one. -/
theorem countP_setStatus_le {cluster : HashMap ℕ ClusterJob} {uid : ℕ} {status : JobStatus}
    {job : ClusterJob} (hfound : cluster.get uid = some job)
    (hfinal : job.isUnfinished = true ∨ status.isUnfinished = false) :
    (cluster.insert uid ⟨job.key, some status⟩).countP ClusterJob.isUnfinished ≤
      cluster.countP ClusterJob.isUnfinished := by
  have hcount := HashMap.countP_insert ClusterJob.isUnfinished cluster uid
    ⟨job.key, some status⟩
  have hnew : ClusterJob.isUnfinished ⟨job.key, some status⟩ = status.isUnfinished := rfl
  rw [hfound, HashMap.weight_some, HashMap.weight_some, hnew] at hcount
  rcases hfinal with hold | hdone
  · rw [hold, if_pos rfl] at hcount
    split at hcount <;> omega
  · rw [hdone] at hcount
    simp only [Bool.false_eq_true, if_false] at hcount
    omega

theorem countP_remove_le (cluster : HashMap ℕ ClusterJob) (uid : ℕ) :
    (cluster.remove uid).countP ClusterJob.isUnfinished ≤
      cluster.countP ClusterJob.isUnfinished := by
  have hcount := HashMap.countP_remove ClusterJob.isUnfinished cluster uid
  omega

/-! ## Steps and runs -/

/-- A step of the call that leaves the cluster alone only has to fit. -/
theorem Limited.of_call {limit : ℕ} {s t : System} (h : s.Limited limit)
    (hconfig : t.config = s.config) (hcluster : t.cluster = s.cluster) {c : Caller} {call : Call}
    (hcall : t.call = some (c, call)) (hfits : call.Fits limit s.unfinishedInCluster) :
    t.Limited limit where
  inForce := by rw [hconfig]; exact h.inForce
  within := by rw [unfinishedInCluster, hcluster]; exact h.within
  current := by
    intro d other hother
    rw [hcall] at hother
    cases hother
    rw [unfinishedInCluster, hcluster]
    exact hfits

/-- A call that returns leaves nothing that has to fit. -/
theorem Limited.of_return {limit : ℕ} {s t : System} (h : s.Limited limit)
    (hconfig : t.config = s.config) (hcluster : t.cluster = s.cluster) (hcall : t.call = none) :
    t.Limited limit where
  inForce := by rw [hconfig]; exact h.inForce
  within := by rw [unfinishedInCluster, hcluster]; exact h.within
  current := by simp [hcall]

/-- A step that only takes unfinished Jobs away keeps the limit. -/
theorem Limited.of_le {limit : ℕ} {s t : System} (h : s.Limited limit)
    (hconfig : t.config = s.config) (hcall : t.call = s.call)
    (hle : t.unfinishedInCluster ≤ s.unfinishedInCluster) : t.Limited limit where
  inForce := by rw [hconfig]; exact h.inForce
  within := hle.trans h.within
  current c call hc := (h.current c call (hcall ▸ hc)).mono hle

theorem Limited.fits {limit : ℕ} {s : System} (h : s.Limited limit) {c : Caller} {pass : Pass}
    (hcall : s.call = some (c, .passing pass)) :
    s.unfinishedInCluster + pass.freeCapacity ≤ limit + pass.phase.owed :=
  h.current c _ hcall

/-- Every step under the conditions keeps the limit. -/
theorem Limited.step {limit : ℕ} {s t : System} {action : Action}
    (hstep : s.step action = some t) (hconserved : s.Conserved) (h : s.Limited limit)
    (hreach : WithinReach limit s action t) : t.Limited limit := by
  obtain ⟨hkeeps, hcounted, hreplies⟩ := hreach
  cases Transition.of_step hstep with
  | replaceEarly config hloop => exact ⟨hkeeps, h.within, h.current⟩
  | replace config hloop => exact ⟨hkeeps, h.within, h.current⟩
  | lock c hloop hcall => exact h.of_call rfl rfl rfl trivial
  | loadRunningJobs c hcall => exact h.of_call rfl rfl rfl hcounted
  | readLen c runningJobs hcall =>
      have hseen : s.unfinishedInCluster ≤ runningJobs := h.current c _ hcall
      exact h.of_call rfl rfl rfl hseen
  | readConfig c runningJobs waitingJobs hcall =>
      have hseen : s.unfinishedInCluster ≤ runningJobs := h.current c _ hcall
      exact h.of_call rfl rfl rfl ⟨hseen, h.inForce⟩
  | exceeded c runningJobs waitingJobs maxRunningJobs hcall hlimit => exact h.of_return rfl rfl rfl
  | begin c runningJobs waitingJobs maxRunningJobs hcall hlimit =>
      obtain ⟨hseen, hlim⟩ : s.unfinishedInCluster ≤ runningJobs ∧ maxRunningJobs = limit :=
        h.current c _ hcall
      have hfits : s.unfinishedInCluster + (maxRunningJobs - runningJobs) ≤ limit + 0 := by omega
      exact h.of_call rfl rfl rfl hfits
  | recv c pass item rest hcall hphase hwaiting hjobs hfree =>
      have hfits := h.fits hcall
      rw [hphase] at hfits
      exact h.of_call rfl rfl rfl hfits
  | expire c pass item now measured hcall hphase hexpired =>
      have hfits := h.fits hcall
      rw [hphase] at hfits
      exact h.of_call rfl rfl rfl hfits
  | request c pass item now measured hcall hphase hfresh =>
      have hfits := h.fits hcall
      rw [hphase] at hfits
      exact h.of_call rfl rfl rfl hfits
  | accept c pass checked status hcall hphase hstatus =>
      have hfits := h.fits hcall
      have hbalanced : pass.Balanced s.waiting.length := hconserved.current c _ hcall
      have hroom := hbalanced.room
      have hcount := unfinishedInCluster_createJob s checked.item status
      simp only [hphase, PassPhase.owed, PassPhase.inHand] at hfits hroom
      have hpos := hroom (by simp)
      refine ⟨h.inForce, ?_, ?_⟩
      · show (s.createJob checked.item status).unfinishedInCluster ≤ limit
        omega
      · intro d call hd
        cases hd
        show (s.createJob checked.item status).unfinishedInCluster + pass.freeCapacity ≤ limit + 1
        omega
  | reject c pass checked hcall hphase =>
      have hfits := h.fits hcall
      rw [hphase] at hfits
      exact h.of_call rfl rfl rfl hfits
  | reply c pass checked hcall hphase =>
      have hfits := h.fits hcall
      have hbalanced : pass.Balanced s.waiting.length := hconserved.current c _ hcall
      have hroom := hbalanced.room
      simp only [hphase, PassPhase.owed, PassPhase.inHand] at hfits hroom
      have hpos := hroom (by simp)
      have hafter : s.unfinishedInCluster + (pass.freeCapacity - 1) ≤ limit + 0 := by omega
      exact h.of_call rfl rfl rfl hafter
  | loseReply c pass checked hcall hphase => exact hreplies.elim
  | gauge c pass hcall hphase =>
      have hfits := h.fits hcall
      rw [hphase] at hfits
      exact h.of_call rfl rfl rfl hfits
  | stop c pass hcall hphase hdone => exact h.of_return rfl rfl rfl
  | setStatus uid status job hfound hfinal =>
      exact h.of_le rfl rfl (countP_setStatus_le hfound hfinal)
  | deleteJob uid job hfound => exact h.of_le rfl rfl (countP_remove_le s.cluster uid)
  | enqueue | notify | notifyNobody | subscribe | changed | borrowAndUpdate | foreign | deliver |
      watchError | panic =>
      exact ⟨h.inForce, h.within, h.current⟩

/-- In every run with a constant limit in which each call that loads the counter
finds every unfinished Job of this instance counted, and hears of each Job it created,
no state reached has more unfinished Jobs of this instance than the limit. -/
theorem unfinished_le_limit (identity : String) (config : ActionConfig) (watch : JobsWatch)
    (actions : List Action) (s : System)
    (hrun : run step (start identity config watch) actions = some s)
    (hreach : Along step (WithinReach config.maxRunningJobs) (start identity config watch)
      actions) : s.unfinishedInCluster ≤ config.maxRunningJobs := by
  have hstep : ∀ s a t, step s a = some t → s.Conserved ∧ s.Limited config.maxRunningJobs →
      WithinReach config.maxRunningJobs s a t →
      t.Conserved ∧ t.Limited config.maxRunningJobs := by
    intro s a t hst hs hc
    exact ⟨hs.1.step hst, hs.2.step hst hs.1 hc⟩
  have hinv := invariant_of_along hstep hrun hreach
    ⟨start_conserved _ _ _, start_limited _ _ _⟩
  exact hinv.2.within

/-- One call of the queue loop up to its loop. -/
def beginCall : List Action :=
  [.loop .queueEvents .changed, .loop .queueEvents .borrowAndUpdate, .loop .queueEvents .lock,
    .call .loadRunningJobs, .call .readLen, .call .readConfig, .call .updateGauges]

/-- One call of the queue loop that creates one Job and returns. -/
def oneCall : List Action :=
  beginCall ++ [.call .recv, .call (.check 0 0), .call (.accept none), .call .reply,
    .call .updateGauges, .call .stop]

/-- A Job is put in and created; its status is delivered before the next Job is put in, and
the next call finds the limit reached. -/
def countedBetween : List Action :=
  [.enqueue (labelledJob "a") "default" none 0, .notify] ++ oneCall ++
    [.setStatus 0 {}, .deliver true, .deliver true,
      .enqueue (labelledJob "b") "default" none 0, .notify] ++
    beginCall ++ [.call .stop]

theorem unfinished_le_limit_countedBetween :
    ∃ s, run step (start "me" { maxRunningJobs := 1 } JobsWatch.init) countedBetween = some s ∧
      s.waiting.length = 1 ∧ s.unfinishedInCluster ≤ 1 := by
  have hwaiting : (run step (start "me" { maxRunningJobs := 1 } JobsWatch.init)
      countedBetween).map (fun s => s.waiting.length) = some 1 := by
    decide +kernel
  obtain ⟨s, hrun, hlength⟩ := Option.map_eq_some_iff.mp hwaiting
  exact ⟨s, hrun, hlength, unfinished_le_limit "me" { maxRunningJobs := 1 } JobsWatch.init
    countedBetween s hrun (by decide +kernel)⟩

/-- Two Jobs are put in under a limit of one.  If the queue loop runs twice before any
event of the first Job is delivered, both are created; and one call creates both if it
misses the reply about the first one. -/
theorem limit_exceeded_before_delivery :
    (∃ s, run step (start "me" { maxRunningJobs := 1 } JobsWatch.init)
        ([.enqueue (labelledJob "a") "default" none 0, .notify] ++ oneCall ++
          [.enqueue (labelledJob "b") "default" none 0, .notify] ++ oneCall) = some s ∧
      s.config.maxRunningJobs = 1 ∧ s.unfinishedInCluster = 2) ∧
    ∃ s, run step (start "me" { maxRunningJobs := 1 } JobsWatch.init)
        ([.enqueue (labelledJob "a") "default" none 0, .notify,
          .enqueue (labelledJob "b") "default" none 0, .notify] ++ beginCall ++
          [.call .recv, .call (.check 0 0), .call (.accept none), .call .loseReply,
            .call .updateGauges, .call .recv, .call (.check 0 0), .call (.accept none)]) = some s ∧
      s.config.maxRunningJobs = 1 ∧ s.unfinishedInCluster = 2 := by
  exact ⟨⟨_, rfl, rfl, by decide⟩, ⟨_, rfl, rfl, by decide⟩⟩

end System

end GitEventsRunner.Jobs
