/-
# Tracking labels

A Job carries six labels that say which action made it, for which trigger and from
which source, and one with the identity of the controller.  The queue finds its Jobs
by the last, and the metrics of finished Jobs are filed under the first six, which
are taken for granted there.

An action may ask for additional labels.  They are added after the six and before the
seventh, so the identity is always the right one, but a label of the user replaces a
tracking label of the same key.
-/

import GitEventsRunner.Actions.Job

namespace GitEventsRunner.Actions

open GitEventsRunner.Lib
open GitEventsRunner.Triggers
open GitEventsRunner.Jobs

/-! ## The labels of a Job -/

section Labels

variable (action : Action) (call : ExecuteCall)

/-- The tracking labels of a Job and what they should say. -/
def trackingLabels : List (String × String) :=
  [(actionJobActionKindLabel, action.crdKind),
    (actionJobActionNameLabel, action.name),
    (actionJobSourceKindLabel, sourceKindText call.sourceKind),
    (actionJobSourceNameLabel, call.sourceName),
    (actionJobTriggerKindLabel, call.triggerKind),
    (actionJobTriggerNameLabel, call.triggerName)]

/-- The additional labels of an action. -/
def Action.additionalLabels : HashMap String String := action.actionJob.labels.getD ∅

variable {action call} {label value key : String}

theorem ne_identityLabel_of_tracking (h : (label, value) ∈ trackingLabels action call) :
    label ≠ actionJobIdentityLabel := by
  simp only [trackingLabels, List.mem_cons, Prod.mk.injEq, List.not_mem_nil, or_false] at h
  rcases h with h | h | h | h | h | h <;>
  · rw [h.1]
    decide

/-- A tracking label says the truth unless an additional label has its key. -/
theorem get_jobLabels_of_tracking (h : (label, value) ∈ trackingLabels action call) :
    (action.jobLabels call).get label = (action.additionalLabels.get label).or (some value) := by
  rw [Action.jobLabels, HashMap.get_extend, Action.additionalLabels]
  congr 1
  simp only [trackingLabels, List.mem_cons, Prod.mk.injEq, List.not_mem_nil, or_false] at h
  rcases h with h | h | h | h | h | h <;>
  · obtain ⟨rfl, rfl⟩ := h
    simp [HashMap.get_insert, actionJobActionKindLabel, actionJobActionNameLabel,
      actionJobSourceKindLabel, actionJobSourceNameLabel, actionJobTriggerKindLabel,
      actionJobTriggerNameLabel]

theorem get_jobLabels_of_additional (h : action.additionalLabels.get key = some value) :
    (action.jobLabels call).get key = some value := by
  rw [Action.jobLabels, HashMap.get_extend]
  rw [Action.additionalLabels] at h
  rw [h, Option.some_or]

end Labels

/-! ## Jobs in the queue -/

/-- The value of a label of a Job. -/
def labelOf (job : Job) (key : String) : Option String :=
  job.metadata.labels.bind fun labels => labels.get key

/-- The labels of a Job say what they should, the additional ones are there, and the
Job is counted under what it is. -/
structure Tracked (action : Action) (call : ExecuteCall) (identity : String) (job : Job) :
    Prop where
  tracking : ∀ label value, (label, value) ∈ trackingLabels action call →
    labelOf job label = some value
  identity : labelOf job actionJobIdentityLabel = some identity
  additional : ∀ key value, action.additionalLabels.get key = some value →
    key ≠ actionJobIdentityLabel → key ∉ (trackingLabels action call).map Prod.fst →
    labelOf job key = some value
  measured : ∀ status, countAndMeasureCompleted job status = some
    [call.ns, call.triggerKind, call.triggerName, sourceKindText call.sourceKind, call.sourceName,
      action.crdKind, action.name, status.text]

/-- No additional label says something else under the key of a tracking label. -/
def NotSubstituted (action : Action) (call : ExecuteCall) : Prop :=
  ∀ label value, (label, value) ∈ trackingLabels action call →
    ∀ additional, action.additionalLabels.get label = some additional → additional = value

section Item

variable {action : Action} {call : ExecuteCall} {enqueueCall : EnqueueCall}
  (hends : EndsExecution action call enqueueCall) (identity : String) (now : SystemTime)

include hends

/-- The labels of a Job in the queue are those it was made with and the identity. -/
theorem labelOf_item (key : String) : labelOf (enqueueCall.item identity now).job key =
    if key = actionJobIdentityLabel then some identity else (action.jobLabels call).get key := by
  show ((enqueueCall.job.metadata.labels.getD ∅).insert actionJobIdentityLabel identity).get key = _
  rw [hends.job.labels, Option.getD_some, HashMap.get_insert]

theorem labelOf_item_of_tracking {label value : String}
    (h : (label, value) ∈ trackingLabels action call) :
    labelOf (enqueueCall.item identity now).job label =
      (action.additionalLabels.get label).or (some value) := by
  rw [labelOf_item hends, if_neg (ne_identityLabel_of_tracking h), get_jobLabels_of_tracking h]

/-- What the metrics read are the labels of the Job. -/
theorem countAndMeasureCompleted_item
    (htracking : ∀ label value, (label, value) ∈ trackingLabels action call →
      labelOf (enqueueCall.item identity now).job label = some value)
    (status : JobCompletionStatus) :
    countAndMeasureCompleted (enqueueCall.item identity now).job status = some
      [call.ns, call.triggerKind, call.triggerName, sourceKindText call.sourceKind,
        call.sourceName, action.crdKind, action.name, status.text] := by
  have hns : (enqueueCall.item identity now).job.metadata.ns = some call.ns :=
    congrArg some hends.ns
  obtain ⟨labels, hlabels⟩ : ∃ labels,
      (enqueueCall.item identity now).job.metadata.labels = some labels := ⟨_, rfl⟩
  have hget : ∀ entry ∈ trackingLabels action call, labels.get entry.1 = some entry.2 := by
    intro entry hmem
    rw [← htracking entry.1 entry.2 hmem, labelOf, hlabels, Option.bind_some]
  simp only [trackingLabels, List.forall_mem_cons] at hget
  obtain ⟨hactionKind, hactionName, hsourceKind, hsourceName, htriggerKind, htriggerName, -⟩ := hget
  simp [countAndMeasureCompleted, hns, hlabels, hactionKind, hactionName, hsourceKind, hsourceName,
    htriggerKind, htriggerName]

theorem tracked_iff : Tracked action call identity (enqueueCall.item identity now).job ↔
    NotSubstituted action call := by
  constructor
  · intro h label value hmem additional hadditional
    have hlabel := h.tracking label value hmem
    rw [labelOf_item_of_tracking hends identity now hmem, hadditional] at hlabel
    exact Option.some.inj hlabel
  · intro h
    have htracking : ∀ label value, (label, value) ∈ trackingLabels action call →
        labelOf (enqueueCall.item identity now).job label = some value := by
      intro label value hmem
      rw [labelOf_item_of_tracking hends identity now hmem]
      cases hadditional : action.additionalLabels.get label with
      | none => rfl
      | some additional =>
          rw [h label value hmem additional hadditional]
          rfl
    constructor
    · exact htracking
    · rw [labelOf_item hends, if_pos rfl]
    · intro key value hvalue hne _
      rw [labelOf_item hends, if_neg hne, get_jobLabels_of_additional hvalue]
    · exact countAndMeasureCompleted_item hends identity now htracking

end Item

/-- The Jobs of an action are tracked as what they are exactly if no additional label
of the action says something else under the key of a tracking label. -/
theorem tracked_iff_notSubstituted (action : Action) (call : ExecuteCall) (identity : String)
    (now : SystemTime) :
    ((action.execute call).Returns fun enqueueCall =>
      Tracked action call identity (enqueueCall.item identity now).job) ↔
      NotSubstituted action call := by
  apply Prog.returns_iff JobEffect.plainReply (execute_returns action call)
  intro enqueueCall hends
  exact tracked_iff hends identity now

/-- An action with one additional label. -/
def labelledAction (key value : String) : Action where
  name := "build"
  ns := some "ns"
  sourceOverride := .action none
  actionJob := { labels := some ((∅ : HashMap String String).insert key value) }

/-- An additional label under the key of the name of the action: the Job says it was
made by another action. -/
theorem not_tracked_substituted_name :
    ¬ ((labelledAction actionJobActionNameLabel "deploy").execute buildCall).Returns
      fun enqueueCall => Tracked (labelledAction actionJobActionNameLabel "deploy") buildCall
        "controller" (enqueueCall.item "controller" 0).job := by
  intro h
  have htracked := h.of_runs (Prog.runs_traceWith JobEffect.plainReply _)
  have hname := htracked.tracking actionJobActionNameLabel "build"
    (List.mem_cons_of_mem _ List.mem_cons_self)
  revert hname
  decide +kernel

end GitEventsRunner.Actions
