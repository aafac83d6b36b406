/-
# Merging status updates

A call of `update_trigger_status` gives some parts of the status and leaves the
others.  What any number of calls should come to is stated here without the
calls: the last state and the last time that were given, and the recorded sources
of all calls one over the other, restricted to the sources of the spec.

The function has two branches.  The one for a trigger that has a status restricts
the sources; the one that writes the first status does not.
-/

import GitEventsRunner.Triggers.SoloRun
import Mathlib.Data.List.Induction

namespace GitEventsRunner.Triggers

open GitEventsRunner.Lib

/-- Calls of `update_trigger_status`, one after the other. -/
def Trigger.updateTriggerStatuses (trigger : Trigger) (updates : List StatusUpdate) :
    TriggerTask Unit :=
  Prog.forEach (fun update => do let _ ← trigger.updateTriggerStatus update) updates

/-! ## The law -/

/-- The last value that was given for a part of the status. -/
def lastGiven {α : Type} (part : StatusUpdate → Option α) (updates : List StatusUpdate) :
    Option α :=
  (updates.filterMap part).getLast?

/-- What the updates make of an initial status. -/
structure Merged (chrono : Rfc3339.Codec) (spec : Trigger) (initial : Option TriggerStatus)
    (updates : List StatusUpdate) (final : TriggerStatus) : Prop where
  state : final.state =
    (lastGiven StatusUpdate.state updates).getD (initial.elim .idle TriggerStatus.state)
  lastRun : final.lastRun =
    match lastGiven StatusUpdate.lastRun updates with
    | some lastRun => some (chrono.format lastRun)
    | none => initial.elim (some neverLastRunStr) TriggerStatus.lastRun
  checkedSources : final.checkedSources =
    ((updates.filterMap StatusUpdate.checkedSources).foldl HashMap.extend
      (recordedSources initial)).retain fun source => spec.sources.names.contains source

/-- After every call, the status is what the calls so far make of the initial one,
and it records sources of the spec only. -/
def MergeLaw (chrono : Rfc3339.Codec) (spec : Trigger) (initial : Option TriggerStatus)
    (updates : List StatusUpdate) : Prop :=
  ∀ calls, calls ≠ [] → calls <+: updates →
    ∀ trace next, (spec.updateTriggerStatuses calls).RunsIn (Solo chrono spec) initial trace next
        () →
      ∃ final, next = some final ∧ Merged chrono spec initial calls final ∧
        ∀ source, (final.checkedSources.get source).isSome = true → source ∈ spec.sources.names

/-- The first update gives no source that is not in the spec, if there is no status
yet. -/
def FirstNamed (spec : Trigger) (initial : Option TriggerStatus) (updates : List StatusUpdate) :
    Prop :=
  initial = none → ∀ first, updates.head? = some first →
    ∀ source, ((first.checkedSources.getD ∅).get source).isSome = true →
      source ∈ spec.sources.names

/-! ## The calls -/

section Calls

variable {chrono : Rfc3339.Codec} {spec : Trigger} {initial : Option TriggerStatus}
  {updates : List StatusUpdate}

/-- The status after the updates. -/
def statusAfter (chrono : Rfc3339.Codec) (spec : Trigger) (initial : Option TriggerStatus)
    (updates : List StatusUpdate) : Option TriggerStatus :=
  updates.foldl
    (fun status update => some (({ spec with status := status } : Trigger).newStatus chrono update))
    initial

theorem statusAfter_append_singleton (update : StatusUpdate) :
    statusAfter chrono spec initial (updates ++ [update]) =
      some (({ spec with status := statusAfter chrono spec initial updates } : Trigger).newStatus
        chrono update) :=
  List.foldl_concat _ _ _ _

/-- The calls lead to this status. -/
theorem updateTriggerStatuses_solo {next : Option TriggerStatus} {trace : List TaskEvent}
    (h : (spec.updateTriggerStatuses updates).RunsIn (Solo chrono spec) initial trace next ()) :
    next = statusAfter chrono spec initial updates := by
  induction updates generalizing initial trace with
  | nil => exact h.2.1
  | cons update updates ih =>
      obtain ⟨_, _, _, _, rfl, hfirst, hrest⟩ := h.of_bind
      obtain ⟨_, _, _, _, rfl, hupdate, ⟨rfl, rfl, -⟩⟩ := hfirst.of_bind
      obtain ⟨rfl, -⟩ := updateTriggerStatus_solo hupdate
      exact ih hrest

/-- The calls can always be made. -/
theorem exists_updateTriggerStatuses (chrono : Rfc3339.Codec) (spec : Trigger)
    (initial : Option TriggerStatus) (updates : List StatusUpdate) :
    ∃ trace, (spec.updateTriggerStatuses updates).RunsIn (Solo chrono spec) initial trace
      (statusAfter chrono spec initial updates) () := by
  have hrun := Prog.runsIn_runWith (solo_soloAnswer chrono spec (obliging spec))
    (spec.updateTriggerStatuses updates) initial
  apply Exists.intro
  rw [← updateTriggerStatuses_solo hrun]
  exact hrun

end Calls

/-! ## When the law holds -/

section Merging

variable {chrono : Rfc3339.Codec} {spec : Trigger} {initial : Option TriggerStatus}
  {updates : List StatusUpdate}

theorem lastGiven_append_singleton {α : Type} (part : StatusUpdate → Option α)
    (updates : List StatusUpdate) (update : StatusUpdate) :
    lastGiven part (updates ++ [update]) = (part update).or (lastGiven part updates) := by
  unfold lastGiven
  rw [List.filterMap_append]
  cases hpart : part update with
  | none => simp [hpart]
  | some given => simp [hpart]

/-- The sources of one more update go over the others. -/
theorem foldl_extend_append_singleton (recorded : HashMap String CheckedSourceState)
    (updates : List StatusUpdate) (update : StatusUpdate) :
    ((updates ++ [update]).filterMap StatusUpdate.checkedSources).foldl HashMap.extend recorded =
      ((updates.filterMap StatusUpdate.checkedSources).foldl HashMap.extend recorded).extend
        (update.checkedSources.getD ∅) := by
  rw [List.filterMap_append]
  cases hgiven : update.checkedSources with
  | none =>
      apply HashMap.ext_get
      intro source
      simp [hgiven, HashMap.get_extend]
  | some given => simp [hgiven]

/-- Restricting a map before another goes over it makes no difference to
restricting it afterwards. -/
theorem retain_extend_retain (p : String → Bool) (m other : HashMap String CheckedSourceState) :
    ((m.retain p).extend other).retain p = (m.extend other).retain p := by
  apply HashMap.ext_get
  intro source
  simp only [HashMap.get_retain, HashMap.get_extend]
  split
  · rfl
  · rfl

/-- One more update of a status, in the words of the law. -/
theorem Merged.append_singleton {status : TriggerStatus}
    (h : Merged chrono spec initial updates status) (update : StatusUpdate) :
    Merged chrono spec initial (updates ++ [update])
      (({ spec with status := some status } : Trigger).newStatus chrono update) := by
  constructor
  case state =>
    rw [lastGiven_append_singleton]
    show update.state.getD status.state = _
    rw [h.state]
    cases update.state with
    | none => rfl
    | some state => rfl
  case lastRun =>
    rw [lastGiven_append_singleton]
    show (match update.lastRun with
      | some lastRun => some (chrono.format lastRun)
      | none => status.lastRun) = _
    rw [h.lastRun]
    cases update.lastRun with
    | none => rfl
    | some lastRun => rfl
  case checkedSources =>
    rw [foldl_extend_append_singleton]
    show HashMap.retain _ (status.checkedSources.extend _) = _
    rw [h.checkedSources]
    exact retain_extend_retain _ _ _

/-- The status that no updates at all make of an initial one. -/
def startingStatus (spec : Trigger) (initial : Option TriggerStatus) : TriggerStatus where
  state := initial.elim .idle TriggerStatus.state
  lastRun := initial.elim (some neverLastRunStr) TriggerStatus.lastRun
  checkedSources := (recordedSources initial).retain fun source =>
    spec.sources.names.contains source

theorem merged_startingStatus (chrono : Rfc3339.Codec) (spec : Trigger)
    (initial : Option TriggerStatus) :
    Merged chrono spec initial [] (startingStatus spec initial) :=
  ⟨rfl, rfl, rfl⟩

/-- The first update writes what it would write over this status, if it only gives
sources of the spec. -/
theorem newStatus_eq_startingStatus (chrono : Rfc3339.Codec) {update : StatusUpdate}
    (hnamed : initial = none → ∀ source,
      ((update.checkedSources.getD ∅).get source).isSome = true → source ∈ spec.sources.names) :
    ({ spec with status := initial } : Trigger).newStatus chrono update =
      ({ spec with status := some (startingStatus spec initial) } : Trigger).newStatus chrono
        update := by
  cases initial with
  | some status =>
      show TriggerStatus.mk _ _ _ = TriggerStatus.mk _ _ _
      congr 1
      exact (retain_extend_retain _ _ _).symm
  | none =>
      show TriggerStatus.mk _ _ _ = TriggerStatus.mk _ _ _
      congr 1
      · cases update.lastRun with
        | none => rfl
        | some lastRun => rfl
      · apply HashMap.ext_get
        intro source
        rw [HashMap.get_retain, HashMap.get_extend]
        by_cases hsource : source ∈ spec.sources.names
        · simp [startingStatus, recordedSources, hsource, HashMap.get_retain]
        · have hnone := mt (hnamed rfl source) hsource
          simp [hsource, Option.not_isSome_iff_eq_none.mp hnone]

/-- Any number of calls, in the words of the law. -/
theorem merged_statusAfter (chrono : Rfc3339.Codec) (hnamed : FirstNamed spec initial updates)
    (hne : updates ≠ []) :
    ∃ final, statusAfter chrono spec initial updates = some final ∧
      Merged chrono spec initial updates final := by
  induction updates using List.reverseRecOn with
  | nil => exact absurd rfl hne
  | append_singleton updates update ih =>
      rw [statusAfter_append_singleton]
      refine ⟨_, rfl, ?_⟩
      cases updates with
      | nil =>
          have hfirst := newStatus_eq_startingStatus chrono fun hnone =>
            hnamed hnone update rfl
          have hnil : statusAfter chrono spec initial [] = initial := rfl
          rw [hnil, hfirst]
          exact (merged_startingStatus chrono spec initial).append_singleton update
      | cons first rest =>
          obtain ⟨status, hstatus, hmerged⟩ := ih hnamed (List.cons_ne_nil _ _)
          rw [hstatus]
          exact hmerged.append_singleton update

/-- A status that the law describes records sources of the spec only. -/
theorem Merged.named {final : TriggerStatus} (h : Merged chrono spec initial updates final)
    {source : String} (hsome : (final.checkedSources.get source).isSome = true) :
    source ∈ spec.sources.names := by
  rw [h.checkedSources, HashMap.get_retain] at hsome
  split at hsome
  · exact List.contains_iff_mem.mp ‹_›
  · cases hsome

theorem mergeLaw_of_firstNamed (hnamed : FirstNamed spec initial updates) :
    MergeLaw chrono spec initial updates := by
  intro calls hne hbegin trace next hruns
  have hnamedCalls : FirstNamed spec initial calls := by
    intro hnone first hfirst
    apply hnamed hnone first
    obtain ⟨rest, rfl⟩ := hbegin
    rw [List.head?_append, hfirst]
    rfl
  obtain ⟨final, hfinal, hmerged⟩ := merged_statusAfter chrono hnamedCalls hne
  exact ⟨final, (updateTriggerStatuses_solo hruns).trans hfinal, hmerged, fun _ => hmerged.named⟩

theorem firstNamed_of_mergeLaw (h : MergeLaw chrono spec initial updates) :
    FirstNamed spec initial updates := by
  rintro rfl first hfirst source hsource
  obtain ⟨rest, rfl⟩ := List.head?_eq_some_iff.mp hfirst
  have hbegin : [first] <+: first :: rest := ⟨rest, rfl⟩
  obtain ⟨trace, hruns⟩ := exists_updateTriggerStatuses chrono spec none [first]
  obtain ⟨final, hfinal, -, hnames⟩ := h [first] (List.cons_ne_nil _ _) hbegin trace _ hruns
  apply hnames source
  rw [← Option.some.inj hfinal]
  exact hsource

end Merging

/-- The calls merge their updates as the law says exactly if there is a status to
begin with or the first call only gives sources of the spec. -/
theorem mergeLaw_iff_firstNamed (chrono : Rfc3339.Codec) (spec : Trigger)
    (initial : Option TriggerStatus) (updates : List StatusUpdate) :
    MergeLaw chrono spec initial updates ↔ FirstNamed spec initial updates := by
  constructor
  · exact firstNamed_of_mergeLaw
  · exact mergeLaw_of_firstNamed

/-- The first status of a trigger, with a source that is not in its spec. -/
theorem unnamed_source_recorded_first :
    ¬ MergeLaw Rfc3339.standard Shared.twoSources none
      [{ checkedSources :=
           some ((∅ : HashMap _ _).insert "gone" { commitHash := some "c0" }) }] := by
  intro hlaw
  have hnamed : "gone" ∈ Shared.twoSources.sources.names :=
    firstNamed_of_mergeLaw hlaw rfl _ rfl "gone" (by
      rw [Option.getD_some, HashMap.get_insert_self]
      rfl)
  revert hnamed
  decide

end GitEventsRunner.Triggers
