/-
# Triggers and their status

The data model of `resources/trigger.rs`: what a trigger watches, what it does,
and the status it keeps on the API server.  Both kinds of trigger are seen
through the `Trigger` trait, so a `Trigger` here is what that trait exposes.

`newStatus` is the pure part of `update_trigger_status`: the status it writes,
computed from the cached trigger and the parts given by the caller.
-/

import GitEventsRunner.Lib.HashMap
import GitEventsRunner.Lib.Path
import GitEventsRunner.Lib.Rfc3339

namespace GitEventsRunner.Triggers

open GitEventsRunner.Lib

/-! ## Spec -/

/-- Allowed kinds of the sources. -/
inductive TriggerSourceKind
  | gitRepo | clusterGitRepo
  deriving DecidableEq, Repr

/-- Kinds of the references. -/
inductive TriggerGitRepoReference
  | branch (name : String)
  | tag (name : String)
  | commit (name : String)
  deriving DecidableEq, Repr

/-- Trigger watching config. -/
structure TriggerWatchOn where
  onChangeOnly : Bool := true
  reference : TriggerGitRepoReference := .branch "main"
  files : Option (List String) := none
  deriving DecidableEq, Repr

namespace TriggerWatchOn

/-- `TriggerWatchOn::reference_name` -/
def referenceName (watchOn : TriggerWatchOn) : String :=
  match watchOn.reference with
  | .branch name | .tag name | .commit name => name

end TriggerWatchOn

/-- Kind and list of the triggers' sources. -/
structure TriggerSources where
  kind : TriggerSourceKind := .gitRepo
  names : List String
  watchOn : TriggerWatchOn := {}
  deriving DecidableEq, Repr

/-- Allowed action kinds. -/
inductive TriggerActionKind
  | action | clusterAction
  deriving DecidableEq, Repr

/-- Reference to the action to run from the trigger. -/
structure TriggerAction where
  kind : TriggerActionKind := .action
  name : String
  deriving DecidableEq, Repr

/-- Which sources of the trigger a task processes. -/
inductive TriggerTaskSources
  | all
  | single (source : String)
  deriving DecidableEq, Repr

/-- The two kinds of trigger. -/
inductive TriggerKind
  | scheduleTrigger | webhookTrigger
  deriving DecidableEq, Repr

namespace TriggerKind

/-- `CustomApiResource::crd_kind` -/
def crdKind : TriggerKind → String
  | .scheduleTrigger => "ScheduleTrigger"
  | .webhookTrigger => "WebhookTrigger"

end TriggerKind

/-! ## Status -/

/-- Current state of the trigger. -/
inductive TriggerState
  | idle | running | wrongConfig
  deriving DecidableEq, Repr, Inhabited

/-- Result of checking one source of the trigger. -/
structure CheckedSourceState where
  commitHash : Option String := none
  fileHash : Option String := none
  changed : Option String := none
  deriving DecidableEq, Repr

namespace CheckedSourceState

/-- `CheckedSourceState::is_equal` -/
def isEqual (state : CheckedSourceState) (other : Option CheckedSourceState)
    (withFile : Bool) : Bool :=
  match other with
  | some other =>
      if !withFile then state.commitHash = other.commitHash
      else state.fileHash = other.fileHash
  | none => state.commitHash.isNone && state.fileHash.isNone

/-- What a trigger watches of a source: the file hash if files are configured,
else the commit. -/
def watched (withFile : Bool) (state : CheckedSourceState) : Option String :=
  if withFile then state.fileHash else state.commitHash

/-- An unchanged source with a known commit was recorded before, with the same
watched value. -/
theorem exists_of_isEqual {state : CheckedSourceState} {other : Option CheckedSourceState}
    {withFile : Bool} (h : state.isEqual other withFile = true)
    (hcommit : state.commitHash.isSome = true) :
    ∃ recorded, other = some recorded ∧
      state.watched withFile = recorded.watched withFile := by
  cases other with
  | none =>
      cases hc : state.commitHash <;> simp_all [isEqual]
  | some recorded =>
      refine ⟨recorded, rfl, ?_⟩
      cases withFile <;> simpa [isEqual, watched] using h

end CheckedSourceState

/-- Trigger status section. -/
structure TriggerStatus where
  state : TriggerState := .idle
  lastRun : Option String := none
  checkedSources : HashMap String CheckedSourceState := ∅
  deriving DecidableEq

/-- A trigger as the trait `Trigger` shows it.  All triggers are namespaced, and
a namespace is a DNS label, so it has no `/`. -/
structure Trigger where
  kind : TriggerKind
  ns : String
  name : String
  sources : TriggerSources
  action : TriggerAction
  status : Option TriggerStatus := none
  ns_plain : '/' ∉ ns.toList := by decide
  deriving DecidableEq

namespace Trigger

/-- `Trigger::trigger_hash_key` -/
def triggerHashKey (trigger : Trigger) : String := trigger.ns ++ "/" ++ trigger.name

/-- Two triggers share a key only if they are the same object. -/
theorem eq_of_triggerHashKey_eq {a b : Trigger} (h : a.triggerHashKey = b.triggerHashKey) :
    a.ns = b.ns ∧ a.name = b.name :=
  Path.eq_of_append_slash_eq a.ns_plain b.ns_plain h

theorem default_ns_plain : '/' ∉ "default".toList := by decide

end Trigger

/-! ## Updating the status -/

/-- `NEVER_LAST_RUN_STR` -/
def neverLastRunStr : String := "Never"

/-- The parts of the status a call of `update_trigger_status` sets. -/
structure StatusUpdate where
  state : Option TriggerState := none
  checkedSources : Option (HashMap String CheckedSourceState) := none
  lastRun : Option SystemTime := none
  deriving DecidableEq

namespace Trigger

variable (chrono : Rfc3339.Codec)

/-- The status `update_trigger_status` writes, given the trigger it found in the
cache. -/
def newStatus (trigger : Trigger) (update : StatusUpdate) : TriggerStatus :=
  match trigger.status with
  | some status =>
      -- the given sources go over the existing ones, names not in the spec are dropped
      let newCheckedSources := status.checkedSources.extend (update.checkedSources.getD ∅)
      { state := update.state.getD status.state
        lastRun :=
          match update.lastRun with
          | some lastRun => some (chrono.format lastRun)
          | none => status.lastRun
        checkedSources := newCheckedSources.retain fun k => trigger.sources.names.contains k }
  | none =>
      { state := update.state.getD .idle
        lastRun := (update.lastRun.map chrono.format).or (some neverLastRunStr)
        checkedSources := update.checkedSources.getD ∅ }

/-- The recorded sources of a trigger, none if it has no status. -/
def checkedSources (trigger : Trigger) : HashMap String CheckedSourceState :=
  (trigger.status.getD {}).checkedSources

/-- What a written status says about a source: the given entry, else the one
found in the cache. -/
theorem get_newStatus_checkedSources (trigger : Trigger) (update : StatusUpdate)
    {source : String} (hsource : source ∈ trigger.sources.names) :
    (trigger.newStatus chrono update).checkedSources.get source =
      ((update.checkedSources.getD ∅).get source).or (trigger.checkedSources.get source) := by
  unfold newStatus checkedSources
  cases trigger.status with
  | none => simp
  | some status => simp [HashMap.get_retain, HashMap.get_extend, hsource]

/-- Every entry of a written status was given or found in the cache. -/
theorem get_newStatus_eq_some {trigger : Trigger} {update : StatusUpdate} {source : String}
    {entry : CheckedSourceState}
    (h : (trigger.newStatus chrono update).checkedSources.get source = some entry) :
    (update.checkedSources.getD ∅).get source = some entry ∨
      trigger.checkedSources.get source = some entry := by
  unfold newStatus at h
  unfold checkedSources
  cases hstatus : trigger.status with
  | none =>
      rw [hstatus] at h
      exact Or.inl h
  | some status =>
      rw [hstatus] at h
      simp only [HashMap.get_retain, HashMap.get_extend] at h
      split at h
      · rcases Option.or_eq_some_iff.mp h with hnew | ⟨-, hold⟩
        · exact Or.inl hnew
        · exact Or.inr hold
      · cases h

end Trigger

end GitEventsRunner.Triggers
