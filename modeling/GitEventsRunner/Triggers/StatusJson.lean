/-
# Statuses as JSON

A status is kept in the cluster as JSON.  Its codec is derived: optional values are
skipped if they are none, and the map of checked sources is skipped if it is empty.
But an absent map is not an empty one when a status is read, since the field has no
default.

The controller never writes a status with this codec: its patches name every field
themselves, so what they write is always read back.
-/

import GitEventsRunner.Triggers.Types
import GitEventsRunner.Lib.Serde

namespace GitEventsRunner.Triggers

open GitEventsRunner.Lib
open GitEventsRunner.Lib.Serde

/-! ## The derived codecs -/

namespace TriggerState

/-- The name of a state, as it is written. -/
def text : TriggerState → String
  | .idle => "Idle"
  | .running => "Running"
  | .wrongConfig => "WrongConfig"

/-- The state with a name. -/
def ofText (text : String) : Except DeError TriggerState :=
  if text = "Idle" then .ok .idle
  else if text = "Running" then .ok .running
  else if text = "WrongConfig" then .ok .wrongConfig
  else .error (.unknownVariant text)

/-- A variant without data is its name, or an object with its name and nothing else. -/
def codec : Codec TriggerState where
  serialize state := .string state.text
  deserialize
    | .string text => ofText text
    | .object [(text, .null)] => ofText text
    | _ => .error .invalidType

theorem roundTrips_codec (state : TriggerState) : codec.RoundTrips state := by
  cases state <;> rfl

end TriggerState

namespace CheckedSourceState

def commitHashField : Serde.Field (Option String) :=
  (Field.optional "commitHash" string).skipIf Option.isNone

def fileHashField : Serde.Field (Option String) :=
  (Field.optional "fileHash" string).skipIf Option.isNone

def changedField : Serde.Field (Option String) :=
  (Field.optional "changed" string).skipIf Option.isNone

/-- What is written of a checked source. -/
def fields (state : CheckedSourceState) : List (String × Option Json) :=
  [commitHashField.write state.commitHash, fileHashField.write state.fileHash,
    changedField.write state.changed]

/-- The codec of `CheckedSourceState`. -/
def codec : Codec CheckedSourceState where
  serialize state := record state.fields
  deserialize json := do
    let fields ← json.asObject
    checkUnique ["commitHash", "fileHash", "changed"] fields
    let commitHash ← commitHashField.read fields
    let fileHash ← fileHashField.read fields
    let changed ← changedField.read fields
    pure { commitHash := commitHash, fileHash := fileHash, changed := changed }

theorem serialize_string_ne_null (s : String) : string.serialize s ≠ .null := by
  intro h
  cases h

/-- Optional texts are read back. -/
theorem roundTrips_optionalText (name : String) (a : Option String) :
    ((Field.optional name string).skipIf Option.isNone).RoundTrips a :=
  Field.roundTrips_skipIf_optional (fun v _ => roundTrips_string v) serialize_string_ne_null

theorem roundTrips_codec (state : CheckedSourceState) : codec.RoundTrips state := by
  have hnodup : (state.fields.map Prod.fst).Nodup := by
    show ["commitHash", "fileHash", "changed"].Nodup
    decide
  have hcommit : commitHashField.read (present state.fields) = .ok state.commitHash :=
    (read_present_eq_ok_iff hnodup (by simp [fields])).mpr (roundTrips_optionalText _ _)
  have hfile : fileHashField.read (present state.fields) = .ok state.fileHash :=
    (read_present_eq_ok_iff hnodup (by simp [fields])).mpr (roundTrips_optionalText _ _)
  have hchanged : changedField.read (present state.fields) = .ok state.changed :=
    (read_present_eq_ok_iff hnodup (by simp [fields])).mpr (roundTrips_optionalText _ _)
  show (do
    checkUnique ["commitHash", "fileHash", "changed"] (present state.fields)
    let commitHash ← commitHashField.read (present state.fields)
    let fileHash ← fileHashField.read (present state.fields)
    let changed ← changedField.read (present state.fields)
    pure (CheckedSourceState.mk commitHash fileHash changed)) = Except.ok state
  rw [checkUnique_present hnodup, hcommit, hfile, hchanged]
  rfl

end CheckedSourceState

/-! ## The status -/

namespace TriggerStatus

variable (order : (m : HashMap String CheckedSourceState) → m.Listing)

def stateField : Serde.Field TriggerState := Field.required "state" TriggerState.codec

def lastRunField : Serde.Field (Option String) :=
  (Field.optional "lastRun" string).skipIf Option.isNone

/-- The map of checked sources, as a value. -/
def checkedSourcesCodec : Codec (HashMap String CheckedSourceState) :=
  hashMap order CheckedSourceState.codec

def checkedSourcesField : Serde.Field (HashMap String CheckedSourceState) :=
  (Field.required "checkedSources" (checkedSourcesCodec order)).skipIf fun m => m = ∅

/-- What is written of a status. -/
def fields (status : TriggerStatus) : List (String × Option Json) :=
  [stateField.write status.state, lastRunField.write status.lastRun,
    (checkedSourcesField order).write status.checkedSources]

/-- Read a status. -/
def deserialize (json : Json) : Except DeError TriggerStatus := do
  let fields ← json.asObject
  checkUnique ["state", "lastRun", "checkedSources"] fields
  let state ← stateField.read fields
  let lastRun ← lastRunField.read fields
  let checkedSources ← (checkedSourcesField order).read fields
  pure { state := state, lastRun := lastRun, checkedSources := checkedSources }

/-- The codec of `TriggerStatus`; maps are iterated in the given order. -/
def codec : Codec TriggerStatus where
  serialize status := record (status.fields order)
  deserialize := deserialize order

theorem roundTrips_checkedSourcesCodec (m : HashMap String CheckedSourceState) :
    (checkedSourcesCodec order).RoundTrips m := by
  apply roundTrips_hashMap
  intro source state _
  exact CheckedSourceState.roundTrips_codec state

/-- An object whose fields are those of a status is read as this status. -/
theorem deserialize_present {values : List (String × Option Json)} (status : TriggerStatus)
    (hnodup : (values.map Prod.fst).Nodup)
    (hstate : stateField.read (present values) = .ok status.state)
    (hlastRun : lastRunField.read (present values) = .ok status.lastRun) :
    deserialize order (record values) = .ok status ↔
      (checkedSourcesField order).read (present values) = .ok status.checkedSources := by
  show (do
    checkUnique ["state", "lastRun", "checkedSources"] (present values)
    let state ← stateField.read (present values)
    let lastRun ← lastRunField.read (present values)
    let checkedSources ← (checkedSourcesField order).read (present values)
    pure (TriggerStatus.mk state lastRun checkedSources)) = Except.ok status ↔ _
  rw [checkUnique_present hnodup, hstate, hlastRun]
  cases (checkedSourcesField order).read (present values) with
  | error error =>
      constructor
      · intro h
        cases h
      · intro h
        cases h
  | ok checkedSources =>
      constructor
      · intro h
        rw [← Except.ok.inj h]
      · intro h
        rw [Except.ok.inj h]
        rfl

/-- A status is read back exactly if there are checked sources in it. -/
theorem roundTrips_iff_checkedSources_ne (status : TriggerStatus) :
    (codec order).RoundTrips status ↔ status.checkedSources ≠ ∅ := by
  have hnodup : ((status.fields order).map Prod.fst).Nodup := by
    show ["state", "lastRun", "checkedSources"].Nodup
    decide
  have hstate : stateField.read (present (status.fields order)) = .ok status.state :=
    (read_present_eq_ok_iff hnodup (by simp [fields])).mpr (TriggerState.roundTrips_codec _)
  have hlastRun : lastRunField.read (present (status.fields order)) = .ok status.lastRun :=
    (read_present_eq_ok_iff hnodup (by simp [fields])).mpr
      (CheckedSourceState.roundTrips_optionalText _ _)
  have hmap : (checkedSourcesField order).read (present (status.fields order)) =
      .ok status.checkedSources ↔
      (checkedSourcesField order).RoundTrips status.checkedSources :=
    read_present_eq_ok_iff hnodup (by simp [fields])
  show deserialize order (record (status.fields order)) = .ok status ↔ _
  rw [deserialize_present order status hnodup hstate hlastRun, hmap, checkedSourcesField,
    Field.roundTrips_skipIf_required,
    and_iff_left (roundTrips_checkedSourcesCodec order status.checkedSources)]
  exact decide_eq_false_iff_not

/-! ## Patches -/

/-- The status in the patch of `Trigger::update_trigger_status`: every field is named. -/
def patchFields (status : TriggerStatus) : List (String × Option Json) :=
  [("state", some (TriggerState.codec.serialize status.state)),
    ("lastRun", some ((option string).serialize status.lastRun)),
    ("checkedSources", some ((checkedSourcesCodec order).serialize status.checkedSources))]

/-- What a patch writes is read back, also without checked sources. -/
theorem deserialize_patchFields (status : TriggerStatus) :
    deserialize order (record (status.patchFields order)) = .ok status := by
  have hnodup : ((status.patchFields order).map Prod.fst).Nodup := by
    show ["state", "lastRun", "checkedSources"].Nodup
    decide
  have hstate : stateField.read (present (status.patchFields order)) = .ok status.state := by
    rw [read_present (f := stateField) hnodup List.mem_cons_self]
    exact TriggerState.roundTrips_codec status.state
  have hlastRun : lastRunField.read (present (status.patchFields order)) = .ok status.lastRun := by
    rw [read_present (f := lastRunField) hnodup (List.mem_cons_of_mem _ List.mem_cons_self)]
    exact roundTrips_option (fun v _ => roundTrips_string v)
      CheckedSourceState.serialize_string_ne_null
  apply (deserialize_present order status hnodup hstate hlastRun).mpr
  rw [read_present (f := checkedSourcesField order) hnodup
    (List.mem_cons_of_mem _ (List.mem_cons_of_mem _ List.mem_cons_self))]
  exact roundTrips_checkedSourcesCodec order status.checkedSources

/-- The order of a listing that exists. -/
noncomputable def anyOrder (m : HashMap String CheckedSourceState) : m.Listing :=
  Classical.choice m.nonempty_listing

/-- The status of a trigger that runs for the first time. -/
theorem not_roundTrips_first_run :
    ¬ (codec anyOrder).RoundTrips { state := .running, lastRun := some "Never" } := by
  intro h
  cases h

end TriggerStatus

end GitEventsRunner.Triggers
