/-
# The configuration in force

`RuntimeConfig::init_and_watch` reads the ConfigMap once and then follows it through a
watch.  A ConfigMap that cannot be loaded leaves the configuration as it is, and so does
one that is deleted: only applied objects are looked at.  (The predicate on the
generation lets every ConfigMap through, for ConfigMaps have none.)

So the configuration in force is that of the newest ConfigMap that could be loaded, or
the default one if there was none.
-/

import GitEventsRunner.Config.Runtime

namespace GitEventsRunner.Config

open GitEventsRunner.Lib
open GitEventsRunner.Lib.Overlay

variable {Node Error : Type}

/-- The data of a ConfigMap. -/
structure ConfigMap where
  data : Option (HashMap String String)

/-- Why a ConfigMap cannot be loaded. -/
inductive LoadError (Error : Type)
  | runtimeConfigFormat
  | yaml (error : ReadError Error)

/-- `CONFIG_MAP_DATA_NAME` -/
def configMapDataName : String := "runtimeConfig"

/-- `RuntimeConfig::try_from` -/
def RuntimeConfig.tryFrom (yaml : Yaml Node Error) (configMap : ConfigMap) :
    Except (LoadError Error) RuntimeConfig :=
  match (configMap.data.getD ∅).get configMapDataName with
  | some configData =>
      match yaml.parse configData with
      | .ok document => (deserialize yaml document).mapError .yaml
      | .error error => .error (.yaml (.format error))
  | none => .error .runtimeConfigFormat

/-- What the watch reports. -/
inductive ConfigEvent
  | applied (configMap : ConfigMap)
  | deleted (configMap : ConfigMap)
  | failed

/-- The ConfigMap of an event that is looked at. -/
def ConfigEvent.configMap : ConfigEvent → Option ConfigMap
  | .applied configMap => some configMap
  | .deleted _ | .failed => none

namespace RuntimeConfig

variable (yaml : Yaml Node Error)

/-- The configuration after the first read: the default one if there is no ConfigMap or
it cannot be loaded. -/
def initial (configMap : Option ConfigMap) : RuntimeConfig :=
  match configMap with
  | some configMap =>
      match tryFrom yaml configMap with
      | .ok config => config
      | .error _ => {}
  | none => {}

/-- An event of the watch. -/
def handle (config : RuntimeConfig) : ConfigEvent → RuntimeConfig
  | .applied configMap =>
      match tryFrom yaml configMap with
      | .ok config => config
      | .error _ => config
  | .deleted _ | .failed => config

/-- The configuration in force after the first read and some events. -/
def inForce (first : Option ConfigMap) (events : List ConfigEvent) : RuntimeConfig :=
  events.foldl (handle yaml) (initial yaml first)

/-! ## Where it comes from -/

/-- A document was accepted as a configuration: the text of a ConfigMap that holds it. -/
def Loads (configMap : ConfigMap) (document : Node) : Prop :=
  ∃ configData, (configMap.data.getD ∅).get configMapDataName = some configData ∧
    yaml.parse configData = .ok document ∧ ∃ config, deserialize yaml document = .ok config

theorem tryFrom_eq_ok_iff (configMap : ConfigMap) (config : RuntimeConfig) :
    tryFrom yaml configMap = .ok config ↔
      ∃ document, Loads yaml configMap document ∧ deserialize yaml document = .ok config := by
  unfold tryFrom Loads
  cases hdata : (configMap.data.getD ∅).get configMapDataName with
  | none => simp
  | some configData =>
      cases hparse : yaml.parse configData with
      | error error => simp [hparse]
      | ok document =>
          cases hread : deserialize yaml document with
          | error error => simp [hparse, hread, Except.mapError]
          | ok config' => simp [hparse, hread, Except.mapError]

/-- The ConfigMaps looked at, in order. -/
def seen (first : Option ConfigMap) (events : List ConfigEvent) : List ConfigMap :=
  first.toList ++ events.filterMap ConfigEvent.configMap

/-- The configuration comes from a ConfigMap behind which none could be loaded, or there
was none to load. -/
inductive Newest (configMaps : List ConfigMap) : RuntimeConfig → Prop
  | none (hnone : ∀ configMap ∈ configMaps, ∀ document, ¬ Loads yaml configMap document) :
      Newest configMaps {}
  | loaded (before after : List ConfigMap) (configMap : ConfigMap) (document : Node)
      (config : RuntimeConfig) (hseen : configMaps = before ++ configMap :: after)
      (hloads : Loads yaml configMap document) (hread : deserialize yaml document = .ok config)
      (hafter : ∀ later ∈ after, ∀ document, ¬ Loads yaml later document) :
      Newest configMaps config

variable {yaml}

/-- A ConfigMap that cannot be loaded changes nothing. -/
theorem Newest.append_refused {configMaps : List ConfigMap} {config : RuntimeConfig}
    (h : Newest yaml configMaps config) {configMap : ConfigMap}
    (hrefused : ∀ document, ¬ Loads yaml configMap document) :
    Newest yaml (configMaps ++ [configMap]) config := by
  cases h with
  | none hnone =>
      apply Newest.none
      intro other hother
      rcases List.mem_append.mp hother with hold | hnew
      · exact hnone other hold
      · rw [List.mem_singleton.mp hnew]
        exact hrefused
  | loaded before after source document _ hseen hloads hread hafter =>
      refine .loaded before (after ++ [configMap]) source document config ?_ hloads hread ?_
      · rw [hseen, List.append_assoc, List.cons_append]
      · intro later hlater
        rcases List.mem_append.mp hlater with hold | hnew
        · exact hafter later hold
        · rw [List.mem_singleton.mp hnew]
          exact hrefused

/-- One that can be loaded is in force. -/
theorem Newest.append_loaded (configMaps : List ConfigMap) {config : RuntimeConfig}
    {configMap : ConfigMap} (h : tryFrom yaml configMap = .ok config) :
    Newest yaml (configMaps ++ [configMap]) config := by
  obtain ⟨document, hloads, hread⟩ := (tryFrom_eq_ok_iff yaml configMap config).mp h
  exact .loaded configMaps [] configMap document config rfl hloads hread (by simp)

theorem not_loads_of_error {configMap : ConfigMap} {error : LoadError Error}
    (h : tryFrom yaml configMap = .error error) (document : Node) :
    ¬ Loads yaml configMap document := by
  intro hloads
  obtain ⟨_, _, _, config, hread⟩ := id hloads
  have hok := (tryFrom_eq_ok_iff yaml configMap config).mpr ⟨document, hloads, hread⟩
  rw [h] at hok
  cases hok

theorem newest_initial (first : Option ConfigMap) :
    Newest yaml first.toList (initial yaml first) := by
  cases first with
  | none => exact .none (by simp)
  | some configMap =>
      simp only [initial]
      cases hload : tryFrom yaml configMap with
      | ok config => exact .append_loaded [] hload
      | error error =>
          apply Newest.none
          intro other hother
          rw [List.mem_singleton.mp hother]
          exact not_loads_of_error hload

/-- Every event of the watch keeps the configuration the newest one. -/
theorem Newest.handle {configMaps : List ConfigMap} {config : RuntimeConfig}
    (h : Newest yaml configMaps config) (event : ConfigEvent) :
    Newest yaml (configMaps ++ event.configMap.toList)
      (RuntimeConfig.handle yaml config event) := by
  cases event with
  | applied configMap =>
      simp only [RuntimeConfig.handle, ConfigEvent.configMap, Option.toList_some]
      cases hload : tryFrom yaml configMap with
      | ok config => exact .append_loaded configMaps hload
      | error error => exact h.append_refused (not_loads_of_error hload)
  | deleted | failed => simpa [RuntimeConfig.handle, ConfigEvent.configMap] using h

theorem newest_inForce (first : Option ConfigMap) (events : List ConfigEvent) :
    Newest yaml (seen first events) (inForce yaml first events) := by
  induction events using List.reverseRecOn with
  | nil => simpa [seen, inForce] using newest_initial first
  | append_singleton events event ih =>
      have hseen : seen first (events ++ [event]) =
          seen first events ++ event.configMap.toList := by
        cases hmap : event.configMap with
        | none => simp [seen, List.filterMap_append, hmap]
        | some configMap => simp [seen, List.filterMap_append, hmap]
      rw [hseen, inForce, List.foldl_append]
      exact ih.handle event

/-- The configuration in force, setting by setting.  After any first read and any
events of the watch: either some ConfigMap was loaded, and every setting is what the
document of the newest one that could be loaded says at its path, or the default where
it says nothing; or none was, and every setting is the default. -/
theorem inForce_settings (yaml : Yaml Node Error) (first : Option ConfigMap)
    (events : List ConfigEvent) :
    (∃ before configMap after document, seen first events = before ++ configMap :: after ∧
      Loads yaml configMap document ∧
      (∀ later ∈ after, ∀ document, ¬ Loads yaml later document) ∧
      ∀ setting ∈ settings yaml,
        setting.Holds yaml.toFormat document (inForce yaml first events)) ∨
    ((∀ configMap ∈ seen first events, ∀ document, ¬ Loads yaml configMap document) ∧
      ∀ setting ∈ settings yaml, setting.get (inForce yaml first events) = setting.default) := by
  have hnewest : Newest yaml (seen first events) (inForce yaml first events) :=
    newest_inForce first events
  generalize inForce yaml first events = config at hnewest
  cases hnewest with
  | none hnone => exact Or.inr ⟨hnone, get_default yaml⟩
  | loaded before after configMap document _ hseen hloads hread hafter =>
      exact Or.inl ⟨before, configMap, after, document, hseen, hloads, hafter,
        ((deserialize_iff yaml document config).mp hread).2⟩

end RuntimeConfig

end GitEventsRunner.Config
