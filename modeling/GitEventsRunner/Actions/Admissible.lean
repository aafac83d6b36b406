/-
# Jobs the cluster accepts

The name of a Job is the name of its action, the local time and two random
characters, all in lower case.  It becomes the value of a label of the Job's pods, and
label values have at most 63 characters, while the names of actions, sources and
triggers may have 253.  Nothing is cut, so whether a Job is admissible depends on how
long these names are, on the text of the year, and on the labels the action adds.
-/

import GitEventsRunner.Actions.Labels
import GitEventsRunner.Lib.Dns
import GitEventsRunner.Lib.Rfc3339

namespace GitEventsRunner.Actions

open GitEventsRunner.Lib
open GitEventsRunner.Lib.Dns
open GitEventsRunner.Lib.Rfc3339 (formatYear pad)
open GitEventsRunner.Triggers
open GitEventsRunner.Jobs (actionJobSourceNameLabel actionJobTriggerNameLabel)

/-! ## The time in a name -/

/-- What a clock on the wall and a calendar next to it show. -/
structure LocalTime where
  year : ℤ
  month : ℕ
  day : ℕ
  hour : ℕ
  minute : ℕ
  second : ℕ
  deriving Repr

/-- The text `%Y%m%d-%H%M%S`. -/
def LocalTime.text (t : LocalTime) : String :=
  String.ofList (formatYear t.year ++ pad 2 t.month ++ pad 2 t.day ++ '-' ::
    (pad 2 t.hour ++ pad 2 t.minute ++ pad 2 t.second))

/-- The clock showed one time only during an execution. -/
def TimeIs (t : LocalTime) (trace : List (Prog.Event JobEffect.Reply)) : Prop :=
  ∀ text, ⟨.localTime, text⟩ ∈ trace → text = t.text

theorem length_pad (width n : ℕ) : (pad width n).length = width := by
  induction width generalizing n with
  | zero => rfl
  | succ width ih => rw [pad, List.length_append, ih, List.length_singleton]

theorem isDigit_digitChar_mod (n : ℕ) : (Nat.digitChar (n % 10)).isDigit = true := by
  have hdigit : ∀ n < 10, (Nat.digitChar n).isDigit = true := by decide
  exact hdigit _ (Nat.mod_lt n (by decide))

theorem isDigit_of_mem_pad {width n : ℕ} {c : Char} (h : c ∈ pad width n) : c.isDigit = true := by
  induction width generalizing n with
  | zero => cases h
  | succ width ih =>
      rcases List.mem_append.mp h with hinit | hlast
      · exact ih hinit
      · rw [List.mem_singleton.mp hlast]
        exact isDigit_digitChar_mod n

/-- A year is digits, with a plus in front of it if they are more than four. -/
theorem chars_formatYear {year : ℤ} {c : Char} (h : c ∈ formatYear year) :
    c.isDigit = true ∨ c = '-' ∨ c = '+' ∧ 9999 < year := by
  unfold formatYear at h
  split at h
  · left
    rcases List.mem_cons.mp h with rfl | hrest
    · exact isDigit_digitChar_mod _
    · exact isDigit_of_mem_pad hrest
  · rcases List.mem_cons.mp h with rfl | hrest
    · right
      by_cases hpos : 0 ≤ year
      · right
        rw [if_pos hpos]
        exact ⟨rfl, by omega⟩
      · left
        rw [if_neg hpos]
    · left
      split at hrest
      · exact isDigit_of_mem_pad hrest
      · exact Nat.isDigit_of_mem_toDigits (by decide) (by decide) hrest

theorem plus_mem_formatYear {year : ℤ} (hyear : 9999 < year) : '+' ∈ formatYear year := by
  have hlarge : ¬ (0 ≤ year ∧ year ≤ 9999) := by omega
  have hpos : 0 ≤ year := by omega
  rw [formatYear, if_neg hlarge, if_pos hpos]
  exact List.mem_cons_self

/-! ## The name of a Job -/

section Name

variable {action : Action} {t : LocalTime} {name : String}

/-- What is behind the name of the action in the name of a Job. -/
def nameTail (t : LocalTime) (suffix : RandomString 2) : List Char :=
  '-' :: (t.text.toList ++ '-' :: suffix.val.toList.map Char.toLower)

theorem toList_text (t : LocalTime) : t.text.toList = formatYear t.year ++ pad 2 t.month ++
    pad 2 t.day ++ '-' :: (pad 2 t.hour ++ pad 2 t.minute ++ pad 2 t.second) :=
  String.toList_ofList

theorem length_nameTail (t : LocalTime) (suffix : RandomString 2) :
    (nameTail t suffix).length = (formatYear t.year).length + 15 := by
  rw [nameTail, toList_text]
  simp only [List.length_cons, List.length_append, length_pad, List.length_map, suffix.property.1]

theorem chars_text {c : Char} (h : c ∈ t.text.toList) :
    c.isDigit = true ∨ c = '-' ∨ c = '+' ∧ 9999 < t.year := by
  rw [toList_text] at h
  simp only [List.mem_append, List.mem_cons] at h
  rcases h with ((hyear | hmonth) | hday) | rfl | (hhour | hminute) | hsecond
  · exact chars_formatYear hyear
  · exact Or.inl (isDigit_of_mem_pad hmonth)
  · exact Or.inl (isDigit_of_mem_pad hday)
  · exact Or.inr (Or.inl rfl)
  · exact Or.inl (isDigit_of_mem_pad hhour)
  · exact Or.inl (isDigit_of_mem_pad hminute)
  · exact Or.inl (isDigit_of_mem_pad hsecond)

theorem isAlnum_of_isDigit {c : Char} (h : c.isDigit = true) : isAlnum c = true := by
  rw [isAlnum, h, Bool.or_true]

/-- There are no letters in a time. -/
theorem map_toLower_text (t : LocalTime) : t.text.toList.map Char.toLower = t.text.toList := by
  have hfixed : ∀ c ∈ t.text.toList, c.toLower = c := by
    intro c hc
    rcases chars_text hc with hdigit | rfl | ⟨rfl, -⟩
    · exact toLower_of_isAlnum (isAlnum_of_isDigit hdigit)
    · decide
    · decide
  exact (List.map_congr_left hfixed).trans (List.map_id' _)

theorem chars_nameTail (hyear : t.year ≤ 9999) (suffix : RandomString 2) :
    ∀ c ∈ nameTail t suffix, isAlnum c = true ∨ c = '-' := by
  intro c hc
  simp only [nameTail, List.mem_cons, List.mem_append, List.mem_map] at hc
  rcases hc with rfl | htext | rfl | ⟨d, hd, rfl⟩
  · exact Or.inr rfl
  · rcases chars_text htext with hdigit | rfl | ⟨-, hlarge⟩
    · exact Or.inl (isAlnum_of_isDigit hdigit)
    · exact Or.inr rfl
    · exact absurd hyear (by omega)
  · exact Or.inr rfl
  · exact Or.inl (isAlnum_toLower (suffix.property.2 d hd))

theorem last_nameTail (t : LocalTime) (suffix : RandomString 2) :
    (nameTail t suffix).getLast?.any isAlnum = true := by
  obtain ⟨a, b, hsuffix⟩ := List.length_eq_two.mp suffix.property.1
  have hb : b.isAlphanum = true := by
    apply suffix.property.2
    rw [hsuffix]
    exact List.mem_cons_of_mem a List.mem_cons_self
  have hlast : (nameTail t suffix).getLast? = some b.toLower := by
    rw [nameTail, hsuffix]
    simp [List.getLast?_cons]
  rw [hlast]
  exact isAlnum_toLower hb

/-- The name of a Job is the name of its action with its tail, since neither changes in
lower case. -/
theorem runs_jobName (haction : IsSubdomain action.name.toList)
    {trace : List (Prog.Event JobEffect.Reply)} (htime : TimeIs t trace)
    (h : action.jobName.Runs trace name) :
    ∃ suffix, name.toList = action.name.toList ++ nameTail t suffix := by
  obtain ⟨text, rest, rfl, hrest⟩ := Prog.Runs.of_perform_bind h
  obtain ⟨suffix, rest, rfl, rfl, rfl⟩ := Prog.Runs.of_perform_bind hrest
  obtain rfl : text = t.text := htime text List.mem_cons_self
  have hhyphen : "-".toList.map Char.toLower = ['-'] := by decide
  refine ⟨suffix, ?_⟩
  delta String.toLower
  rw [String.toList_map]
  simp only [String.toList_append, List.map_append, haction.map_toLower, map_toLower_text,
    hhyphen, nameTail, List.append_assoc, List.singleton_append]

/-- A Job's name is one the cluster accepts exactly if it is short enough and the year
has no plus. -/
theorem jobName_admissible_iff (haction : IsSubdomain action.name.toList)
    {suffix : RandomString 2} (hname : name.toList = action.name.toList ++ nameTail t suffix) :
    IsSubdomain name.toList ∧ name.length ≤ 63 ↔
      t.year ≤ 9999 ∧ action.name.length + (formatYear t.year).length ≤ 48 := by
  have hlength : name.length = action.name.length + ((formatYear t.year).length + 15) := by
    rw [← String.length_toList, hname, List.length_append, length_nameTail, String.length_toList]
  have hchars : IsSubdomain name.toList ↔ t.year ≤ 9999 := by
    rw [hname]
    constructor
    · intro h
      by_contra hyear
      have hplus : '+' ∈ nameTail t suffix := by
        have hmem := plus_mem_formatYear (Int.not_le.mp hyear)
        simp [nameTail, toList_text, hmem]
      have hbad := h.chars '+' (List.mem_append_right _ hplus)
      revert hbad
      decide
    · intro hyear
      exact haction.append (last_nameTail t suffix) (chars_nameTail hyear suffix)
  rw [hchars]
  constructor
  · rintro ⟨hyear, hle⟩
    exact ⟨hyear, by omega⟩
  · rintro ⟨hyear, hle⟩
    exact ⟨hyear, by omega⟩

end Name

/-! ## Names and labels -/

/-- The cluster accepts a Job: its name is a short subdomain and the values of its six
tracking labels are short. -/
structure Admissible (action : Action) (call : ExecuteCall) (job : JobSpec) : Prop where
  name : ∃ name, job.metadata.name = some name ∧ IsSubdomain name.toList ∧ name.length ≤ 63
  labels : ∀ label value, (label, value) ∈ trackingLabels action call →
    ∃ actual, labelOf job.toJob label = some actual ∧ actual.length ≤ 63

/-- The names fit where they are copied to: that of the action into the name of the Job,
in front of the time, and those of the source and of the trigger into labels unless the
action has labels of its own there, which fit too. -/
structure NamesFit (action : Action) (call : ExecuteCall) (t : LocalTime) : Prop where
  year : t.year ≤ 9999
  name : action.name.length + (formatYear t.year).length ≤ 48
  source : action.additionalLabels.get actionJobSourceNameLabel = none →
    call.sourceName.length ≤ 63
  trigger : action.additionalLabels.get actionJobTriggerNameLabel = none →
    call.triggerName.length ≤ 63
  additional : ∀ label value, (label, value) ∈ trackingLabels action call →
    ∀ other, action.additionalLabels.get label = some other → other.length ≤ 63

section Labels

variable {action : Action} {call : ExecuteCall}

/-- The names of kinds are short. -/
theorem length_crdKind_le (action : Action) : action.crdKind.length ≤ 63 := by
  rw [Action.crdKind]
  cases action.kind <;> decide

theorem length_sourceKindText_le (kind : TriggerSourceKind) :
    (sourceKindText kind).length ≤ 63 := by
  cases kind <;> decide

theorem length_triggerKind_le (kind : TriggerKind) : kind.crdKind.length ≤ 63 := by
  cases kind <;> decide

/-- The tracking labels fit exactly if the source and the trigger do and what the action
puts in their place. -/
theorem labels_fit_iff {kind : TriggerKind} (hkind : call.triggerKind = kind.crdKind)
    (haction : action.name.length ≤ 63) :
    (∀ label value, (label, value) ∈ trackingLabels action call →
      ((action.additionalLabels.get label).getD value).length ≤ 63) ↔
    (action.additionalLabels.get actionJobSourceNameLabel = none →
      call.sourceName.length ≤ 63) ∧
    (action.additionalLabels.get actionJobTriggerNameLabel = none →
      call.triggerName.length ≤ 63) ∧
    (∀ label value, (label, value) ∈ trackingLabels action call →
      ∀ other, action.additionalLabels.get label = some other → other.length ≤ 63) := by
  constructor
  · intro h
    refine ⟨fun hnone => ?_, fun hnone => ?_, fun label value hmem other hother => ?_⟩
    · have hsource := h actionJobSourceNameLabel call.sourceName (by simp [trackingLabels])
      rwa [hnone] at hsource
    · have htrigger := h actionJobTriggerNameLabel call.triggerName (by simp [trackingLabels])
      rwa [hnone] at htrigger
    · have hlabel := h label value hmem
      rwa [hother] at hlabel
  · rintro ⟨hsource, htrigger, hadditional⟩ label value hmem
    cases hget : action.additionalLabels.get label with
    | some other => exact hadditional label value hmem other hget
    | none =>
        rw [Option.getD_none]
        simp only [trackingLabels, List.mem_cons, Prod.mk.injEq, List.not_mem_nil,
          or_false] at hmem
        rcases hmem with h | h | h | h | h | h
        · rw [h.2]
          exact length_crdKind_le action
        · rw [h.2]
          exact haction
        · rw [h.2]
          exact length_sourceKindText_le call.sourceKind
        · rw [h.2]
          exact hsource (h.1 ▸ hget)
        · rw [h.2, hkind]
          exact length_triggerKind_le kind
        · rw [h.2]
          exact htrigger (h.1 ▸ hget)

end Labels

/-- The Job of an action with a valid name, made for a trigger at a time, is admissible
exactly if the names fit. -/
theorem admissible_iff_namesFit (action : Action) (call : ExecuteCall) (kind : TriggerKind)
    (t : LocalTime) (trace : List (Prog.Event JobEffect.Reply)) (job : JobSpec)
    (haction : IsSubdomain action.name.toList) (hkind : call.triggerKind = kind.crdKind)
    (htime : TimeIs t trace) (hruns : (action.createJobSpec call).Runs trace job) :
    Admissible action call job ↔ NamesFit action call t := by
  obtain ⟨config, argsConfig, limits, nameTrace, name, envTrace, env, rfl, -, hname, -, hmade⟩ :=
    runs_createJobSpec hruns
  have hnameTime : TimeIs t nameTrace := by
    intro text htext
    apply htime
    simp [htext]
  obtain ⟨suffix, htail⟩ := runs_jobName haction hnameTime hname
  have hjobName := jobName_admissible_iff haction htail
  have hshort : action.name.length + (formatYear t.year).length ≤ 48 →
      action.name.length ≤ 63 := by omega
  have hlabel : ∀ label value, (label, value) ∈ trackingLabels action call →
      labelOf job.toJob label = some ((action.additionalLabels.get label).getD value) := by
    intro label value hmem
    show (job.metadata.labels.bind fun labels => labels.get label) = _
    rw [hmade.metadata]
    show (action.jobLabels call).get label = _
    rw [get_jobLabels_of_tracking hmem]
    cases action.additionalLabels.get label <;> rfl
  constructor
  · intro h
    obtain ⟨name', hname', hvalid⟩ := h.name
    rw [hmade.metadata] at hname'
    obtain rfl : name = name' := Option.some.inj hname'
    obtain ⟨hyear, hle⟩ := hjobName.mp hvalid
    obtain ⟨hsource, htrigger, hadditional⟩ :=
      (labels_fit_iff hkind (hshort hle)).mp fun label value hmem => by
        obtain ⟨actual, hactual, hfit⟩ := h.labels label value hmem
        rw [hlabel label value hmem] at hactual
        rwa [Option.some.inj hactual]
    exact ⟨hyear, hle, hsource, htrigger, hadditional⟩
  · rintro ⟨hyear, hle, hsource, htrigger, hadditional⟩
    constructor
    · exact ⟨name, by rw [hmade.metadata], hjobName.mpr ⟨hyear, hle⟩⟩
    · intro label value hmem
      have hfit := (labels_fit_iff hkind (hshort hle)).mpr ⟨hsource, htrigger, hadditional⟩
      exact ⟨_, hlabel label value hmem, hfit label value hmem⟩

/-- Noon of a day in spring. -/
def noon : LocalTime := ⟨2024, 5, 1, 12, 0, 0⟩

/-- A clock that always shows noon. -/
theorem timeIs_noon {α : Type} (p : JobProg α) :
    TimeIs noon (p.traceWith JobEffect.plainReply).1 := by
  intro text htext
  rw [Prog.eq_of_mem_traceWith htext]
  show "20240501-120000" = noon.text
  decide +kernel

/-- An action with a name of some letters. -/
def lettersAction (length : ℕ) : Action where
  name := String.ofList (List.replicate length 'a')
  ns := some "ns"
  sourceOverride := .action none

theorem isSubdomain_lettersAction {length : ℕ} (h : 0 < length) :
    IsSubdomain (lettersAction length).name.toList := by
  have htext : (lettersAction length).name.toList = List.replicate length 'a' :=
    String.toList_ofList
  have hdot : '.' ∉ List.replicate length 'a' := by
    intro hmem
    exact absurd (List.eq_of_mem_replicate hmem) (by decide)
  rw [IsSubdomain, htext, List.splitOn_eq_singleton hdot]
  intro label hlabel
  obtain ⟨n, rfl⟩ := Nat.exists_eq_succ_of_ne_zero (Nat.ne_of_gt h)
  rw [List.mem_singleton.mp hlabel]
  constructor
  · rfl
  · rw [List.getLast?_replicate, if_neg (Nat.succ_ne_zero n)]
    rfl
  · intro c hc
    rw [List.eq_of_mem_replicate hc]
    exact Or.inl rfl

theorem namesFit_noon : NamesFit (lettersAction 44) buildCall noon := by
  constructor
  · decide +kernel
  · decide +kernel
  · decide +kernel
  · decide +kernel
  · intro label value _ other hother
    cases hother

/-- The longest name an action can have. -/
theorem admissible_iff_namesFit_longest :
    Admissible (lettersAction 44) buildCall
      (((lettersAction 44).createJobSpec buildCall).traceWith JobEffect.plainReply).2 :=
  (admissible_iff_namesFit (lettersAction 44) buildCall .scheduleTrigger noon _ _
    (isSubdomain_lettersAction (by decide)) rfl (timeIs_noon _)
    (Prog.runs_traceWith JobEffect.plainReply _)).mpr namesFit_noon

/-- With one letter more the name of the Job is too long. -/
theorem not_admissible_long_name :
    IsSubdomain (lettersAction 45).name.toList ∧
    ∃ trace job, ((lettersAction 45).createJobSpec buildCall).Runs trace job ∧
      TimeIs noon trace ∧ ¬ Admissible (lettersAction 45) buildCall job := by
  refine ⟨isSubdomain_lettersAction (by decide), _, _,
    Prog.runs_traceWith JobEffect.plainReply _, timeIs_noon _, ?_⟩
  intro h
  obtain ⟨name, hname, -, hle⟩ := h.name
  obtain rfl := Option.some.inj hname
  revert hle
  decide +kernel

end GitEventsRunner.Actions
