/-
# Which paths have a key

Two of the limiters cut their keys out of the path, each with checks of its own: the
number of parts, then parts by their index.  An index past the end would be a panic,
and a path that is refused although a route serves it would never reach its handler.

Here the extractors are written as the source has them, with every index, and compared
with each other, with what the keys are read from, and with the routes.
-/

import GitEventsRunner.Web.RateLimit

namespace GitEventsRunner.Web

open GitEventsRunner.Lib

namespace RequestsRateLimiter

/-! ## Extraction by index -/

/-- A condition that may panic, or another one if it does not hold. -/
def orElse (first second : Option Bool) : Option Bool := do
  if ← first then pure true else second

/-- `parts[i].is_empty()`; an index past the end panics. -/
def isEmptyAt (parts : List String) (i : ℕ) : Option Bool := parts[i]?.map fun part => part = ""

/-- There is no trigger in a path: it is too short, or a part is empty. -/
def namesNoTrigger (parts : List String) : Option Bool :=
  orElse (some (parts.length < 3)) (orElse (isEmptyAt parts 1) (isEmptyAt parts 2))

/-- `RequestsRateLimiter::extract_path_key`, with `none` for a panic. -/
def extractPathKeyAt (limiter : RequestsRateLimiter) (path uuid : String) :
    Option (Except GovernorError RateLimiterKey) :=
  let parts := splittedPath path
  match limiter with
  | .global => some (.ok {})
  | .trigger => do
      if ← namesNoTrigger parts then pure (.error .unableToExtractKey)
      else pure (.ok { ns := some (← parts[1]?), trigger := some (← parts[2]?) })
  | .source => do
      let namesSource ←
        if parts.length ≥ 4 then
          not <$> orElse (orElse (isEmptyAt parts 1) (isEmptyAt parts 2)) (isEmptyAt parts 3)
        else pure false
      if namesSource then
        pure (.ok { ns := some (← parts[1]?), trigger := some (← parts[2]?),
                    source := some (← parts[3]?), stripSource := false })
      else if ← namesNoTrigger parts then pure (.error .unableToExtractKey)
      else
        pure (.ok { ns := some (← parts[1]?), trigger := some (← parts[2]?),
                    source := some uuid, stripSource := true })

/-- The parts of a path name a trigger. -/
def NamesTrigger (parts : List String) : Prop :=
  3 ≤ parts.length ∧ parts[1]? ≠ some "" ∧ parts[2]? ≠ some ""

instance (parts : List String) : Decidable (NamesTrigger parts) :=
  inferInstanceAs (Decidable (_ ∧ _ ∧ _))

/-- The source a path names, if it does. -/
def namedSource (parts : List String) : Option String := parts[3]?.filter fun part => part ≠ ""

/-- Three parts are enough for every index of the check. -/
theorem namesNoTrigger_cons (root ns name : String) (rest : List String) :
    namesNoTrigger (root :: ns :: name :: rest) = some (decide (ns = "" ∨ name = "")) := by
  have hlength : ¬ (root :: ns :: name :: rest).length < 3 := by simp
  rw [namesNoTrigger, decide_eq_false hlength]
  by_cases hns : ns = ""
  · simp [orElse, isEmptyAt, hns]
  · simp [orElse, isEmptyAt, hns]

/-- No index is past the end: the extractors return what they return on the parts
themselves. -/
theorem extractPathKeyAt_eq (limiter : RequestsRateLimiter) (path uuid : String) :
    limiter.extractPathKeyAt path uuid = some (limiter.extractPathKey path uuid) := by
  unfold extractPathKeyAt extractPathKey
  cases limiter with
  | global => rfl
  | trigger =>
      rcases splittedPath path with _ | ⟨root, _ | ⟨ns, _ | ⟨name, rest⟩⟩⟩
      · rfl
      · rfl
      · rfl
      · simp only [namesNoTrigger_cons]
        by_cases hempty : ns = "" ∨ name = ""
        · simp [hempty]
        · simp [hempty]
  | source =>
      rcases splittedPath path with _ | ⟨root, _ | ⟨ns, _ | ⟨name, _ | ⟨sourceName, rest⟩⟩⟩⟩
      · rfl
      · rfl
      · rfl
      · simp only [namesNoTrigger_cons, keyWithoutSource]
        by_cases hempty : ns = "" ∨ name = ""
        · simp [hempty]
        · simp [hempty]
      · simp only [namesNoTrigger_cons, keyWithoutSource]
        by_cases hns : ns = ""
        · simp [orElse, isEmptyAt, hns]
        · by_cases hname : name = ""
          · simp [orElse, isEmptyAt, hns, hname]
          · by_cases hsource : sourceName = ""
            · simp [orElse, isEmptyAt, hns, hname, hsource]
            · simp [orElse, isEmptyAt, hns, hname, hsource]

/-! ## Keys of paths -/

/-- The key of a trigger: two parts of its path. -/
def keyOfTrigger (parts : List String) : RateLimiterKey where
  ns := parts[1]?
  trigger := parts[2]?

/-- The key of a source: that of its trigger with the source the path names, or else
with the drawn UUID. -/
def keyOfSource (parts : List String) (uuid : String) : RateLimiterKey where
  ns := parts[1]?
  trigger := parts[2]?
  source := some ((namedSource parts).getD uuid)
  stripSource := (namedSource parts).isNone

theorem trigger_extractPathKey (path uuid : String) :
    trigger.extractPathKey path uuid =
      if NamesTrigger (splittedPath path) then .ok (keyOfTrigger (splittedPath path))
      else .error .unableToExtractKey := by
  unfold extractPathKey NamesTrigger keyOfTrigger
  rcases splittedPath path with _ | ⟨root, _ | ⟨ns, _ | ⟨name, rest⟩⟩⟩
  · rfl
  · rfl
  · rfl
  · by_cases hns : ns = ""
    · simp [hns]
    · by_cases hname : name = ""
      · simp [hname]
      · simp [hns, hname]

theorem source_extractPathKey (path uuid : String) :
    source.extractPathKey path uuid =
      if NamesTrigger (splittedPath path) then .ok (keyOfSource (splittedPath path) uuid)
      else .error .unableToExtractKey := by
  unfold extractPathKey NamesTrigger keyWithoutSource keyOfSource namedSource
  rcases splittedPath path with _ | ⟨root, _ | ⟨ns, _ | ⟨name, _ | ⟨sourceName, rest⟩⟩⟩⟩
  · rfl
  · rfl
  · rfl
  · by_cases hns : ns = ""
    · simp [hns]
    · by_cases hname : name = ""
      · simp [hname]
      · simp [hns, hname]
  · by_cases hns : ns = ""
    · simp [hns]
    · by_cases hname : name = ""
      · simp [hname]
      · by_cases hsource : sourceName = ""
        · simp [hns, hname, hsource, Option.filter]
        · simp [hns, hname, hsource, Option.filter]

end RequestsRateLimiter

/-! ## Routes -/

/-- A path that matches a webhook route: two or three segments behind the root, none of
them empty. -/
def Routable (path : String) : Prop :=
  ∃ parts : List PathSegment, (parts.length = 2 ∨ parts.length = 3) ∧ path = requestPath parts

/-- These are the paths the router serves. -/
theorem routable_iff_post (path : String) :
    Routable path ↔ (hooksRouter.post path).isSome = true := by
  constructor
  · rintro ⟨parts, htwo | hthree, rfl⟩
    · obtain ⟨ns, trigger, rfl⟩ := List.length_eq_two.mp htwo
      rw [post_trigger]
      rfl
    · obtain ⟨ns, trigger, source, rfl⟩ := List.length_eq_three.mp hthree
      rw [post_source]
      rfl
  · intro h
    by_contra hno
    have hnone : hooksRouter.post path = none := by
      apply post_eq_none
      · rintro ns trigger rfl
        exact hno ⟨[ns, trigger], Or.inl rfl, rfl⟩
      · rintro ns trigger source rfl
        exact hno ⟨[ns, trigger, source], Or.inr rfl, rfl⟩
    rw [hnone] at h
    cases h

/-- A path with a route names a trigger. -/
theorem namesTrigger_of_routable {path : String} (h : Routable path) :
    RequestsRateLimiter.NamesTrigger (RequestsRateLimiter.splittedPath path) := by
  obtain ⟨parts, hlength, rfl⟩ := h
  obtain ⟨ns, trigger, rest, rfl⟩ : ∃ ns trigger rest, parts = ns :: trigger :: rest := by
    rcases hlength with htwo | hthree
    · obtain ⟨ns, trigger, rfl⟩ := List.length_eq_two.mp htwo
      exact ⟨ns, trigger, [], rfl⟩
    · obtain ⟨ns, trigger, source, rfl⟩ := List.length_eq_three.mp hthree
      exact ⟨ns, trigger, [source], rfl⟩
  rw [splittedPath_requestPath]
  refine ⟨by simp, ?_, ?_⟩
  · simp [ns.property.1]
  · simp [trigger.property.1]

/-! ## The grammar -/

namespace RequestsRateLimiter

/-- The keys of a path are what the grammar of paths says: the extractors return, the
trigger key and the source key exist for the same paths and name the same trigger, the
source key has the source of the path exactly if there is one, and no limiter refuses a
path that has a route. -/
structure KeyGrammar (path uuid : String) : Prop where
  returns : ∀ limiter : RequestsRateLimiter,
    limiter.extractPathKeyAt path uuid = some (limiter.extractPathKey path uuid)
  triggerKey : (∃ key, trigger.extractPathKey path uuid = .ok key) ↔
    NamesTrigger (splittedPath path)
  sourceKey : (∃ key, source.extractPathKey path uuid = .ok key) ↔
    NamesTrigger (splittedPath path)
  triggerParts : ∀ key, trigger.extractPathKey path uuid = .ok key →
    key.ns = (splittedPath path)[1]? ∧ key.trigger = (splittedPath path)[2]? ∧ key.source = none
  sourceParts : ∀ key, source.extractPathKey path uuid = .ok key →
    key.ns = (splittedPath path)[1]? ∧ key.trigger = (splittedPath path)[2]?
  withSource : ∀ key, source.extractPathKey path uuid = .ok key →
    ∀ part, (splittedPath path)[3]? = some part → part ≠ "" →
      key.stripSource = false ∧ key.source = some part
  withoutSource : ∀ key, source.extractPathKey path uuid = .ok key →
    (∀ part, (splittedPath path)[3]? = some part → part = "") → key.stripSource = true
  routes : Routable path → ∀ limiter : RequestsRateLimiter,
    ∃ key, limiter.extractPathKey path uuid = .ok key

theorem ite_ok_eq_ok_iff {p : Prop} [Decidable p] {key key' : RateLimiterKey} :
    (if p then Except.ok key else .error GovernorError.unableToExtractKey) = .ok key' ↔
      p ∧ key = key' := by
  by_cases hp : p
  · simp [hp]
  · simp [hp]

/-- Every path has the keys its grammar says, whatever UUID is drawn. -/
theorem keyGrammar (path uuid : String) : KeyGrammar path uuid := by
  have htrigger : ∀ key, trigger.extractPathKey path uuid = .ok key ↔
      NamesTrigger (splittedPath path) ∧ keyOfTrigger (splittedPath path) = key := by
    intro key
    rw [trigger_extractPathKey]
    exact ite_ok_eq_ok_iff
  have hsource : ∀ key, source.extractPathKey path uuid = .ok key ↔
      NamesTrigger (splittedPath path) ∧ keyOfSource (splittedPath path) uuid = key := by
    intro key
    rw [source_extractPathKey]
    exact ite_ok_eq_ok_iff
  constructor
  · intro limiter
    exact extractPathKeyAt_eq limiter path uuid
  · simp only [htrigger, exists_and_left, exists_eq', and_true]
  · simp only [hsource, exists_and_left, exists_eq', and_true]
  · intro key h
    rw [← ((htrigger key).mp h).2]
    exact ⟨rfl, rfl, rfl⟩
  · intro key h
    rw [← ((hsource key).mp h).2]
    exact ⟨rfl, rfl⟩
  · intro key h part hpart hne
    rw [← ((hsource key).mp h).2]
    simp [keyOfSource, namedSource, hpart, hne, Option.filter]
  · intro key h hempty
    rw [← ((hsource key).mp h).2]
    simp only [keyOfSource, namedSource, Option.isNone_iff_eq_none, Option.filter_eq_none_iff]
    simpa using hempty
  · intro hroute limiter
    have hnames := namesTrigger_of_routable hroute
    cases limiter with
    | global => exact ⟨{}, rfl⟩
    | trigger => exact ⟨_, (htrigger _).mpr ⟨hnames, rfl⟩⟩
    | source => exact ⟨_, (hsource _).mpr ⟨hnames, rfl⟩⟩

end RequestsRateLimiter

end GitEventsRunner.Web
