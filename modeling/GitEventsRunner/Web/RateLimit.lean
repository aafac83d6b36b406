/-
# Rate limit buckets of webhook requests

The hooks server limits requests by trigger and by source of a trigger.  A
bucket is found by a key, and the key is cut from the raw path of the request.
The handlers see the decoded path.

So one trigger has as many buckets as its path has spellings: the buckets match
the served resources exactly for requests that spell the same resource alike.
-/

import GitEventsRunner.Web.Routes

namespace GitEventsRunner.Web

open GitEventsRunner.Lib
open GitEventsRunner.Lib.Path (Segment)

/-- What the requests are limited by. -/
inductive RequestsRateLimiter
  | global | trigger | source
  deriving DecidableEq, Repr

/-- `RateLimiterKey` -/
structure RateLimiterKey where
  ns : Option String := none
  trigger : Option String := none
  source : Option String := none
  stripSource : Bool := false
  deriving DecidableEq, Repr

/-- The error of a key extractor. -/
inductive GovernorError
  | unableToExtractKey
  deriving DecidableEq, Repr

namespace RequestsRateLimiter

/-- `path.split("/")` -/
def splittedPath (path : String) : List String := (Path.segments path).map String.ofList

/-- The key of a source limiter for a request that names no source. -/
def keyWithoutSource (ns trigger uuid : String) : Except GovernorError RateLimiterKey :=
  if ns = "" ∨ trigger = "" then .error .unableToExtractKey
  else .ok { ns := some ns, trigger := some trigger, source := some uuid, stripSource := true }

/-- `RequestsRateLimiter::extract_path_key`; `uuid` is the one it draws if it has
to. -/
def extractPathKey (limiter : RequestsRateLimiter) (path uuid : String) :
    Except GovernorError RateLimiterKey :=
  match limiter with
  | .global => .ok {}
  | .trigger =>
      match splittedPath path with
      | _ :: ns :: name :: _ =>
          if ns = "" ∨ name = "" then .error .unableToExtractKey
          else .ok { ns := some ns, trigger := some name }
      | _ => .error .unableToExtractKey
  | .source =>
      match splittedPath path with
      | _ :: ns :: name :: sourceName :: _ =>
          if ¬ (ns = "" ∨ name = "" ∨ sourceName = "") then
            .ok { ns := some ns, trigger := some name, source := some sourceName,
                  stripSource := false }
          else keyWithoutSource ns name uuid
      | [_, ns, name] => keyWithoutSource ns name uuid
      | _ => .error .unableToExtractKey

end RequestsRateLimiter

/-- What a webhook request addresses, as its handler sees it. -/
structure HookResource where
  ns : String
  trigger : String
  source : Option String
  deriving DecidableEq, Repr

/-- What the captures of a request address. -/
def HookResource.ofCaptures : List String → Option HookResource
  | [ns, trigger] => some ⟨ns, trigger, none⟩
  | [ns, trigger, source] => some ⟨ns, trigger, some source⟩
  | _ => none

/-- What a POST request for a path addresses; `none` if it reaches no handler. -/
def addressed (path : String) : Option HookResource :=
  (hooksRouter.post path).bind fun dispatch => dispatch.captures.bind HookResource.ofCaptures

/-- A request as a rate limiter sees it: its path and the UUID drawn for it. -/
structure LimitedRequest where
  path : String
  uuid : String

/-- Two requests take from the same bucket of a limiter. -/
def SameBucket (limiter : RequestsRateLimiter) (p q : LimitedRequest) : Prop :=
  ∃ key, limiter.extractPathKey p.path p.uuid = .ok key ∧
    limiter.extractPathKey q.path q.uuid = .ok key

/-- The buckets of two requests match what the requests address: they share a
bucket of the trigger limiter exactly if they address the same trigger, and one
of the source limiter exactly if they address the same source of it. -/
def BucketsMatch (p q : LimitedRequest) (a b : HookResource) : Prop :=
  (SameBucket .trigger p q ↔ a.ns = b.ns ∧ a.trigger = b.trigger) ∧
    (SameBucket .source p q ↔ a.source.isSome ∧ a = b)

/-- The paths of two requests for the same trigger agree up to the trigger, and
those of two requests for the same source agree. -/
def SpelledAlike (p q : LimitedRequest) (a b : HookResource) : Prop :=
  (a.ns = b.ns ∧ a.trigger = b.trigger →
    (Path.segments p.path).take 3 = (Path.segments q.path).take 3) ∧
  (a.source.isSome ∧ a = b → p.path = q.path)

/-! ## Addressed paths -/

/-- The raw and the decoded segments of a request that reaches a handler. -/
inductive Addressed : List PathSegment → HookResource → Prop
  | trigger {ns trigger : PathSegment} {n t : String} (hns : Percent.decode ns.val = some n)
      (htrigger : Percent.decode trigger.val = some t) :
      Addressed [ns, trigger] ⟨n, t, none⟩
  | source {ns trigger source : PathSegment} {n t s : String}
      (hns : Percent.decode ns.val = some n) (htrigger : Percent.decode trigger.val = some t)
      (hsource : Percent.decode source.val = some s) :
      Addressed [ns, trigger, source] ⟨n, t, some s⟩

/-- A path that addresses something is a path of two or three segments that
decode to it. -/
theorem exists_addressed {path : String} {resource : HookResource}
    (h : addressed path = some resource) :
    ∃ parts, path = requestPath parts ∧ Addressed parts resource := by
  by_cases htrigger : ∃ ns trigger, path = requestPath [ns, trigger]
  · rcases htrigger with ⟨ns, trigger, rfl⟩
    rw [addressed, post_trigger] at h
    simp only [dispatchTo, List.map_cons, List.map_nil, Option.bind_some] at h
    cases hns : Percent.decode ns.val with
    | none => simp [hns] at h
    | some n =>
        cases ht : Percent.decode trigger.val with
        | none => simp [hns, ht] at h
        | some t =>
            simp only [List.mapM_cons, List.mapM_nil, hns, ht] at h
            obtain rfl := Option.some.inj h
            exact ⟨_, rfl, .trigger hns ht⟩
  · by_cases hsource : ∃ ns trigger source, path = requestPath [ns, trigger, source]
    · rcases hsource with ⟨ns, trigger, source, rfl⟩
      rw [addressed, post_source] at h
      simp only [dispatchTo, List.map_cons, List.map_nil, Option.bind_some] at h
      cases hns : Percent.decode ns.val with
      | none => simp [hns] at h
      | some n =>
          cases ht : Percent.decode trigger.val with
          | none => simp [hns, ht] at h
          | some t =>
              cases hs : Percent.decode source.val with
              | none => simp [hns, ht, hs] at h
              | some s =>
                  simp only [List.mapM_cons, List.mapM_nil, hns, ht, hs] at h
                  obtain rfl := Option.some.inj h
                  exact ⟨_, rfl, .source hns ht hs⟩
    · rw [addressed, post_eq_none] at h
      · cases h
      · intro ns trigger heq
        exact htrigger ⟨ns, trigger, heq⟩
      · intro ns trigger source heq
        exact hsource ⟨ns, trigger, source, heq⟩

/-! ## The keys of addressed paths -/

@[simp]
theorem splittedPath_requestPath (parts : List PathSegment) :
    RequestsRateLimiter.splittedPath (requestPath parts) =
      "" :: parts.map fun part => String.ofList part.val := by
  simp [RequestsRateLimiter.splittedPath, segments_requestPath]

theorem extractPathKey_trigger (ns trigger : PathSegment) (rest : List PathSegment)
    (uuid : String) :
    RequestsRateLimiter.trigger.extractPathKey (requestPath (ns :: trigger :: rest)) uuid =
      .ok { ns := some (String.ofList ns.val), trigger := some (String.ofList trigger.val) } := by
  simp [RequestsRateLimiter.extractPathKey, ns.property.1, trigger.property.1]

theorem extractPathKey_source (ns trigger source : PathSegment) (uuid : String) :
    RequestsRateLimiter.source.extractPathKey (requestPath [ns, trigger, source]) uuid =
      .ok { ns := some (String.ofList ns.val), trigger := some (String.ofList trigger.val),
            source := some (String.ofList source.val), stripSource := false } := by
  simp [RequestsRateLimiter.extractPathKey, ns.property.1, trigger.property.1, source.property.1]

theorem extractPathKey_withoutSource (ns trigger : PathSegment) (uuid : String) :
    RequestsRateLimiter.source.extractPathKey (requestPath [ns, trigger]) uuid =
      .ok { ns := some (String.ofList ns.val), trigger := some (String.ofList trigger.val),
            source := some uuid, stripSource := true } := by
  simp [RequestsRateLimiter.extractPathKey, RequestsRateLimiter.keyWithoutSource, ns.property.1,
    trigger.property.1]

/-- Requests share a trigger bucket if their paths agree up to the trigger. -/
theorem sameBucket_trigger_iff {p q : LimitedRequest} {a b : HookResource}
    (ha : addressed p.path = some a) (hb : addressed q.path = some b) :
    SameBucket .trigger p q ↔
      (Path.segments p.path).take 3 = (Path.segments q.path).take 3 := by
  rcases exists_addressed ha with ⟨parts, hp, hparts⟩
  rcases exists_addressed hb with ⟨parts', hq, hparts'⟩
  have hshape : ∀ {parts : List PathSegment} {resource : HookResource},
      Addressed parts resource → ∃ ns trigger rest, parts = ns :: trigger :: rest := by
    rintro _ _ (_ | _)
    · exact ⟨_, _, _, rfl⟩
    · exact ⟨_, _, _, rfl⟩
  rcases hshape hparts with ⟨ns, trigger, rest, rfl⟩
  rcases hshape hparts' with ⟨ns', trigger', rest', rfl⟩
  rw [SameBucket, hp, hq, extractPathKey_trigger, extractPathKey_trigger, segments_requestPath,
    segments_requestPath]
  simp [String.ofList_inj, eq_comm]

/-- Requests share a source bucket if they name a source and their paths are the
same; the drawn UUIDs keep all others apart. -/
theorem sameBucket_source_iff {p q : LimitedRequest} {a b : HookResource}
    (ha : addressed p.path = some a) (hb : addressed q.path = some b)
    (hfresh : p.uuid ≠ q.uuid) :
    SameBucket .source p q ↔ a.source.isSome ∧ p.path = q.path := by
  rcases exists_addressed ha with ⟨parts, hp, hparts⟩
  rcases exists_addressed hb with ⟨parts', hq, hparts'⟩
  rw [SameBucket, hp, hq, requestPath_injective.eq_iff]
  cases hparts with
  | trigger hns htrigger =>
      cases hparts' with
      | trigger hns' htrigger' =>
          simp [extractPathKey_withoutSource, hfresh.symm]
      | source hns' htrigger' hsource' =>
          simp [extractPathKey_withoutSource, extractPathKey_source]
  | source hns htrigger hsource =>
      cases hparts' with
      | trigger hns' htrigger' =>
          simp [extractPathKey_withoutSource, extractPathKey_source]
      | source hns' htrigger' hsource' =>
          simp [extractPathKey_source, String.ofList_inj, Subtype.ext_iff, eq_comm]

/-- Paths that agree up to the trigger address the same trigger. -/
theorem sameTrigger_of_take_eq {p q : String} {a b : HookResource}
    (ha : addressed p = some a) (hb : addressed q = some b)
    (h : (Path.segments p).take 3 = (Path.segments q).take 3) :
    a.ns = b.ns ∧ a.trigger = b.trigger := by
  rcases exists_addressed ha with ⟨parts, rfl, hparts⟩
  rcases exists_addressed hb with ⟨parts', rfl, hparts'⟩
  have hdecoded : ∀ {parts : List PathSegment} {resource : HookResource},
      Addressed parts resource →
        (((Path.segments (requestPath parts)).take 3).tail.map Percent.decode) =
          [some resource.ns, some resource.trigger] := by
    rintro _ _ (⟨hns, htrigger⟩ | ⟨hns, htrigger, _⟩)
    · simp [segments_requestPath, hns, htrigger]
    · simp [segments_requestPath, hns, htrigger]
  have hsame := hdecoded hparts
  rw [h, hdecoded hparts'] at hsame
  simpa [eq_comm] using hsame

/-- The segments of a resource's plain spelling. -/
def HookResource.segments (resource : HookResource) : List Segment :=
  resource.ns.toList :: resource.trigger.toList :: (resource.source.map String.toList).toList

/-- A path without percent signs is the plain spelling of what it addresses. -/
theorem segments_eq_of_percent_notMem {path : String} {resource : HookResource}
    (h : addressed path = some resource)
    (hplain : ∀ segment ∈ Path.segments path, '%' ∉ segment) :
    Path.segments path = [] :: resource.segments := by
  rcases exists_addressed h with ⟨parts, rfl, hparts⟩
  rw [segments_requestPath] at hplain ⊢
  have htext : ∀ part ∈ parts, ∀ text, Percent.decode part.val = some text →
      text.toList = part.val := by
    intro part hpart text hdecode
    have hmem : part.val ∈ [] :: parts.map Subtype.val :=
      List.mem_cons_of_mem [] (List.mem_map_of_mem hpart)
    rw [Percent.decode_of_percent_notMem (hplain part.val hmem)] at hdecode
    rw [← Option.some.inj hdecode, String.toList_ofList]
  cases hparts with
  | trigger hns htrigger =>
      simp [HookResource.segments, htext _ _ _ hns, htext _ _ _ htrigger]
  | source hns htrigger hsource =>
      simp [HookResource.segments, htext _ _ _ hns, htext _ _ _ htrigger, htext _ _ _ hsource]

/-- Without percent escapes a resource has one spelling. -/
theorem spelledAlike_of_percent_notMem {p q : LimitedRequest} {a b : HookResource}
    (ha : addressed p.path = some a) (hb : addressed q.path = some b)
    (hp : ∀ segment ∈ Path.segments p.path, '%' ∉ segment)
    (hq : ∀ segment ∈ Path.segments q.path, '%' ∉ segment) : SpelledAlike p q a b := by
  have hsegments := segments_eq_of_percent_notMem ha hp
  have hsegments' := segments_eq_of_percent_notMem hb hq
  apply And.intro
  · rintro ⟨hns, htrigger⟩
    rw [hsegments, hsegments', HookResource.segments, HookResource.segments, hns, htrigger]
    rfl
  · rintro ⟨-, heq⟩
    rw [← Path.ofSegments_segments p.path, hsegments, heq, ← hsegments',
      Path.ofSegments_segments]

/-- The buckets of two requests match what they address exactly if the requests
do not spell the same trigger or source differently. -/
theorem bucketsMatch_iff_spelledAlike {p q : LimitedRequest} {a b : HookResource}
    (ha : addressed p.path = some a) (hb : addressed q.path = some b)
    (hfresh : p.uuid ≠ q.uuid) : BucketsMatch p q a b ↔ SpelledAlike p q a b := by
  have htrigger := sameTrigger_of_take_eq ha hb
  have hsource : p.path = q.path → a = b := by
    intro heq
    rw [heq, hb] at ha
    exact (Option.some.inj ha).symm
  rw [BucketsMatch, SpelledAlike, sameBucket_trigger_iff ha hb,
    sameBucket_source_iff ha hb hfresh]
  apply and_congr
  · apply Iff.intro
    · intro hiff
      exact hiff.mpr
    · intro hback
      exact ⟨htrigger, hback⟩
  · apply Iff.intro
    · rintro hiff ⟨hsome, heq⟩
      exact (hiff.mpr ⟨hsome, heq⟩).2
    · intro hback
      apply Iff.intro
      · rintro ⟨hsome, hpath⟩
        exact ⟨hsome, hsource hpath⟩
      · rintro ⟨hsome, heq⟩
        exact ⟨hsome, hback ⟨hsome, heq⟩⟩

theorem bucketsMatch_iff_spelledAlike_twoSpellings :
    addressed "/ns/t/s" = some ⟨"ns", "t", some "s"⟩ ∧
      addressed "/ns/t/%73" = some ⟨"ns", "t", some "s"⟩ ∧
      (BucketsMatch ⟨"/ns/t/s", "1"⟩ ⟨"/ns/t/%73", "2"⟩ ⟨"ns", "t", some "s"⟩
          ⟨"ns", "t", some "s"⟩ ↔
        SpelledAlike ⟨"/ns/t/s", "1"⟩ ⟨"/ns/t/%73", "2"⟩ ⟨"ns", "t", some "s"⟩
          ⟨"ns", "t", some "s"⟩) := by
  have ha : addressed "/ns/t/s" = some ⟨"ns", "t", some "s"⟩ := by decide +kernel
  have hb : addressed "/ns/t/%73" = some ⟨"ns", "t", some "s"⟩ := by decide +kernel
  exact ⟨ha, hb, bucketsMatch_iff_spelledAlike ha hb (by decide)⟩

/-- A caller gets a second bucket for the same trigger by escaping one letter of
its namespace. -/
theorem second_bucket_by_escape :
    addressed "/ns/t" = some ⟨"ns", "t", none⟩ ∧ addressed "/n%73/t" = some ⟨"ns", "t", none⟩ ∧
      ¬ BucketsMatch ⟨"/ns/t", "1"⟩ ⟨"/n%73/t", "2"⟩ ⟨"ns", "t", none⟩ ⟨"ns", "t", none⟩ := by
  have hkey : RequestsRateLimiter.trigger.extractPathKey "/ns/t" "1" =
      .ok { ns := some "ns", trigger := some "t" } := by decide +kernel
  have hkey' : RequestsRateLimiter.trigger.extractPathKey "/n%73/t" "2" =
      .ok { ns := some "n%73", trigger := some "t" } := by decide +kernel
  have ha : addressed "/ns/t" = some ⟨"ns", "t", none⟩ := by decide +kernel
  have hb : addressed "/n%73/t" = some ⟨"ns", "t", none⟩ := by decide +kernel
  apply And.intro ha
  apply And.intro hb
  intro hmatch
  rcases hmatch.1.mpr ⟨rfl, rfl⟩ with ⟨key, h, h'⟩
  rw [hkey] at h
  rw [hkey', ← Except.ok.inj h] at h'
  simp at h'

end GitEventsRunner.Web
