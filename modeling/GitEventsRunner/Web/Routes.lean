/-
# The routes of the webhooks server

`build_hooks_web` registers two routes and hands every POST request to the
handler of the route its path matches.  How the text of a route is read is the
router's business: a grammar says which segments of a route are literal, which
capture, and which make the registration panic.

The routes are written with a colon before each capture.  Under the grammar of
the router that is built in, `{name}` captures and a colon panics, so no
webhooks server is ever built.  Under the grammar the routes were written for,
the same two routes serve exactly the two documented kinds of paths.
-/

import GitEventsRunner.Lib.Path
import GitEventsRunner.Lib.Percent

namespace GitEventsRunner.Web

open GitEventsRunner.Lib
open GitEventsRunner.Lib.Path (Segment)

/-- One segment of a registered route. -/
inductive SegmentPattern
  | literal (text : Segment)
  | capture (name : Segment)
  deriving DecidableEq, Repr

/-- How a router reads one segment of a route; `none` if registering it panics. -/
abbrev RouteGrammar := Segment → Option SegmentPattern

namespace RouteGrammar

/-- The grammar of axum 0.8: a capture is written `{name}`, and a segment that
starts with `:` or `*` panics. -/
def braces : RouteGrammar
  | ':' :: _ => none
  | '*' :: _ => none
  | '{' :: rest =>
      if rest.getLast? = some '}' then some (.capture rest.dropLast) else none
  | text => some (.literal text)

/-- The grammar of axum before 0.8: a capture is written `:name`. -/
def colons : RouteGrammar
  | ':' :: name => some (.capture name)
  | text => some (.literal text)

end RouteGrammar

/-- The handlers of the webhooks server. -/
inductive WebhookHandler
  | handlePostTriggerWebhook
  | handlePostSourceWebhook
  deriving DecidableEq, Repr

/-- The routes of a router, each with its handler for POST requests. -/
abbrev Router := List (List SegmentPattern × WebhookHandler)

/-- A request as its handler gets it: the captured segments, decoded, or `none`
if one of them is not UTF-8 and the request is rejected. -/
structure Dispatch where
  handler : WebhookHandler
  captures : Option (List String)
  deriving DecidableEq

namespace Router

/-- `Router::route`, with `none` for a panic.  Every route starts with `/`. -/
def route (grammar : RouteGrammar) (path : String) (handler : WebhookHandler)
    (router : Router) : Option Router :=
  if path.toList.head? = some '/' then
    ((Path.segments path).mapM grammar).map fun pattern => router ++ [(pattern, handler)]
  else none

/-- The segments a path puts in the captures of a route; a capture takes one
segment that is not empty. -/
def captured : List SegmentPattern → List Segment → Option (List Segment)
  | [], [] => some []
  | .literal text :: pattern, segment :: path =>
      if segment = text then captured pattern path else none
  | .capture _ :: pattern, segment :: path =>
      if segment = [] then none else (captured pattern path).map (segment :: ·)
  | _, _ => none

/-- Where a POST request for a path goes; `none` if no route matches. -/
def post (router : Router) (path : String) : Option Dispatch :=
  router.findSome? fun route =>
    (captured route.1 (Path.segments path)).map fun captures =>
      ⟨route.2, captures.mapM Percent.decode⟩

end Router

/-- The router `build_hooks_web` serves, with `none` for a panic.  The rate
limits wrap the router and do not dispatch. -/
def buildHooksWeb (grammar : RouteGrammar) : Option Router := do
  let router ← Router.route grammar "/:namespace/:trigger" .handlePostTriggerWebhook []
  Router.route grammar "/:namespace/:trigger/:source" .handlePostSourceWebhook router

/-- A segment of a request: some text without a slash. -/
abbrev PathSegment := { segment : Segment // segment ≠ [] ∧ '/' ∉ segment }

/-- The path with the given segments behind the root. -/
def requestPath (segments : List PathSegment) : String :=
  Path.ofSegments ([] :: segments.map Subtype.val)

/-- The webhooks server is built, and serves what it documents: the paths of two
segments go to the trigger handler, those of three to the source handler, the
segments decoded, and no other path goes to either. -/
def WebhooksServed (grammar : RouteGrammar) : Prop :=
  ∃ router, buildHooksWeb grammar = some router ∧
    (∀ ns trigger : PathSegment, router.post (requestPath [ns, trigger]) =
      some ⟨.handlePostTriggerWebhook, [ns.val, trigger.val].mapM Percent.decode⟩) ∧
    (∀ ns trigger source : PathSegment, router.post (requestPath [ns, trigger, source]) =
      some ⟨.handlePostSourceWebhook, [ns.val, trigger.val, source.val].mapM Percent.decode⟩) ∧
    ∀ path, (∀ ns trigger, path ≠ requestPath [ns, trigger]) →
      (∀ ns trigger source, path ≠ requestPath [ns, trigger, source]) → router.post path = none

/-! ## The grammar that is built in -/

/-- Whatever else a grammar accepts: if a leading colon panics, no server is
built. -/
theorem buildHooksWeb_eq_none {grammar : RouteGrammar}
    (hcolon : ∀ name, grammar (':' :: name) = none) : buildHooksWeb grammar = none := by
  have hroute : Router.route grammar "/:namespace/:trigger" .handlePostTriggerWebhook [] =
      none := by
    have hsegments : Path.segments "/:namespace/:trigger" =
        [[], ':' :: "namespace".toList, ':' :: "trigger".toList] := by
      decide +kernel
    rw [Router.route, hsegments]
    cases hempty : grammar [] with
    | none => simp [hempty]
    | some first => simp [hempty, hcolon]
  rw [buildHooksWeb, hroute]
  rfl

/-- Under a grammar in which a leading colon panics, webhooks are not served. -/
theorem not_webhooksServed {grammar : RouteGrammar}
    (hcolon : ∀ name, grammar (':' :: name) = none) :
    buildHooksWeb grammar = none ∧ ¬ WebhooksServed grammar := by
  have hnone := buildHooksWeb_eq_none hcolon
  apply And.intro hnone
  rintro ⟨router, hsome, -⟩
  rw [hnone] at hsome
  cases hsome

theorem not_webhooksServed_braces_build :
    (∀ name, RouteGrammar.braces (':' :: name) = none) ∧
      buildHooksWeb RouteGrammar.braces = none ∧ ¬ WebhooksServed RouteGrammar.braces :=
  ⟨fun _ => rfl, not_webhooksServed fun _ => rfl⟩

theorem webhooksServed_braces_false : ¬ WebhooksServed RouteGrammar.braces := by
  rintro ⟨router, hsome, -⟩
  have hnone : buildHooksWeb RouteGrammar.braces = none := by decide +kernel
  rw [hnone] at hsome
  cases hsome

/-! ## The grammar the routes are written for -/

/-- A route that captures every segment behind the root. -/
def captureAll (names : List Segment) : List SegmentPattern := .literal [] :: names.map .capture

/-- The two routes as they are meant. -/
def hooksRouter : Router :=
  [(captureAll ["namespace".toList, "trigger".toList], .handlePostTriggerWebhook),
    (captureAll ["namespace".toList, "trigger".toList, "source".toList],
      .handlePostSourceWebhook)]

theorem buildHooksWeb_colons : buildHooksWeb RouteGrammar.colons = some hooksRouter := by
  decide +kernel

theorem segments_requestPath (parts : List PathSegment) :
    Path.segments (requestPath parts) = [] :: parts.map Subtype.val := by
  apply Path.segments_ofSegments (List.cons_ne_nil _ _)
  intro segment hmem
  rcases List.mem_cons.mp hmem with rfl | hrest
  · simp
  · rcases List.mem_map.mp hrest with ⟨part, -, rfl⟩
    exact part.property.2

theorem captured_names {names : List Segment} {parts : List PathSegment}
    (h : parts.length = names.length) :
    Router.captured (names.map .capture) (parts.map Subtype.val) =
      some (parts.map Subtype.val) := by
  induction names generalizing parts with
  | nil =>
      rw [List.eq_nil_of_length_eq_zero h]
      rfl
  | cons name names ih =>
      cases parts with
      | nil => cases h
      | cons part parts =>
          have hrest : parts.length = names.length := Nat.succ.inj h
          simp only [List.map_cons, Router.captured, if_neg part.property.1, ih hrest]
          rfl

/-- What captures take is the whole rest of the path, one segment each. -/
theorem exists_parts_of_captured {names route captures : List Segment}
    (hplain : ∀ segment ∈ route, '/' ∉ segment)
    (h : Router.captured (names.map .capture) route = some captures) :
    ∃ parts : List PathSegment, parts.length = names.length ∧ route = parts.map Subtype.val := by
  induction names generalizing route captures with
  | nil =>
      cases route with
      | nil => exact ⟨[], rfl, rfl⟩
      | cons segment route => cases h
  | cons name names ih =>
      cases route with
      | nil => cases h
      | cons segment route =>
          rw [List.map_cons, Router.captured] at h
          by_cases hsegment : segment = []
          · rw [if_pos hsegment] at h
            cases h
          · rw [if_neg hsegment] at h
            rcases Option.map_eq_some_iff.mp h with ⟨rest, hrest, -⟩
            have hlater : ∀ segment ∈ route, '/' ∉ segment :=
              fun segment' hmem => hplain segment' (List.mem_cons_of_mem segment hmem)
            rcases ih hlater hrest with ⟨parts, hlength, rfl⟩
            have hpart := hplain segment List.mem_cons_self
            exact ⟨⟨segment, hsegment, hpart⟩ :: parts, by simp [hlength], rfl⟩

theorem captured_captureAll_requestPath {names : List Segment} {parts : List PathSegment}
    (h : parts.length = names.length) :
    Router.captured (captureAll names) (Path.segments (requestPath parts)) =
      some (parts.map Subtype.val) := by
  rw [segments_requestPath, captureAll, Router.captured, if_pos rfl]
  exact captured_names h

/-- A path matches such a route only if it has as many segments as the route has
captures. -/
theorem captured_captureAll_eq_none {names : List Segment} {path : String}
    (h : ∀ parts : List PathSegment, parts.length = names.length → path ≠ requestPath parts) :
    Router.captured (captureAll names) (Path.segments path) = none := by
  cases hcaptured : Router.captured (captureAll names) (Path.segments path) with
  | none => rfl
  | some captures =>
      cases hsegments : Path.segments path with
      | nil =>
          rw [hsegments] at hcaptured
          cases hcaptured
      | cons root route =>
          rw [hsegments, captureAll, Router.captured] at hcaptured
          by_cases hroot : root = []
          · rw [if_pos hroot] at hcaptured
            have hplain : ∀ segment ∈ route, '/' ∉ segment := by
              intro segment hmem
              have hpath : segment ∈ Path.segments path := by
                rw [hsegments]
                exact List.mem_cons_of_mem root hmem
              exact Path.slash_notMem_of_mem_segments hpath
            rcases exists_parts_of_captured hplain hcaptured with ⟨parts, hlength, rfl⟩
            apply absurd _ (h parts hlength)
            rw [hroot] at hsegments
            rw [requestPath, ← hsegments, Path.ofSegments_segments]
          · rw [if_neg hroot] at hcaptured
            cases hcaptured

theorem requestPath_injective : Function.Injective requestPath := by
  intro parts parts' heq
  have hsegments := congrArg Path.segments heq
  rw [segments_requestPath, segments_requestPath] at hsegments
  exact List.map_injective_iff.mpr Subtype.val_injective (List.tail_eq_of_cons_eq hsegments)

/-- The request is handed to its handler with the decoded segments. -/
def dispatchTo (handler : WebhookHandler) (parts : List PathSegment) : Dispatch :=
  ⟨handler, (parts.map Subtype.val).mapM Percent.decode⟩

theorem post_trigger (ns trigger : PathSegment) :
    hooksRouter.post (requestPath [ns, trigger]) =
      some (dispatchTo .handlePostTriggerWebhook [ns, trigger]) := by
  rw [Router.post, hooksRouter, List.findSome?_cons, captured_captureAll_requestPath rfl]
  rfl

theorem post_source (ns trigger source : PathSegment) :
    hooksRouter.post (requestPath [ns, trigger, source]) =
      some (dispatchTo .handlePostSourceWebhook [ns, trigger, source]) := by
  have hnone : Router.captured (captureAll ["namespace".toList, "trigger".toList])
      (Path.segments (requestPath [ns, trigger, source])) = none := by
    apply captured_captureAll_eq_none
    intro parts hlength heq
    rw [← requestPath_injective heq] at hlength
    cases hlength
  rw [Router.post, hooksRouter, List.findSome?_cons, hnone, Option.map_none]
  rw [List.findSome?_cons, captured_captureAll_requestPath rfl]
  rfl

/-- No other path reaches a handler. -/
theorem post_eq_none {path : String} (htrigger : ∀ ns trigger, path ≠ requestPath [ns, trigger])
    (hsource : ∀ ns trigger source, path ≠ requestPath [ns, trigger, source]) :
    hooksRouter.post path = none := by
  have hnone : ∀ names : List Segment, names.length = 2 ∨ names.length = 3 →
      Router.captured (captureAll names) (Path.segments path) = none := by
    intro names hnames
    apply captured_captureAll_eq_none
    intro parts hlength
    rcases hnames with htwo | hthree
    · rw [htwo] at hlength
      rcases List.length_eq_two.mp hlength with ⟨ns, trigger, rfl⟩
      exact htrigger ns trigger
    · rw [hthree] at hlength
      rcases List.length_eq_three.mp hlength with ⟨ns, trigger, source, rfl⟩
      exact hsource ns trigger source
  rw [Router.post, hooksRouter, List.findSome?_cons, hnone _ (Or.inl rfl), Option.map_none]
  rw [List.findSome?_cons, hnone _ (Or.inr rfl), Option.map_none]
  rfl

/-- Read with colons, the routes of the source serve what they document. -/
theorem webhooksServed_colons : WebhooksServed RouteGrammar.colons :=
  ⟨hooksRouter, buildHooksWeb_colons, post_trigger, post_source, fun _ => post_eq_none⟩

end GitEventsRunner.Web
