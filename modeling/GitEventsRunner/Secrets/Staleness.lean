/-
# A cached answer is an earlier answer of the server

An answer of the cache, good or bad, is the one the API server itself would have given
to the same call a little earlier, unless the server failed to answer that call.  So
whoever asks the cache may be thought of as asking the server in the past, and no
further back than the expiration timeout.
-/

import GitEventsRunner.Secrets.Cache

namespace GitEventsRunner.Secrets

open GitEventsRunner.Lib

/-- What a call gets from the server if no cache is between them. -/
def Request.direct (request : Request) (server : SecretStore) : Except Error String :=
  (request.querySecretsApi server).map Prod.snd

/-- The call that the server failed to answer. -/
def Action.failed : Action → Option ℕ
  | .fetch id (some _) => some id
  | _ => none

theorem Request.direct_of_get {request : Request} {server : SecretStore} {data : SecretData}
    {bytes : List UInt8}
    (hserver : server.get (request.ns, request.secretName) = some ⟨some data⟩)
    (hbytes : data.get request.key = some bytes) :
    request.direct server = request.fromUtf8 bytes := by
  rw [direct, querySecretsApi, hserver]
  simp only [pure_bind, hbytes]
  cases request.fromUtf8 bytes with
  | error error => rfl
  | ok value => rfl

/-! ## What a step does to the calls and their answers -/

section Frame

variable {timeout : Duration} {s t : State} {action : Action}

theorem clock_le_of_step (h : s.step timeout action = some t) : s.clock ≤ t.clock := by
  cases Transition.of_step h with
  | tick d => exact Int.le_add_of_nonneg_right (Int.natCast_nonneg d)
  | _ => exact le_refl _

theorem history_subset_of_step (h : s.step timeout action = some t) :
    s.history ⊆ t.history := by
  cases Transition.of_step h with
  | tick d => exact List.subset_append_left _ _
  | change ns secretName secret server => exact List.subset_append_left _ _
  | _ => exact List.Subset.refl _

/-- A call that is there. -/
def State.Asks (s : State) (id : ℕ) (request : Request) : Prop :=
  ∃ phase, s.calls[id]? = some ⟨request, phase⟩

/-- A call that is there moves to another phase. -/
theorem State.Asks.set {id id' : ℕ} {request request' : Request} {phase : Phase}
    (h : s.Asks id request) (hcall : s.calls[id']? = some ⟨request', phase⟩) (phase' : Phase) :
    (s.setPhase id' request' phase').Asks id request := by
  obtain ⟨before, hbefore⟩ := h
  by_cases hid : id' = id
  · subst hid
    obtain rfl : request' = request := by
      rw [hcall] at hbefore
      exact congrArg Call.request (Option.some.inj hbefore)
    exact ⟨phase', List.getElem?_set_self (List.getElem?_eq_some_iff.mp hcall).1⟩
  · refine ⟨before, ?_⟩
    rw [setPhase, List.getElem?_set_ne hid, hbefore]

/-- No step changes what a call asks for. -/
theorem State.Asks.step {id : ℕ} {request : Request} (h : s.Asks id request)
    (hstep : s.step timeout action = some t) : t.Asks id request := by
  cases Transition.of_step hstep with
  | call new =>
      obtain ⟨phase, hphase⟩ := h
      refine ⟨phase, ?_⟩
      rw [List.getElem?_append_left (List.getElem?_eq_some_iff.mp hphase).1, hphase]
  | move _ id' request' phase phase' writer hcall hphase => exact h.set hcall phase'
  | answer _ id' request' phase result writer hcall hphase hresult => exact h.set hcall .done
  | stored id' request' data value writer hcall hquery => exact h.set hcall .done
  | tick d => exact h
  | change ns secretName secret server => exact h

/-- An answer that a step gives: to a call that is there, at the present time, from the
cache or from the server, or because the server failed. -/
structure Fresh (s : State) (action : Action) (ret : Returned) : Prop where
  asked : s.Asks ret.id ret.request
  time : ret.time = s.clock
  result : s.lookup ret.request = some ret.result ∨ ret.result = ret.request.direct s.server ∨
    action.failed = some ret.id ∧ ∃ error, ret.result = .error error

/-- A step under the write lock answers its call, or panics. -/
theorem Fresh.of_refresh {id : ℕ} {request : Request} {failure : Option Error}
    (hcall : s.calls[id]? = some ⟨request, .fetching⟩) {ret : Returned}
    (h : ret ∈ (s.refresh timeout id request failure).returns) :
    ret ∈ s.returns ∨ Fresh s (.fetch id failure) ret := by
  -- an answer of this call, whatever it is, is right if it is what the query says
  have hanswer : ∀ result : Except Error String,
      result = (s.query request failure).map Prod.snd →
      ret ∈ s.returns ++ [⟨id, request, s.clock, result⟩] →
      ret ∈ s.returns ∨ Fresh s (.fetch id failure) ret := by
    intro result hresult hmem
    apply (List.mem_append.mp hmem).imp_right
    intro hnew
    obtain rfl := List.mem_singleton.mp hnew
    refine ⟨⟨.fetching, hcall⟩, rfl, Or.inr ?_⟩
    cases failure with
    | none => exact Or.inl hresult
    | some error => exact Or.inr ⟨rfl, error, hresult⟩
  rw [State.refresh] at h
  cases hquery : s.query request failure with
  | error error =>
      rw [hquery] at h hanswer
      exact hanswer _ rfl h
  | ok result =>
      obtain ⟨data, value⟩ := result
      rw [hquery] at h hanswer
      cases hadd : SystemTime.checkedAdd s.clock timeout with
      | none =>
          simp only [hadd] at h
          exact Or.inl h
      | some expiresAt =>
          simp only [hadd] at h
          exact hanswer _ rfl h

theorem Fresh.of_step (h : s.step timeout action = some t) {ret : Returned}
    (hret : ret ∈ t.returns) : ret ∈ s.returns ∨ Fresh s action ret := by
  cases action with
  | read id =>
      simp only [State.step] at h
      split at h
      · next request hcall =>
          split at h
          · split at h
            · next result hlookup =>
                obtain rfl := Option.some.inj h
                apply (List.mem_append.mp hret).imp_right
                intro hnew
                obtain rfl := List.mem_singleton.mp hnew
                exact ⟨⟨.reading, hcall⟩, rfl, Or.inl hlookup⟩
            · obtain rfl := Option.some.inj h
              exact Or.inl hret
          · cases h
      · cases h
  | fetch id failure =>
      simp only [State.step] at h
      split at h
      · next request hcall =>
          obtain rfl := Option.some.inj h
          exact Fresh.of_refresh hcall hret
      · cases h
  | acquire id =>
      simp only [State.step] at h
      split at h
      · split at h
        · obtain rfl := Option.some.inj h
          exact Or.inl hret
        · cases h
      · cases h
  | abandon id =>
      simp only [State.step] at h
      split at h
      · split at h
        · cases h
        · obtain rfl := Option.some.inj h
          exact Or.inl hret
      · cases h
  | call request | tick d | change ns secretName secret =>
      obtain rfl := Option.some.inj h
      exact Or.inl hret

end Frame

/-! ## Answers of the past -/

/-- The answer is the one of the server at some time less than the timeout before it. -/
def State.Echoes (timeout : Duration) (s : State) (ret : Returned) : Prop :=
  ∃ time server, (time, server) ∈ s.history ∧ ret.time - timeout < time ∧ time ≤ ret.time ∧
    ret.result = ret.request.direct server

/-- The server did not answer the call, and the caller was told so. -/
def Failed (failures : List ℕ) (ret : Returned) : Prop :=
  ret.id ∈ failures ∧ ∃ error, ret.result = .error error

/-- The cache is truthful; every answer belongs to a call, lies in the past, and is an
earlier one of the server unless the server failed. -/
structure Echoing (timeout : Duration) (failures : List ℕ) (s : State) : Prop where
  truthful : Truthful timeout s
  asked : ∀ ret ∈ s.returns, s.Asks ret.id ret.request
  past : ∀ ret ∈ s.returns, ret.time ≤ s.clock
  echoes : ∀ ret ∈ s.returns, Failed failures ret ∨ s.Echoes timeout ret

theorem start_echoing (timeout : Duration) (clock : SystemTime) (server : SecretStore) :
    Echoing timeout [] (State.start clock server) where
  truthful := start_truthful timeout clock server
  asked := by
    intro ret hret
    cases hret
  past := by
    intro ret hret
    cases hret
  echoes := by
    intro ret hret
    cases hret

section Keep

variable {timeout : Duration} {failures : List ℕ} {s t : State} {action : Action}

theorem State.Echoes.mono {ret : Returned} (h : s.Echoes timeout ret)
    (hle : s.history ⊆ t.history) : t.Echoes timeout ret := by
  obtain ⟨time, server, hmem, hechoes⟩ := h
  exact ⟨time, server, hle hmem, hechoes⟩

/-- What the cache answers is what the server said when the entry was stored. -/
theorem Truthful.echoes_of_lookup (h : Truthful timeout s) {ret : Returned}
    (htime : ret.time = s.clock) (hlookup : s.lookup ret.request = some ret.result) :
    s.Echoes timeout ret := by
  rw [State.lookup] at hlookup
  split at hlookup
  · next entry hentry =>
      split at hlookup
      · next hexpires =>
          obtain ⟨bytes, hbytes, hresult⟩ := Option.map_eq_some_iff.mp hlookup
          obtain ⟨time, server, hmem, hpast, hserver, heq⟩ := h.entries ret.request entry hentry
          refine ⟨time, server, hmem, ?_, htime ▸ hpast, ?_⟩
          · rw [htime]
            exact Int.sub_right_lt_of_lt_add (lt_of_lt_of_eq hexpires heq)
          · rw [Request.direct_of_get hserver hbytes, hresult]
      · cases hlookup
  · cases hlookup

theorem Fresh.echoes (hpos : 0 < timeout) (h : Truthful timeout s) {ret : Returned}
    (hfresh : Fresh s action ret) :
    Failed (failures ++ action.failed.toList) ret ∨ s.Echoes timeout ret := by
  rcases hfresh.result with hlookup | hdirect | ⟨hfailed, herror⟩
  · exact Or.inr (h.echoes_of_lookup hfresh.time hlookup)
  · refine Or.inr ⟨s.clock, s.server, h.present, ?_, hfresh.time.ge, hdirect⟩
    rw [hfresh.time]
    exact Int.sub_lt_self s.clock (Int.natCast_pos.mpr hpos)
  · refine Or.inl ⟨?_, herror⟩
    rw [hfailed]
    exact List.mem_append_right _ List.mem_cons_self

theorem Echoing.step (hpos : 0 < timeout) (h : Echoing timeout failures s)
    (hstep : s.step timeout action = some t) :
    Echoing timeout (failures ++ action.failed.toList) t where
  truthful := h.truthful.step hpos hstep
  asked := by
    intro ret hret
    rcases Fresh.of_step hstep hret with hold | hnew
    · exact (h.asked ret hold).step hstep
    · exact hnew.asked.step hstep
  past := by
    intro ret hret
    have hclock := clock_le_of_step hstep
    rcases Fresh.of_step hstep hret with hold | hnew
    · exact (h.past ret hold).trans hclock
    · exact hnew.time.le.trans hclock
  echoes := by
    intro ret hret
    have hhistory := history_subset_of_step hstep
    rcases Fresh.of_step hstep hret with hold | hnew
    · rcases h.echoes ret hold with ⟨hfailed, herror⟩ | hechoes
      · exact Or.inl ⟨List.mem_append_left _ hfailed, herror⟩
      · exact Or.inr (hechoes.mono hhistory)
    · exact (hnew.echoes hpos h.truthful).imp_right fun hechoes => hechoes.mono hhistory

end Keep

end GitEventsRunner.Secrets
