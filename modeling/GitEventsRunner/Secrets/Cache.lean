/-
# The secrets cache

`SecretsCache` keeps whole secrets for a limited time.  A call looks its key up
under a read lock; if the secret is missing, expired or has no such key, the
call takes the write lock, asks the API server, stores the whole secret and
returns the value.  Between the two locks, and while others wait, secrets change
on the server, time passes and calls are abandoned.

The machine below interleaves any number of calls.  It keeps a history of what
the server held and when, so that the value of every answer can be traced: an
answer is never older than the expiration timeout and is always about the secret
that was asked for.
-/

import GitEventsRunner.Lib.HashMap
import GitEventsRunner.Lib.Machine
import GitEventsRunner.Lib.Path
import GitEventsRunner.Lib.SystemTime

namespace GitEventsRunner.Secrets

open GitEventsRunner.Lib

/-! ## Secrets and requests -/

/-- The content of a secret, by key. -/
abbrev SecretData := HashMap String (List UInt8)

/-- A secret on the API server. -/
structure Secret where
  data : Option SecretData

/-- The configuration of `SecretsCache`; the command line admits no timeout
under a second. -/
structure SecretsCache where
  expirationTimeout : Duration
  expires : 0 < expirationTimeout := by decide

/-- The secrets on the API server, by namespace and name. -/
abbrev SecretStore := HashMap (String × String) Secret

/-- `SecretValue`: a cached secret. -/
structure SecretValue where
  data : SecretData
  expiresAt : SystemTime

/-- The errors of the secrets cache: a failed API request, with its code if the
server answered, or an unusable secret. -/
inductive Error
  | kubeError (code : Option ℕ)
  | secretDecodingError (msg : String)
  deriving DecidableEq

/-- The arguments of `get_key_value`.  A namespace is a DNS label, so it has no
slash; the other two are any text. -/
structure Request where
  ns : String
  secretName : String
  key : String
  ns_plain : '/' ∉ ns.toList := by decide

namespace Request

/-- The key of the cache map. -/
def hashKey (request : Request) : String := request.ns ++ "/" ++ request.secretName

/-- Requests share a cache key only if they are about the same secret. -/
theorem eq_of_hashKey_eq {a b : Request} (h : a.hashKey = b.hashKey) :
    a.ns = b.ns ∧ a.secretName = b.secretName :=
  Path.eq_of_append_slash_eq a.ns_plain b.ns_plain h

/-- `String::from_utf8` of the value of the requested key. -/
def fromUtf8 (request : Request) (bytes : List UInt8) : Except Error String :=
  match String.fromUTF8? bytes.toByteArray with
  | some value => .ok value
  | none => .error (.secretDecodingError ("error converting string `" ++ request.key ++
      "` from UTF8 in the secret `" ++ request.secretName ++ "`"))

/-- `SecretsCache::query_secrets_api`, when the server answers. -/
def querySecretsApi (request : Request) (server : SecretStore) :
    Except Error (SecretData × String) := do
  let secret ← match server.get (request.ns, request.secretName) with
    | some secret => pure secret
    | none => throw (.kubeError (some 404))
  let secretDataRaw ← match secret.data with
    | some data => pure data
    | none => throw (.secretDecodingError
        ("no `data` part in the secret `" ++ request.secretName ++ "`"))
  let secretData ← match secretDataRaw.get request.key with
    | some bytes => pure bytes
    | none => throw (.secretDecodingError
        ("no `" ++ request.key ++ "` key in the secret `" ++ request.secretName ++ "`"))
  let secretValue ← request.fromUtf8 secretData
  pure (secretDataRaw, secretValue)

theorem fromUtf8_eq_ok {request : Request} {bytes : List UInt8} {value : String} :
    request.fromUtf8 bytes = .ok value ↔ String.fromUTF8? bytes.toByteArray = some value := by
  rw [fromUtf8]
  cases String.fromUTF8? bytes.toByteArray with
  | none => simp
  | some decoded => simp

/-- A successful query returns the whole secret and the decoded value of the
key. -/
theorem querySecretsApi_eq_ok {request : Request} {server : SecretStore} {data : SecretData}
    {value : String} (h : request.querySecretsApi server = .ok (data, value)) :
    server.get (request.ns, request.secretName) = some ⟨some data⟩ ∧
      ∃ bytes, data.get request.key = some bytes ∧
        String.fromUTF8? bytes.toByteArray = some value := by
  rw [querySecretsApi] at h
  cases hsecret : server.get (request.ns, request.secretName) with
  | none =>
      rw [hsecret] at h
      cases h
  | some secret =>
      rcases secret with ⟨raw⟩
      cases raw with
      | none =>
          rw [hsecret] at h
          cases h
      | some raw =>
          cases hbytes : raw.get request.key with
          | none =>
              simp only [hsecret, pure_bind, hbytes] at h
              cases h
          | some bytes =>
              cases hvalue : request.fromUtf8 bytes with
              | error e =>
                  simp only [hsecret, pure_bind, hbytes, hvalue] at h
                  cases h
              | ok decoded =>
                  simp only [hsecret, pure_bind, hbytes, hvalue] at h
                  have hpair : (raw, decoded) = (data, value) := Except.ok.inj h
                  rcases Prod.mk.inj hpair with ⟨rfl, rfl⟩
                  exact ⟨rfl, bytes, hbytes, fromUtf8_eq_ok.mp hvalue⟩

end Request

/-! ## Calls -/

/-- Where a call of `get_key_value` is: before its look at the cache, waiting for
the write lock, holding it, or over. -/
inductive Phase
  | reading | refreshing | fetching | done
  deriving DecidableEq

/-- A call of `get_key_value`. -/
structure Call where
  request : Request
  phase : Phase

/-- What a call returned, and when. -/
structure Returned where
  id : ℕ
  request : Request
  time : SystemTime
  result : Except Error String

/-- The state all calls share, and the calls, each under its index.  `history`
and `returns` only record: what the server held at which time, and the answers
given so far. -/
structure State where
  clock : SystemTime
  server : SecretStore
  cache : HashMap String SecretValue
  writer : Option ℕ
  calls : List Call
  history : List (SystemTime × SecretStore)
  returns : List Returned

/-- One step: a call begins, looks at the cache, takes the write lock, or asks
the server, which may fail; a caller gives up; time passes; a secret changes. -/
inductive Action
  | call (request : Request)
  | read (id : ℕ)
  | acquire (id : ℕ)
  | fetch (id : ℕ) (failure : Option Error)
  | abandon (id : ℕ)
  | tick (d : Duration)
  | change (ns secretName : String) (secret : Option Secret)

namespace Action

/-- The call that makes a step. -/
def caller : Action → Option ℕ
  | .read id | .acquire id | .fetch id _ | .abandon id => some id
  | .call _ | .tick _ | .change .. => none

end Action

namespace State

/-- The block under the read lock: the answer, or `none` if the call has to go
on. -/
def lookup (s : State) (request : Request) : Option (Except Error String) :=
  match s.cache.get request.hashKey with
  | some secret =>
      if s.clock < secret.expiresAt then (secret.data.get request.key).map request.fromUtf8
      else none
  | none => none

/-- Move a call to another phase. -/
def setPhase (s : State) (id : ℕ) (request : Request) (phase : Phase) : State :=
  { s with calls := s.calls.set id ⟨request, phase⟩ }

/-- A call gives the write lock back if it has it. -/
def unlock (s : State) (id : ℕ) : State :=
  { s with writer := if s.writer = some id then none else s.writer }

/-- A call returns. -/
def finish (s : State) (id : ℕ) (request : Request) (result : Except Error String) : State :=
  { s.setPhase id request .done with returns := s.returns ++ [⟨id, request, s.clock, result⟩] }

/-- Store a whole secret. -/
def store (s : State) (request : Request) (data : SecretData) (expiresAt : SystemTime) : State :=
  { s with cache := s.cache.insert request.hashKey ⟨data, expiresAt⟩ }

/-- What the server answers a call that has the write lock. -/
def query (s : State) (request : Request) : Option Error → Except Error (SecretData × String)
  | some error => .error error
  | none => request.querySecretsApi s.server

/-- The part of `get_key_value` under the write lock. -/
def refresh (timeout : Duration) (s : State) (id : ℕ) (request : Request)
    (failure : Option Error) : State :=
  match s.query request failure with
  | .error error => (s.unlock id).finish id request (.error error)
  | .ok (data, value) =>
      match SystemTime.checkedAdd s.clock timeout with
      | some expiresAt => ((s.store request data expiresAt).unlock id).finish id request (.ok value)
      -- the call panics and its guard is dropped
      | none => (s.unlock id).setPhase id request .done

/-- One step of the cache, its calls and their surroundings. -/
def step (timeout : Duration) (s : State) : Action → Option State
  | .call request => some { s with calls := s.calls ++ [⟨request, .reading⟩] }
  | .read id =>
      match s.calls[id]? with
      | some ⟨request, .reading⟩ =>
          if s.writer = none then
            match s.lookup request with
            | some result => some (s.finish id request result)
            | none => some (s.setPhase id request .refreshing)
          else none
      | _ => none
  | .acquire id =>
      match s.calls[id]? with
      | some ⟨request, .refreshing⟩ =>
          if s.writer = none then
            some { s.setPhase id request .fetching with writer := some id }
          else none
      | _ => none
  | .fetch id failure =>
      match s.calls[id]? with
      | some ⟨request, .fetching⟩ => some (s.refresh timeout id request failure)
      | _ => none
  | .abandon id =>
      match s.calls[id]? with
      | some ⟨request, phase⟩ =>
          if phase = .done then none else some ((s.unlock id).setPhase id request .done)
      | none => none
  | .tick d =>
      some { s with clock := s.clock + d, history := s.history ++ [(s.clock + d, s.server)] }
  | .change ns secretName secret =>
      let server := match secret with
        | some secret => s.server.insert (ns, secretName) secret
        | none => s.server.remove (ns, secretName)
      some { s with server := server, history := s.history ++ [(s.clock, server)] }

/-- An empty cache, as `init_cache` makes it. -/
def start (clock : SystemTime) (server : SecretStore) : State where
  clock := clock
  server := server
  cache := ∅
  writer := none
  calls := []
  history := [(clock, server)]
  returns := []

end State

/-- Everything one step can do, by what it means for the cache: nothing but a
move of a call, an answer, an answer with a new cache entry, or a step of the
surroundings. -/
inductive Transition (timeout : Duration) (s : State) : Action → State → Prop
  | call (request : Request) :
      Transition timeout s (.call request) { s with calls := s.calls ++ [⟨request, .reading⟩] }
  | move (action : Action) (id : ℕ) (request : Request) (phase phase' : Phase)
      (writer : Option ℕ) (hcall : s.calls[id]? = some ⟨request, phase⟩) (hphase : phase ≠ .done) :
      Transition timeout s action { s.setPhase id request phase' with writer := writer }
  | answer (action : Action) (id : ℕ) (request : Request) (phase : Phase)
      (result : Except Error String) (writer : Option ℕ)
      (hcall : s.calls[id]? = some ⟨request, phase⟩) (hphase : phase ≠ .done)
      (hresult : ∀ value, result = .ok value → s.lookup request = some (.ok value)) :
      Transition timeout s action { s.finish id request result with writer := writer }
  | stored (id : ℕ) (request : Request) (data : SecretData) (value : String)
      (writer : Option ℕ) (hcall : s.calls[id]? = some ⟨request, .fetching⟩)
      (hquery : request.querySecretsApi s.server = .ok (data, value)) :
      Transition timeout s (.fetch id none)
        { (s.store request data (s.clock + timeout)).finish id request (.ok value) with
          writer := writer }
  | tick (d : Duration) :
      Transition timeout s (.tick d)
        { s with clock := s.clock + d, history := s.history ++ [(s.clock + d, s.server)] }
  | change (ns secretName : String) (secret : Option Secret) (server : SecretStore) :
      Transition timeout s (.change ns secretName secret)
        { s with server := server, history := s.history ++ [(s.clock, server)] }

theorem Transition.of_refresh {timeout : Duration} {s : State} {id : ℕ} {request : Request}
    (hcall : s.calls[id]? = some ⟨request, .fetching⟩) (failure : Option Error) :
    Transition timeout s (.fetch id failure) (s.refresh timeout id request failure) := by
  have hphase : Phase.fetching ≠ .done := by decide
  rw [State.refresh]
  cases hquery : s.query request failure with
  | error error =>
      apply Transition.answer _ id request .fetching (.error error) _ hcall hphase
      intro value hvalue
      cases hvalue
  | ok result =>
      rcases result with ⟨data, value⟩
      cases failure with
      | some error => cases hquery
      | none =>
          cases hadd : SystemTime.checkedAdd s.clock timeout with
          | none => exact .move _ id request .fetching .done _ hcall hphase
          | some expiresAt =>
              rw [SystemTime.eq_add_of_checkedAdd hadd]
              exact .stored id request data value _ hcall hquery

theorem Transition.of_step {timeout : Duration} {s t : State} {action : Action}
    (h : s.step timeout action = some t) : Transition timeout s action t := by
  cases action with
  | call request =>
      obtain rfl := Option.some.inj h
      exact .call request
  | read id =>
      simp only [State.step] at h
      split at h
      · next request hcall =>
          have hphase : Phase.reading ≠ .done := by decide
          split at h
          · split at h
            · next result hlookup =>
                obtain rfl := Option.some.inj h
                apply Transition.answer _ id request .reading result s.writer hcall hphase
                intro value hvalue
                rw [hlookup, hvalue]
            · obtain rfl := Option.some.inj h
              exact .move _ id request .reading .refreshing s.writer hcall hphase
          · cases h
      · cases h
  | acquire id =>
      simp only [State.step] at h
      split at h
      · next request hcall =>
          split at h
          · obtain rfl := Option.some.inj h
            exact .move _ id request .refreshing .fetching _ hcall (by decide)
          · cases h
      · cases h
  | fetch id failure =>
      simp only [State.step] at h
      split at h
      · next request hcall =>
          obtain rfl := Option.some.inj h
          exact .of_refresh hcall failure
      · cases h
  | abandon id =>
      simp only [State.step] at h
      split at h
      · next request phase hcall =>
          split at h
          · cases h
          · next hphase =>
              obtain rfl := Option.some.inj h
              exact .move _ id request phase .done _ hcall hphase
      · cases h
  | tick d =>
      obtain rfl := Option.some.inj h
      exact .tick d
  | change ns secretName secret =>
      obtain rfl := Option.some.inj h
      exact .change ns secretName secret _

/-! ## Where answers come from -/

/-- The server held a value for exactly the requested secret and key at a time. -/
def State.Held (s : State) (request : Request) (time : SystemTime) (value : String) : Prop :=
  ∃ server data bytes, (time, server) ∈ s.history ∧
    server.get (request.ns, request.secretName) = some ⟨some data⟩ ∧
    data.get request.key = some bytes ∧ String.fromUTF8? bytes.toByteArray = some value

/-- A cache entry is what the server held for the secret of the request when the
entry was stored. -/
def State.Snapshot (timeout : Duration) (s : State) (request : Request) (entry : SecretValue) :
    Prop :=
  ∃ time server, (time, server) ∈ s.history ∧ time ≤ s.clock ∧
    server.get (request.ns, request.secretName) = some ⟨some entry.data⟩ ∧
    entry.expiresAt = time + timeout

/-- Every cache entry is a snapshot of the secret it stands for, every answer was
fresh when it was given, and the history knows the present. -/
structure Truthful (timeout : Duration) (s : State) : Prop where
  present : (s.clock, s.server) ∈ s.history
  entries : ∀ request entry, s.cache.get request.hashKey = some entry →
    s.Snapshot timeout request entry
  answers : ∀ ret ∈ s.returns, ∀ value, ret.result = .ok value →
    ∃ time, s.Held ret.request time value ∧ ret.time - timeout < time ∧ time ≤ ret.time

theorem start_truthful (timeout : Duration) (clock : SystemTime) (server : SecretStore) :
    Truthful timeout (State.start clock server) where
  present := List.mem_singleton.mpr rfl
  entries := by
    intro request entry hget
    simp [State.start] at hget
  answers := by
    intro ret hret
    cases hret

section Keep

variable {timeout : Duration} {s t : State}

theorem State.Held.mono {request : Request} {time : SystemTime} {value : String}
    (h : s.Held request time value) (hle : s.history ⊆ t.history) :
    t.Held request time value := by
  rcases h with ⟨server, data, bytes, hmem, hheld⟩
  exact ⟨server, data, bytes, hle hmem, hheld⟩

theorem State.Snapshot.mono {request : Request} {entry : SecretValue}
    (h : s.Snapshot timeout request entry) (hle : s.history ⊆ t.history)
    (hclock : s.clock ≤ t.clock) : t.Snapshot timeout request entry := by
  rcases h with ⟨time, server, hmem, htime, hheld⟩
  exact ⟨time, server, hle hmem, htime.trans hclock, hheld⟩

/-- Surroundings that only add to the history keep the truth. -/
theorem Truthful.of_history (h : Truthful timeout s) (hcache : t.cache = s.cache)
    (hreturns : t.returns = s.returns) (hle : s.history ⊆ t.history)
    (hclock : s.clock ≤ t.clock) (hpresent : (t.clock, t.server) ∈ t.history) :
    Truthful timeout t where
  present := hpresent
  entries := by
    intro request entry hget
    rw [hcache] at hget
    exact (h.entries request entry hget).mono hle hclock
  answers := by
    intro ret hret value hvalue
    rw [hreturns] at hret
    rcases h.answers ret hret value hvalue with ⟨time, hheld, hfresh⟩
    exact ⟨time, hheld.mono hle, hfresh⟩

/-- An answer from the cache is fresh. -/
theorem Truthful.lookup (h : Truthful timeout s) {request : Request} {value : String}
    (hlookup : s.lookup request = some (.ok value)) :
    ∃ time, s.Held request time value ∧ s.clock - timeout < time ∧ time ≤ s.clock := by
  rw [State.lookup] at hlookup
  split at hlookup
  · next entry hentry =>
      split at hlookup
      · next hexpires =>
          rcases Option.map_eq_some_iff.mp hlookup with ⟨bytes, hbytes, hvalue⟩
          rcases h.entries request entry hentry with ⟨time, server, hmem, htime, hheld, heq⟩
          have hdecoded := Request.fromUtf8_eq_ok.mp hvalue
          have hfresh : s.clock - timeout < time :=
            Int.sub_right_lt_of_lt_add (lt_of_lt_of_eq hexpires heq)
          exact ⟨time, ⟨server, entry.data, bytes, hmem, hheld, hbytes, hdecoded⟩, hfresh, htime⟩
      · cases hlookup
  · cases hlookup

/-- Giving an answer that is fresh keeps the truth. -/
theorem Truthful.finish (h : Truthful timeout s) (id : ℕ) (request : Request)
    (result : Except Error String)
    (hresult : ∀ value, result = .ok value →
      ∃ time, s.Held request time value ∧ s.clock - timeout < time ∧ time ≤ s.clock) :
    Truthful timeout (s.finish id request result) where
  present := h.present
  entries := h.entries
  answers := by
    intro ret hret
    rcases List.mem_append.mp hret with hold | hnew
    · exact h.answers ret hold
    · rw [List.mem_singleton.mp hnew]
      exact hresult

/-- Storing a secret as the server holds it keeps the truth. -/
theorem Truthful.store (h : Truthful timeout s) (request : Request) {data : SecretData}
    (hserver : s.server.get (request.ns, request.secretName) = some ⟨some data⟩) :
    Truthful timeout (s.store request data (s.clock + timeout)) where
  present := h.present
  entries := by
    intro request' entry hget
    rw [State.store, HashMap.get_insert] at hget
    split at hget
    · next hkey =>
        rcases Request.eq_of_hashKey_eq hkey with ⟨hns, hname⟩
        rw [← Option.some.inj hget]
        refine ⟨s.clock, s.server, h.present, le_refl _, ?_, rfl⟩
        rw [hns, hname]
        exact hserver
    · exact h.entries request' entry hget
  answers := h.answers

theorem Truthful.step (hpos : 0 < timeout) {action : Action}
    (hstep : s.step timeout action = some t) (h : Truthful timeout s) : Truthful timeout t := by
  cases Transition.of_step hstep with
  | call request => exact ⟨h.present, h.entries, h.answers⟩
  | move _ id request phase phase' writer hcall hphase => exact ⟨h.present, h.entries, h.answers⟩
  | answer _ id request phase result writer hcall hphase hresult =>
      have hdone := h.finish id request result fun value hvalue => h.lookup (hresult value hvalue)
      exact ⟨hdone.present, hdone.entries, hdone.answers⟩
  | stored id request data value writer hcall hquery =>
      rcases Request.querySecretsApi_eq_ok hquery with ⟨hserver, bytes, hbytes, hvalue⟩
      have hdone := (h.store request hserver).finish id request (.ok value) (by
        rintro value' heq
        rw [← Except.ok.inj heq]
        have hheld : s.Held request s.clock value :=
          ⟨s.server, data, bytes, h.present, hserver, hbytes, hvalue⟩
        have hfresh : s.clock - timeout < s.clock :=
          Int.sub_lt_self s.clock (Int.natCast_pos.mpr hpos)
        exact ⟨s.clock, hheld, hfresh, le_refl _⟩)
      exact ⟨hdone.present, hdone.entries, hdone.answers⟩
  | tick d =>
      refine h.of_history rfl rfl (List.subset_append_left _ _) ?_ ?_
      · exact Int.le_add_of_nonneg_right (Int.natCast_nonneg d)
      · simp
  | change ns secretName secret server =>
      refine h.of_history rfl rfl (List.subset_append_left _ _) (le_refl _) ?_
      simp

end Keep

/-! ## A call answers once -/

/-- A call that has answered is over, and has answered once. -/
structure Settled (s : State) : Prop where
  done : ∀ ret ∈ s.returns, ∃ request, s.calls[ret.id]? = some ⟨request, .done⟩
  once : ∀ ret ∈ s.returns, ∀ ret' ∈ s.returns, ret.id = ret'.id → ret = ret'

section Settled

variable {timeout : Duration} {s t : State} {id : ℕ} {request : Request} {phase : Phase}

theorem Settled.ne_of_mem (h : Settled s) (hcall : s.calls[id]? = some ⟨request, phase⟩)
    (hphase : phase ≠ .done) {ret : Returned} (hret : ret ∈ s.returns) : ret.id ≠ id := by
  rintro rfl
  rcases h.done ret hret with ⟨request', hdone⟩
  rw [hcall] at hdone
  cases hdone
  exact hphase rfl

theorem Settled.done_setPhase (h : Settled s) (hcall : s.calls[id]? = some ⟨request, phase⟩)
    (hphase : phase ≠ .done) (phase' : Phase) {ret : Returned} (hret : ret ∈ s.returns) :
    ∃ request', (s.setPhase id request phase').calls[ret.id]? = some ⟨request', .done⟩ := by
  rcases h.done ret hret with ⟨request', hdone⟩
  have hne := h.ne_of_mem hcall hphase hret
  exact ⟨request', by rw [State.setPhase, List.getElem?_set_ne hne.symm, hdone]⟩

theorem Settled.finish (h : Settled s) (hcall : s.calls[id]? = some ⟨request, phase⟩)
    (hphase : phase ≠ .done) (result : Except Error String) :
    Settled (s.finish id request result) where
  done := by
    intro ret hret
    rcases List.mem_append.mp hret with hold | hnew
    · exact h.done_setPhase hcall hphase .done hold
    · rw [List.mem_singleton.mp hnew]
      have hlt : id < s.calls.length := (List.getElem?_eq_some_iff.mp hcall).1
      exact ⟨request, List.getElem?_set_self hlt⟩
  once := by
    intro ret hret ret' hret' heq
    rcases List.mem_append.mp hret with hold | hnew
    · rcases List.mem_append.mp hret' with hold' | hnew'
      · exact h.once ret hold ret' hold' heq
      · rw [List.mem_singleton.mp hnew'] at heq
        exact absurd heq (h.ne_of_mem hcall hphase hold)
    · rcases List.mem_append.mp hret' with hold' | hnew'
      · rw [List.mem_singleton.mp hnew] at heq
        exact absurd heq.symm (h.ne_of_mem hcall hphase hold')
      · rw [List.mem_singleton.mp hnew, List.mem_singleton.mp hnew']

theorem Settled.step {action : Action} (hstep : s.step timeout action = some t)
    (h : Settled s) : Settled t := by
  cases Transition.of_step hstep with
  | call request =>
      refine ⟨?_, h.once⟩
      intro ret hret
      rcases h.done ret hret with ⟨request', hdone⟩
      have hlt : ret.id < s.calls.length := (List.getElem?_eq_some_iff.mp hdone).1
      exact ⟨request', by rw [List.getElem?_append_left hlt, hdone]⟩
  | move _ id request phase phase' writer hcall hphase =>
      exact ⟨fun ret hret => h.done_setPhase hcall hphase phase' hret, h.once⟩
  | answer _ id request phase result writer hcall hphase hresult =>
      have hdone := h.finish hcall hphase result
      exact ⟨hdone.done, hdone.once⟩
  | stored id request data value writer hcall hquery =>
      have hdone := h.finish hcall (by decide) (.ok value)
      exact ⟨hdone.done, hdone.once⟩
  | tick d => exact ⟨h.done, h.once⟩
  | change ns secretName secret server => exact ⟨h.done, h.once⟩

theorem returns_subset_step {action : Action} (hstep : s.step timeout action = some t) :
    s.returns ⊆ t.returns := by
  cases Transition.of_step hstep with
  | call request => exact List.Subset.refl _
  | move _ id request phase phase' writer hcall hphase => exact List.Subset.refl _
  | answer _ id request phase result writer hcall hphase hresult =>
      exact List.subset_append_left _ _
  | stored id request data value writer hcall hquery => exact List.subset_append_left _ _
  | tick d => exact List.Subset.refl _
  | change ns secretName secret server => exact List.Subset.refl _

theorem returns_subset_run {actions : List Action} (hrun : run (State.step timeout) s actions =
    some t) : s.returns ⊆ t.returns := by
  let kept : State → Prop := fun u => s.returns ⊆ u.returns
  have hstep : ∀ u action v, u.step timeout action = some v → kept u → kept v :=
    fun u action v huv hsub => List.Subset.trans hsub (returns_subset_step huv)
  have hkept : kept t := invariant_of_run hstep hrun (List.Subset.refl _)
  exact hkept

/-- A step that changes the cache answers its call with a value. -/
theorem ok_of_cache_ne {action : Action} (hstep : s.step timeout action = some t)
    (hne : t.cache ≠ s.cache) :
    ∃ ret ∈ t.returns, action.caller = some ret.id ∧ ∃ value, ret.result = .ok value := by
  cases Transition.of_step hstep with
  | call request => exact absurd rfl hne
  | move _ id request phase phase' writer hcall hphase => exact absurd rfl hne
  | answer _ id request phase result writer hcall hphase hresult => exact absurd rfl hne
  | stored id request data value writer hcall hquery =>
      exact ⟨⟨id, request, s.clock, .ok value⟩, by simp [State.finish, State.store], rfl, value,
        rfl⟩
  | tick d => exact absurd rfl hne
  | change ns secretName secret server => exact absurd rfl hne

end Settled

/-- A call that fails never changes the cache. -/
theorem cache_eq_of_error {timeout : Duration} {s t : State} {actions : List Action}
    (hrun : run (State.step timeout) s actions = some t) (hs : Settled s) {ret : Returned}
    (hret : ret ∈ t.returns) {error : Error} (herror : ret.result = .error error) :
    Along (State.step timeout) (fun s action s' => action.caller = some ret.id →
      s'.cache = s.cache) s actions := by
  have ht : Settled t := invariant_of_run (fun _ _ _ => Settled.step) hrun hs
  refine along_of_reach (fun _ _ _ => Settled.step) ?_ hrun hs
  rintro u action v huv hu ⟨later, hlater⟩ hcaller
  by_contra hne
  rcases ok_of_cache_ne huv hne with ⟨ret', hret', hcaller', value, hvalue⟩
  have hid : ret.id = ret'.id := Option.some.inj (hcaller.symm.trans hcaller')
  have hsame := ht.once ret hret ret' (returns_subset_run hlater hret') hid
  rw [hsame, hvalue] at herror
  cases herror

/-- Over all interleavings of calls with changes of the secrets: every value
returned was held by the server for exactly the requested secret and key, at a
time less than the expiration timeout ago; every cache entry belongs to the
secret it is stored under; and a call that fails leaves the cache as it was. -/
theorem answers_fresh_and_isolated (cache : SecretsCache) (clock : SystemTime)
    (server : SecretStore) {actions : List Action} {t : State}
    (hrun : run (State.step cache.expirationTimeout) (State.start clock server) actions = some t) :
    (∀ ret ∈ t.returns, ∀ value, ret.result = .ok value →
      ∃ time, t.Held ret.request time value ∧
        ret.time - cache.expirationTimeout < time ∧ time ≤ ret.time) ∧
    (∀ request entry, t.cache.get request.hashKey = some entry →
      t.Snapshot cache.expirationTimeout request entry) ∧
    ∀ ret ∈ t.returns, ∀ error, ret.result = .error error →
      Along (State.step cache.expirationTimeout)
        (fun s action s' => action.caller = some ret.id → s'.cache = s.cache)
        (State.start clock server) actions := by
  have htruth : Truthful cache.expirationTimeout t := by
    apply invariant_of_run (fun _ _ _ => Truthful.step cache.expires) hrun
    exact start_truthful _ clock server
  have hsettled : Settled (State.start clock server) := by
    apply Settled.mk
    · intro ret hret
      cases hret
    · intro ret hret
      cases hret
  refine ⟨htruth.answers, htruth.entries, ?_⟩
  intro ret hret error herror
  exact cache_eq_of_error hrun hsettled hret herror

/-- A token is read, rotated on the server, read again from the cache, deleted,
and asked for once more when the entry has expired. -/
def tokenRotation : List Action :=
  let request : Request := { ns := "ns", secretName := "hook", key := "token" }
  [.call request, .read 0, .acquire 0, .fetch 0 none,
    .change "ns" "hook" (some ⟨some ((∅ : SecretData).insert "token" "new".toUTF8.toList)⟩),
    .tick 1, .call request, .read 1, .change "ns" "hook" none, .tick 9, .call request, .read 2,
    .acquire 2, .fetch 2 none]

/-- The server at the start of `tokenRotation`. -/
def tokenServer : SecretStore :=
  (∅ : SecretStore).insert ("ns", "hook")
    ⟨some ((∅ : SecretData).insert "token" "old".toUTF8.toList)⟩

theorem answers_fresh_and_isolated_tokenRotation :
    ∃ t, run (State.step 10) (State.start 0 tokenServer) tokenRotation = some t ∧
      t.returns.map Returned.result =
        [.ok "old", .ok "old", .error (.kubeError (some 404))] ∧
      (∀ ret ∈ t.returns, ∀ value, ret.result = .ok value →
        ∃ time, t.Held ret.request time value ∧ ret.time - 10 < time ∧ time ≤ ret.time) := by
  have hreturns : (run (State.step 10) (State.start 0 tokenServer) tokenRotation).map
      (fun t => t.returns.map Returned.result) =
        some [.ok "old", .ok "old", .error (.kubeError (some 404))] := by
    decide +kernel
  rcases Option.map_eq_some_iff.mp hreturns with ⟨t, hrun, hresults⟩
  exact ⟨t, hrun, hresults, (answers_fresh_and_isolated ⟨10, by decide⟩ 0 tokenServer hrun).1⟩

end GitEventsRunner.Secrets
