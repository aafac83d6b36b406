/-
# Complete credentials

A fetch that authenticates needs one or two texts of a secret, each under a name of
its own.  The user chooses the keys of the secret they are read from, and the table
the code reads them by is indexed by these keys.

Two texts under one key are therefore one entry of the table, and the name that was
entered first is lost.  That is all that can go wrong: a secret that holds what is
needed gives complete and correct credentials in every order in which the table is
iterated, unless user name and password have the same key.
-/

import GitEventsRunner.Repos.Fetch

namespace GitEventsRunner.Repos

open GitEventsRunner.Lib
open GitEventsRunner.Secrets (SecretData Secret)

/-! ## One pass over the table -/

/-- The text a secret holds under a key. -/
def textOf (data : SecretData) (key : String) : Option String :=
  (data.get key).bind fun bytes => String.fromUTF8? bytes.toByteArray

theorem decodeKey_of_textOf (secretName : String) {data : SecretData}
    (secrets : HashMap String String) {key value : String} (name : String)
    (h : textOf data key = some value) :
    decodeKey secretName data secrets (key, name) = .ok (secrets.insert name value) := by
  obtain ⟨bytes, hbytes, hvalue⟩ := Option.bind_eq_some_iff.mp h
  simp only [decodeKey, hbytes, hvalue, pure_bind]
  rfl

/-- A pass over entries with texts and with different names puts the text of each
entry under its name, and nothing under other names. -/
theorem foldlM_decodeKey (secretName : String) {data : SecretData}
    {order : List (String × String)} (secrets : HashMap String String)
    (htexts : ∀ key name, (key, name) ∈ order → (textOf data key).isSome)
    (hnames : (order.map Prod.snd).Nodup) :
    ∃ result, order.foldlM (decodeKey secretName data) secrets = .ok result ∧
      (∀ key name, (key, name) ∈ order → result.get name = textOf data key) ∧
      ∀ name, name ∉ order.map Prod.snd → result.get name = secrets.get name := by
  induction order generalizing secrets with
  | nil =>
      refine ⟨secrets, rfl, ?_, fun _ _ => rfl⟩
      intro key name hmem
      cases hmem
  | cons entry rest ih =>
      obtain ⟨key, name⟩ := entry
      obtain ⟨value, hvalue⟩ := Option.isSome_iff_exists.mp (htexts key name List.mem_cons_self)
      rw [List.map_cons, List.nodup_cons] at hnames
      obtain ⟨result, hresult, hread, hkept⟩ := ih (secrets.insert name value)
        (fun key' name' hmem => htexts key' name' (List.mem_cons_of_mem _ hmem)) hnames.2
      refine ⟨result, ?_, ?_, ?_⟩
      · rw [List.foldlM_cons, decodeKey_of_textOf secretName secrets name hvalue]
        exact hresult
      · intro key' name' hmem
        rcases List.mem_cons.mp hmem with heq | hrest
        · obtain ⟨rfl, rfl⟩ := Prod.mk.inj heq
          rw [hkept name' hnames.1, HashMap.get_insert_self, hvalue]
        · exact hread key' name' hrest
      · intro name' hne
        rw [List.map_cons, List.mem_cons, not_or] at hne
        rw [hkept name' hne.2, HashMap.get_insert_of_ne _ _ hne.1]

/-! ## What is needed -/

/-- The names the credentials are looked up by, each with the key the user chose for
it. -/
def GitAuthConfig.needed (authConfig : GitAuthConfig) : List (String × String) :=
  match authConfig.authType with
  | .basic => [("username", authConfig.keys.username), ("password", authConfig.keys.password)]
  | .token => [("token", authConfig.keys.token)]
  | .ssh => [("private_key", authConfig.keys.privateKey)]

/-- The user name and the password are not read from one key. -/
def GitAuthConfig.KeysDiffer (authConfig : GitAuthConfig) : Prop :=
  authConfig.authType = .basic → authConfig.keys.username ≠ authConfig.keys.password

/-- A secret that holds everything that is needed. -/
def Holds (data : SecretData) (authConfig : GitAuthConfig) : Prop :=
  ∀ name key, (name, key) ∈ authConfig.needed → (textOf data key).isSome

section Needed

variable {authConfig : GitAuthConfig} {name key key' : String}

theorem eq_of_get_single {onlyKey onlyName : String}
    (h : ((∅ : HashMap String String).insert onlyKey onlyName).get key = some name) :
    (name, key) = (onlyName, onlyKey) := by
  rw [HashMap.get_insert, HashMap.get_empty] at h
  split at h
  · next heq => rw [heq, Option.some.inj h]
  · cases h

/-- The table has only what is needed. -/
theorem mem_needed_of_get (h : (GitRepo.authSecretKeys authConfig).get key = some name) :
    (name, key) ∈ authConfig.needed := by
  rw [GitRepo.authSecretKeys] at h
  rw [GitAuthConfig.needed]
  cases hauth : authConfig.authType with
  | basic =>
      simp only [hauth] at h ⊢
      rw [HashMap.get_insert] at h
      split at h
      · next heq =>
          rw [heq, ← Option.some.inj h]
          exact List.mem_cons_of_mem _ List.mem_cons_self
      · rw [eq_of_get_single h]
        exact List.mem_cons_self
  | token =>
      simp only [hauth] at h ⊢
      exact List.mem_singleton.mpr (eq_of_get_single h)
  | ssh =>
      simp only [hauth] at h ⊢
      exact List.mem_singleton.mpr (eq_of_get_single h)

theorem needed_inj (h : (name, key) ∈ authConfig.needed) (h' : (name, key') ∈ authConfig.needed) :
    key = key' := by
  rw [GitAuthConfig.needed] at h h'
  cases hauth : authConfig.authType with
  | basic => grind
  | token => grind
  | ssh => grind

/-- With different keys it has all of it. -/
theorem get_of_mem_needed (hdiffer : authConfig.KeysDiffer)
    (h : (name, key) ∈ authConfig.needed) :
    (GitRepo.authSecretKeys authConfig).get key = some name := by
  rw [GitRepo.authSecretKeys]
  rw [GitAuthConfig.needed] at h
  cases hauth : authConfig.authType with
  | basic =>
      have hne := hdiffer hauth
      simp only [hauth] at h ⊢
      grind [HashMap.get_insert]
  | token =>
      simp only [hauth] at h ⊢
      grind [HashMap.get_insert]
  | ssh =>
      simp only [hauth] at h ⊢
      grind [HashMap.get_insert]

end Needed

/-! ## Reading the secret -/

/-- A reading of the secret for an authentication, from the reply on. -/
def ReadsAuth (authConfig : GitAuthConfig) (data : SecretData) (ns : String)
    (trace : List (Prog.Event FetchEffect.Reply))
    (result : Except Secrets.Error (HashMap String String)) : Prop :=
  (getSecretStrings .auth authConfig.secretRef.name (GitRepo.authSecretKeys authConfig) ns).Runs
    (⟨.getSecret .auth ns authConfig.secretRef.name, .ok ⟨some data⟩⟩ :: trace) result

/-- Such a reading is one pass over the table in some order. -/
theorem ReadsAuth.order {authConfig : GitAuthConfig} {data : SecretData} {ns : String}
    {trace : List (Prog.Event FetchEffect.Reply)}
    {result : Except Secrets.Error (HashMap String String)}
    (h : ReadsAuth authConfig data ns trace result) :
    ∃ order : HashMapOrder (GitRepo.authSecretKeys authConfig),
      result = order.val.foldlM (decodeKey authConfig.secretRef.name data) ∅ := by
  obtain ⟨reply, rest, htrace, hrest⟩ := Prog.Runs.of_perform_bind h
  obtain ⟨hevent, rfl⟩ := List.cons.inj htrace
  cases hevent
  obtain ⟨order, rest', -, hdone⟩ := Prog.Runs.of_perform_bind hrest
  exact ⟨order, hdone.2.symm⟩

/-- What a reading gives for a secret that holds everything: the texts of the
entries of the table, under their names, and no other names. -/
theorem ReadsAuth.result {authConfig : GitAuthConfig} {data : SecretData} {ns : String}
    {trace : List (Prog.Event FetchEffect.Reply)}
    {result : Except Secrets.Error (HashMap String String)}
    (h : ReadsAuth authConfig data ns trace result) (hholds : Holds data authConfig) :
    ∃ secrets, result = .ok secrets ∧
      (∀ key name, (GitRepo.authSecretKeys authConfig).get key = some name →
        secrets.get name = textOf data key) ∧
      ∀ name, (∀ key, (GitRepo.authSecretKeys authConfig).get key ≠ some name) →
        secrets.get name = none := by
  obtain ⟨⟨order, hkeys, hmem⟩, rfl⟩ := h.order
  have htexts : ∀ key name, (key, name) ∈ order → (textOf data key).isSome := by
    intro key name hentry
    exact hholds name key (mem_needed_of_get ((hmem key name).mp hentry))
  have hnames : (order.map Prod.snd).Nodup := by
    apply List.Nodup.map_on _ hkeys.of_map
    rintro ⟨key, name⟩ hentry ⟨key', name'⟩ hentry' (rfl : name = name')
    have hneeded := mem_needed_of_get ((hmem key name).mp hentry)
    have hneeded' := mem_needed_of_get ((hmem key' name).mp hentry')
    rw [needed_inj hneeded hneeded']
  obtain ⟨secrets, hok, hread, hother⟩ :=
    foldlM_decodeKey authConfig.secretRef.name ∅ htexts hnames
  refine ⟨secrets, hok, ?_, ?_⟩
  · intro key name hget
    exact hread key name ((hmem key name).mpr hget)
  · intro name hnever
    rw [hother name, HashMap.get_empty]
    intro hname
    obtain ⟨⟨key, name⟩, hentry, rfl⟩ := List.mem_map.mp hname
    exact hnever key ((hmem key name).mp hentry)

/-- Every table is iterated in some order, so a reading ends. -/
theorem exists_readsAuth (authConfig : GitAuthConfig) (data : SecretData) (ns : String) :
    ∃ trace result, ReadsAuth authConfig data ns trace result := by
  obtain ⟨order, hkeys, hmem⟩ := (GitRepo.authSecretKeys authConfig).exists_entries
  let iterated : HashMapOrder (GitRepo.authSecretKeys authConfig) := ⟨order, hkeys, hmem⟩
  exact ⟨[⟨.iterHashMap _, iterated⟩], _, _, _, rfl, iterated, [], rfl, rfl, rfl⟩

/-! ## Complete credentials -/

/-- The texts of credentials were found. -/
def Credentials.Found : Credentials → Prop
  | .userpassPlaintext username password => username.isSome ∧ password.isSome
  | .sshKeyFromMemory privateKey => privateKey.isSome

/-- Every name that is needed has the text under the key that was chosen for it, and
no lookup of the credentials panics. -/
structure Complete (authConfig : GitAuthConfig) (data : SecretData)
    (secrets : HashMap String String) : Prop where
  named : ∀ name key, (name, key) ∈ authConfig.needed →
    ∃ value, textOf data key = some value ∧ secrets.get name = some value
  credentials : ∀ repo : GitRepo, repo.authConfig = some authConfig →
    ∀ found, repo.credentials secrets = some found → found.Found
  header : ∀ repo : GitRepo, repo.authConfig = some authConfig →
    authConfig.authType = .token → (repo.customHeader secrets).isSome

theorem complete_of_named {authConfig : GitAuthConfig} {data : SecretData}
    {secrets : HashMap String String}
    (h : ∀ name key, (name, key) ∈ authConfig.needed →
      ∃ value, textOf data key = some value ∧ secrets.get name = some value) :
    Complete authConfig data secrets := by
  have hfound : ∀ name key, (name, key) ∈ authConfig.needed → (secrets.get name).isSome := by
    intro name key hneeded
    obtain ⟨value, -, hvalue⟩ := h name key hneeded
    exact Option.isSome_of_eq_some hvalue
  constructor
  · exact h
  · intro repo hauth found hcred
    rw [GitRepo.credentials, hauth, Option.bind_some] at hcred
    rw [GitAuthConfig.needed] at hfound
    cases htype : authConfig.authType with
    | basic =>
        simp only [htype] at hcred hfound
        obtain rfl := Option.some.inj hcred
        exact ⟨hfound "username" _ List.mem_cons_self,
          hfound "password" _ (List.mem_cons_of_mem _ List.mem_cons_self)⟩
    | token =>
        simp only [htype] at hcred
        cases hcred
    | ssh =>
        simp only [htype] at hcred hfound
        obtain rfl := Option.some.inj hcred
        exact hfound "private_key" _ List.mem_cons_self
  · intro repo hauth htype
    rw [GitAuthConfig.needed, htype] at hfound
    rw [GitRepo.customHeader, hauth, Option.bind_some, htype, Option.isSome_map]
    exact hfound "token" _ List.mem_cons_self

/-- Reading the secret ends, and always with complete credentials. -/
structure CredentialsComplete (authConfig : GitAuthConfig) (data : SecretData) (ns : String) :
    Prop where
  returns : ∃ trace result, ReadsAuth authConfig data ns trace result
  complete : ∀ trace result, ReadsAuth authConfig data ns trace result →
    ∃ secrets, result = .ok secrets ∧ Complete authConfig data secrets

/-- One key for both is one entry, of the password. -/
theorem get_ne_username {authConfig : GitAuthConfig} (h : ¬ authConfig.KeysDiffer) (key : String) :
    (GitRepo.authSecretKeys authConfig).get key ≠ some "username" := by
  rw [GitAuthConfig.KeysDiffer, Classical.not_imp, not_not] at h
  obtain ⟨hauth, hsame⟩ := h
  rw [GitRepo.authSecretKeys, hauth]
  simp only [hsame, HashMap.get_insert, HashMap.get_empty]
  split
  · decide
  · intro hnone
    cases hnone

/-- Then no user name is read. -/
theorem not_credentialsComplete {authConfig : GitAuthConfig} {data : SecretData} {ns : String}
    (hholds : Holds data authConfig) (hsame : ¬ authConfig.KeysDiffer) :
    ¬ CredentialsComplete authConfig data ns := by
  have hbasic : authConfig.authType = .basic := by
    rw [GitAuthConfig.KeysDiffer, Classical.not_imp] at hsame
    exact hsame.1
  have hneeded : ("username", authConfig.keys.username) ∈ authConfig.needed := by
    rw [GitAuthConfig.needed, hbasic]
    exact List.mem_cons_self
  intro h
  obtain ⟨trace, result, hreads⟩ := h.returns
  obtain ⟨secrets, hok, hcomplete⟩ := h.complete trace result hreads
  obtain ⟨secrets', hok', -, hother⟩ := hreads.result hholds
  obtain rfl : secrets = secrets' := Except.ok.inj (hok.symm.trans hok')
  obtain ⟨value, -, hvalue⟩ := hcomplete.named _ _ hneeded
  rw [hother "username" (get_ne_username hsame)] at hvalue
  cases hvalue

/-- The credentials of a secret that holds everything are complete exactly if the
keys of user name and password differ. -/
theorem credentialsComplete_iff_keysDiffer (authConfig : GitAuthConfig) (data : SecretData)
    (ns : String) (hholds : Holds data authConfig) :
    CredentialsComplete authConfig data ns ↔ authConfig.KeysDiffer := by
  constructor
  · intro h
    by_contra hsame
    exact not_credentialsComplete hholds hsame h
  · intro hdiffer
    apply CredentialsComplete.mk (exists_readsAuth authConfig data ns)
    intro trace result hreads
    obtain ⟨secrets, hok, hread, -⟩ := hreads.result hholds
    refine ⟨secrets, hok, complete_of_named ?_⟩
    intro name key hneeded
    obtain ⟨value, hvalue⟩ := Option.isSome_iff_exists.mp (hholds name key hneeded)
    apply Exists.intro value
    apply And.intro hvalue
    rw [hread key name (get_of_mem_needed hdiffer hneeded), hvalue]

/-- Authentication by user name and password, read from the given keys. -/
def basicAuth (username password : String) : GitAuthConfig where
  authType := .basic
  secretRef := { name := "git" }
  keys := { username := username, password := password }

/-- A secret with a user name, a password and both in one. -/
def gitSecret : SecretData :=
  (((∅ : SecretData).insert "u" "user".toUTF8.toList).insert "p" "pass".toUTF8.toList).insert
    "both" "user:pass".toUTF8.toList

theorem holds_gitSecret {username password : String}
    (husername : (textOf gitSecret username).isSome)
    (hpassword : (textOf gitSecret password).isSome) :
    Holds gitSecret (basicAuth username password) := by
  intro name key hneeded
  rcases List.mem_cons.mp hneeded with heq | hrest
  · rw [(Prod.mk.inj heq).2]
    exact husername
  · rw [(Prod.mk.inj (List.mem_singleton.mp hrest)).2]
    exact hpassword

/-- User name and password under keys of their own. -/
theorem credentialsComplete_iff_keysDiffer_twoKeys :
    CredentialsComplete (basicAuth "u" "p") gitSecret "ns" :=
  (credentialsComplete_iff_keysDiffer (basicAuth "u" "p") gitSecret "ns"
    (holds_gitSecret (by decide +kernel) (by decide +kernel))).mpr fun _ => by decide

/-- User name and password under one key, which the secret holds: there is no user
name, and the credentials callback panics. -/
theorem not_credentialsComplete_oneKey :
    Holds gitSecret (basicAuth "both" "both") ∧
      ¬ CredentialsComplete (basicAuth "both" "both") gitSecret "ns" := by
  have hholds : Holds gitSecret (basicAuth "both" "both") :=
    holds_gitSecret (by decide +kernel) (by decide +kernel)
  apply And.intro hholds
  exact not_credentialsComplete hholds fun hdiffer => hdiffer rfl rfl

end GitEventsRunner.Repos
