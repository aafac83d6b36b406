/-
# Fetching a repository

The data model of `resources/git_repo.rs` and `fetch_repo_ref`: which secrets a
fetch reads, and what it then asks of git.  GitRepo and ClusterGitRepo are one
type here that says which of the two it is.

A fetch reads up to two secrets, one to authenticate and one with the certificate
of a custom CA.  Where it reads them is what keeps tenants apart: a GitRepo's
secrets are those of the namespace the fetch is made for, whatever the reference
to the secret says.
-/

import GitEventsRunner.Lib.Program
import GitEventsRunner.Secrets.Cache
import GitEventsRunner.Triggers.Types

namespace GitEventsRunner.Repos

open GitEventsRunner.Lib
open GitEventsRunner.Secrets
open GitEventsRunner.Triggers

/-! ## Repositories -/

/-- Reference to the secret. -/
structure SecretRef where
  name : String
  ns : Option String := none
  deriving DecidableEq, Repr

/-- Repos' type of the authentication. -/
inductive GitAuthType
  | basic | token | ssh
  deriving DecidableEq, Repr

/-- Keys in the secret data section for different auth parameters. -/
structure GitAuthSecretKeys where
  username : String := "username"
  password : String := "password"
  token : String := "token"
  privateKey : String := "ssh-privatekey"
  deriving DecidableEq, Repr

/-- Repo authentication config. -/
structure GitAuthConfig where
  authType : GitAuthType
  secretRef : SecretRef
  keys : GitAuthSecretKeys := {}
  deriving DecidableEq, Repr

/-- Repo custom TLS CA config. -/
structure TlsCaConfig where
  secretRef : SecretRef
  key : String := "ca.crt"
  deriving DecidableEq, Repr

/-- Repo TLS config section. -/
structure TlsConfig where
  noVerifySsl : Bool := false
  caCert : Option TlsCaConfig := none
  deriving DecidableEq, Repr

/-- A GitRepo or ClusterGitRepo. -/
structure GitRepo where
  kind : TriggerSourceKind
  name : String
  repoUri : String
  tlsConfig : Option TlsConfig := none
  authConfig : Option GitAuthConfig := none
  deriving DecidableEq, Repr

/-- Represents type of the URI schema. -/
inductive GitRepoUriSchema
  | http | https | ssh | git
  deriving DecidableEq, Repr

/-- What a fetch needs a secret for. -/
inductive SecretUse
  | auth | caCert
  deriving DecidableEq, Repr

namespace GitRepo

variable (repo : GitRepo)

/-- `GitRepoInternals::is_namespaced` -/
def isNamespaced : Bool :=
  match repo.kind with
  | .gitRepo => true
  | .clusterGitRepo => false

/-- `GitRepoGetter::uri_schema`, with `none` for its panic. -/
def uriSchema : Option GitRepoUriSchema :=
  if repo.repoUri.startsWith "http://" then some .http
  else if repo.repoUri.startsWith "https://" then some .https
  else if repo.repoUri.startsWith "ssh://" then some .ssh
  else if repo.repoUri.startsWith "git@" then some .git
  else none

/-- The secret a repository refers to for a use. -/
def secretRef : SecretUse → Option SecretRef
  | .auth => repo.authConfig.map GitAuthConfig.secretRef
  | .caCert => (repo.tlsConfig.bind TlsConfig.caCert).map TlsCaConfig.secretRef

end GitRepo

/-! ## What a fetch asks for -/

/-- How git is to authenticate.  The texts are looked up when git asks for them;
`none` is the panic of that lookup. -/
inductive Credentials
  | userpassPlaintext (username password : Option String)
  | sshKeyFromMemory (privateKey : Option String)
  deriving DecidableEq, Repr

/-- How the certificate of the server is checked. -/
inductive CertificateCheck
  | certificateOk
  | customCa (pem : Option String)
  | certificatePassthrough
  deriving DecidableEq, Repr

/-- The repository that is set up in a folder and fetched from its origin. -/
structure GitFetch where
  path : String
  originUrl : String
  refName : String
  credentials : Option Credentials
  customHeader : Option String
  certificateCheck : Option CertificateCheck
  depth : ℕ
  deriving DecidableEq, Repr

/-- The order in which the entries of a `HashMap` are iterated: any. -/
abbrev HashMapOrder (entries : HashMap String String) :=
  { order : List (String × String) //
    (order.map Prod.fst).Nodup ∧ ∀ key value, (key, value) ∈ order ↔ entries.get key = some value }

/-- What a fetch asks of its surroundings.  `getSecret` also carries what the
secret is for; it is not part of the request. -/
inductive FetchEffect
  | getSecret (use : SecretUse) (ns name : String)
  | iterHashMap (entries : HashMap String String)
  | gitFetch (fetch : GitFetch)
  | panic (msg : String)

/-- What comes back.  A failed API request has a code if the server answered. -/
def FetchEffect.Reply : FetchEffect → Type
  | .getSecret .. => Except (Option ℕ) Secret
  | .iterHashMap entries => HashMapOrder entries
  | .gitFetch _ => Bool
  | .panic _ => Empty

/-- A program that fetches. -/
abbrev FetchProg (α : Type) := Prog FetchEffect.Reply α

namespace FetchProg

/-- `Api::namespaced(client, ns).get(name)` -/
def getSecret (use : SecretUse) (ns name : String) : FetchProg (Except (Option ℕ) Secret) :=
  Prog.perform (FetchEffect.getSecret use ns name)

def iterHashMap (entries : HashMap String String) : FetchProg (HashMapOrder entries) :=
  Prog.perform (FetchEffect.iterHashMap entries)

/-- Set the repository up and fetch; returns whether that succeeded. -/
def gitFetch (fetch : GitFetch) : FetchProg Bool := Prog.perform (FetchEffect.gitFetch fetch)

/-- The end of a program that panics. -/
def panic {α : Type} (msg : String) : FetchProg α :=
  Prog.call (FetchEffect.panic msg) Empty.elim

end FetchProg

open FetchProg

/-- The errors of a fetch. -/
inductive FetchError
  | secret (err : Secrets.Error)
  | gitrepoAccessError
  deriving DecidableEq

/-! ## Reading secrets -/

/-- One iteration of the loop of `get_secret_strings`. -/
def decodeKey (secretName : String) (data : SecretData) (secrets : HashMap String String)
    (entry : String × String) : Except Secrets.Error (HashMap String String) := do
  let (secretKey, expectedKey) := entry
  let bytes ← match data.get secretKey with
    | some bytes => pure bytes
    | none => throw (.secretDecodingError
        ("no `" ++ secretKey ++ "` key in the secret `" ++ secretName ++ "`"))
  let value ← match String.fromUTF8? bytes.toByteArray with
    | some value => pure value
    | none => throw (.secretDecodingError ("error converting string `" ++ secretKey ++
        "` from UTF8 in the secret `" ++ secretName ++ "`"))
  pure (secrets.insert expectedKey value)

/-- `get_secret_strings` -/
def getSecretStrings (use : SecretUse) (secretName : String) (secretKeys : HashMap String String)
    (ns : String) : FetchProg (Except Secrets.Error (HashMap String String)) := do
  match ← getSecret use ns secretName with
  | .error code => pure (.error (.kubeError code))
  | .ok secret =>
      match secret.data with
      | none => pure (.error (.secretDecodingError
          ("no `data` part in the secret `" ++ secretName ++ "`")))
      | some data => do
          let order ← iterHashMap secretKeys
          pure (order.val.foldlM (decodeKey secretName data) ∅)

namespace GitRepo

variable (repo : GitRepo)

/-- The namespace of a secret the repository refers to. -/
def secretsNamespace (secretRef : SecretRef) (secretsNs : String) : String :=
  if repo.isNamespaced then secretsNs else secretRef.ns.getD secretsNs

/-- The keys that are read to authenticate, with the names they are expected
under. -/
def authSecretKeys (authConfig : GitAuthConfig) : HashMap String String :=
  match authConfig.authType with
  | .basic => ((∅ : HashMap String String).insert authConfig.keys.username "username").insert
      authConfig.keys.password "password"
  | .token => (∅ : HashMap String String).insert authConfig.keys.token "token"
  | .ssh => (∅ : HashMap String String).insert authConfig.keys.privateKey "private_key"

/-- The secrets to authenticate with. -/
def authSecrets (secretsNs : String) :
    FetchProg (Except Secrets.Error (HashMap String String)) :=
  match repo.authConfig with
  | some authConfig =>
      getSecretStrings .auth authConfig.secretRef.name (authSecretKeys authConfig)
        (repo.secretsNamespace authConfig.secretRef secretsNs)
  | none => pure (.ok ∅)

/-- The certificate of a custom CA. -/
def tlsSecrets (secretsNs : String) :
    FetchProg (Except Secrets.Error (HashMap String String)) :=
  match repo.tlsConfig with
  | some tlsConfig =>
      match tlsConfig.caCert with
      | some caCert =>
          getSecretStrings .caCert caCert.secretRef.name
            ((∅ : HashMap String String).insert caCert.key "ca.crt")
            (repo.secretsNamespace caCert.secretRef secretsNs)
      | none => pure (.ok ∅)
  | none => pure (.ok ∅)

/-! ## The fetch -/

/-- The credentials callback. -/
def credentials (authSecrets : HashMap String String) : Option Credentials :=
  repo.authConfig.bind fun authConfig =>
    match authConfig.authType with
    | .basic => some (.userpassPlaintext (authSecrets.get "username") (authSecrets.get "password"))
    | .token => none
    | .ssh => some (.sshKeyFromMemory (authSecrets.get "private_key"))

/-- The header a token is sent in. -/
def customHeader (authSecrets : HashMap String String) : Option String :=
  repo.authConfig.bind fun authConfig =>
    match authConfig.authType with
    | .token => (authSecrets.get "token").map fun token => "Authorization: " ++ token
    | .basic | .ssh => none

/-- The certificate check callback. -/
def certificateCheck (schema : GitRepoUriSchema) (tlsSecrets : HashMap String String) :
    Option CertificateCheck :=
  match schema with
  | .http => none
  | .ssh | .git => some .certificateOk
  | .https => repo.tlsConfig.map fun tlsConfig =>
      if tlsConfig.noVerifySsl then .certificateOk
      else if tlsConfig.caCert.isSome then .customCa (tlsSecrets.get "ca.crt")
      else .certificatePassthrough

/-- How much history is fetched; zero is all of it. -/
def fetchDepth : GitRepoUriSchema → ℕ
  | .http | .https => 1
  | .ssh | .git => 0

/-- `GitRepoGetter::fetch_repo_ref` -/
def fetchRepoRef (refName path secretsNs : String) : FetchProg (Except FetchError Unit) := do
  match ← repo.authSecrets secretsNs with
  | .error err => pure (.error (.secret err))
  | .ok authSecrets =>
      match ← repo.tlsSecrets secretsNs with
      | .error err => pure (.error (.secret err))
      | .ok tlsSecrets =>
          match repo.uriSchema with
          | none => FetchProg.panic "Unknown URI schema"
          | some schema => do
              let fetched ← gitFetch
                { path := path
                  originUrl := repo.repoUri
                  refName := refName
                  credentials := repo.credentials authSecrets
                  customHeader := repo.customHeader authSecrets
                  certificateCheck := repo.certificateCheck schema tlsSecrets
                  depth := fetchDepth schema }
              if fetched then pure (.ok ()) else pure (.error .gitrepoAccessError)

/-! ## Which secrets a fetch reads -/

/-- The effects of a fetch made for a namespace: it reads the secrets its
repository refers to, each in the namespace that is right for it. -/
def MayFetch (secretsNs : String) : FetchEffect → Prop
  | .getSecret use ns name =>
      ∃ ref, repo.secretRef use = some ref ∧ name = ref.name ∧
        ns = repo.secretsNamespace ref secretsNs
  | .iterHashMap _ | .gitFetch _ | .panic _ => True

theorem getSecretStrings_all {secretsNs : String} {use : SecretUse} {ref : SecretRef}
    (href : repo.secretRef use = some ref) (secretKeys : HashMap String String) :
    (getSecretStrings use ref.name secretKeys (repo.secretsNamespace ref secretsNs)).All
      (repo.MayFetch secretsNs) := by
  apply Prog.all_perform_bind ⟨ref, href, rfl, rfl⟩
  intro reply
  cases reply with
  | error code => trivial
  | ok secret =>
      rcases secret with ⟨data⟩
      cases data with
      | none => trivial
      | some data => exact Prog.all_perform_bind trivial fun _ => trivial

theorem authSecrets_all (secretsNs : String) :
    (repo.authSecrets secretsNs).All (repo.MayFetch secretsNs) := by
  rw [authSecrets]
  cases hauth : repo.authConfig with
  | none => trivial
  | some authConfig =>
      apply repo.getSecretStrings_all
      simp only [secretRef, hauth, Option.map_some]

theorem tlsSecrets_all (secretsNs : String) :
    (repo.tlsSecrets secretsNs).All (repo.MayFetch secretsNs) := by
  rw [tlsSecrets]
  cases htls : repo.tlsConfig with
  | none => trivial
  | some tlsConfig =>
      cases hca : tlsConfig.caCert with
      | none =>
          simp only [hca]
          trivial
      | some caCert =>
          simp only [hca]
          apply repo.getSecretStrings_all
          simp only [secretRef, htls, Option.bind_some, hca, Option.map_some]

/-- Every effect of a fetch, for every content of the secrets. -/
theorem fetchRepoRef_all (refName path secretsNs : String) :
    (repo.fetchRepoRef refName path secretsNs).All (repo.MayFetch secretsNs) := by
  apply Prog.all_bind (repo.authSecrets_all secretsNs)
  intro auth
  cases auth with
  | error err => trivial
  | ok authSecrets =>
      apply Prog.all_bind (repo.tlsSecrets_all secretsNs)
      intro tls
      cases tls with
      | error err => trivial
      | ok tlsSecrets =>
          cases repo.uriSchema with
          | none => exact ⟨trivial, fun impossible => impossible.elim⟩
          | some schema =>
              apply Prog.all_perform_bind trivial
              intro fetched
              cases fetched with
              | false => trivial
              | true => trivial

end GitRepo

end GitEventsRunner.Repos
