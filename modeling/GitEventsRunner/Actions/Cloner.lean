/-
# The command line of the cloner

A Job clones its source in an init container that runs `gitrepo-cloner`.  The
controller writes the command line and the cloner reads it: two programs, with
the names of sources, folders and references in between, all of them free text.

What the cloner reads is what the controller wrote exactly if none of the three
texts starts with a hyphen: the cloner takes such a text for an option.
-/

import GitEventsRunner.Actions.Job
import GitEventsRunner.Lib.CommandLine

namespace GitEventsRunner.Actions

open GitEventsRunner.Lib
open GitEventsRunner.Lib.CommandLine
open GitEventsRunner.Triggers

/-! ## The cloner's side -/

/-- The options of `gitrepo-cloner`. -/
inductive ClonerOption
  | kind | source | branch | tag | commit | destination | preserveGitFolder | debug
  deriving DecidableEq, Repr

/-- The command `gitrepo-cloner`. -/
def clonerCommand : Command ClonerOption where
  options := [.kind, .source, .branch, .tag, .commit, .destination, .preserveGitFolder, .debug]
  decl
    | .kind => { long := "kind", short := some 'k' }
    | .source => { long := "source", short := some 's' }
    | .branch => { long := "branch", short := some 'b' }
    | .tag => { long := "tag", short := some 't' }
    | .commit => { long := "commit", short := some 'c' }
    | .destination => { long := "destination", short := some 'd' }
    | .preserveGitFolder =>
        { long := "preserve-git-folder", short := some 'p', takesValue := false }
    | .debug => { long := "debug", takesValue := false }

/-- The group of the three reference options. -/
structure ReferenceValue where
  branch : Option String
  tag : Option String
  commit : Option String
  deriving DecidableEq, Repr

/-- `Cli` -/
structure Cli where
  sourceKind : TriggerSourceKind
  sourceName : String
  reference : ReferenceValue
  destination : String
  preserveGitFolder : Bool
  debug : Bool
  deriving DecidableEq, Repr

/-- A kind of source from its name. -/
def parseSourceKind (text : String) : Option TriggerSourceKind :=
  if text = "GitRepo" then some .gitRepo
  else if text = "ClusterGitRepo" then some .clusterGitRepo
  else none

/-- The group is required and exclusive: one of the three is given, and only
one. -/
def ReferenceValue.exactlyOne (reference : ReferenceValue) : Bool :=
  [reference.branch, reference.tag, reference.commit].countP Option.isSome = 1

/-- `Cli::parse`: no option is given twice, the required ones are there, and one
reference. -/
def Cli.parse (args : List String) : Option Cli := do
  let given ← clonerCommand.parse args
  guard (given.map Prod.fst).Nodup
  let sourceKind ← (valueOf given .kind).bind parseSourceKind
  let sourceName ← valueOf given .source
  let destination ← valueOf given .destination
  let reference : ReferenceValue :=
    ⟨valueOf given .branch, valueOf given .tag, valueOf given .commit⟩
  guard reference.exactlyOne
  pure
    { sourceKind := sourceKind
      sourceName := sourceName
      reference := reference
      destination := destination
      preserveGitFolder := isGiven given .preserveGitFolder
      debug := isGiven given .debug }

namespace ReferenceValue

/-- `From<&ReferenceValue> for TriggerGitRepoReference`, with `none` for its
panic. -/
def toReference (value : ReferenceValue) : Option TriggerGitRepoReference :=
  match value.branch, value.tag, value.commit with
  | some branch, _, _ => some (.branch branch)
  | none, some tag, _ => some (.tag tag)
  | none, none, some commit => some (.commit commit)
  | none, none, none => none

/-- `From<&ReferenceValue> for String`, with `none` for its panic. -/
def toName (value : ReferenceValue) : Option String :=
  match value.branch, value.tag, value.commit with
  | some branch, _, _ => some branch
  | none, some tag, _ => some tag
  | none, none, some commit => some commit
  | none, none, none => none

end ReferenceValue

/-! ## The round trip -/

section RoundTrip

variable (action : Action) (config : ActionConfig) (sourceKind : TriggerSourceKind)
  (sourceName : String) (sourceRef : TriggerGitRepoReference)

/-- The cloner reads what the controller wrote. -/
def ClonerArgsRoundTrip : Prop :=
  ∃ cli, Cli.parse (action.getGitrepoClonerArgs config sourceKind sourceName sourceRef) =
      some cli ∧
    cli.sourceKind = sourceKind ∧ cli.sourceName = sourceName ∧
    cli.destination = action.workdir config ∧
    cli.reference.toReference = some sourceRef ∧
    cli.reference.toName = some (toRefname sourceRef "--").2 ∧
    cli.preserveGitFolder = action.actionJob.preserveGitFolder ∧
    cli.debug = action.actionJob.enableClonerDebug

/-- The option that carries a reference. -/
def referenceOption : TriggerGitRepoReference → ClonerOption
  | .branch _ => .branch
  | .tag _ => .tag
  | .commit _ => .commit

theorem read_refType : clonerCommand.read (toRefname sourceRef "--").1 =
    .wantsValue [] (referenceOption sourceRef) := by
  have hbranch : clonerCommand.read "--branch" = .wantsValue [] .branch := by decide +kernel
  have htag : clonerCommand.read "--tag" = .wantsValue [] .tag := by decide +kernel
  have hcommit : clonerCommand.read "--commit" = .wantsValue [] .commit := by decide +kernel
  cases sourceRef with
  | branch name => exact hbranch
  | tag name => exact htag
  | commit name => exact hcommit

theorem isValue_sourceKindText : IsValue (sourceKindText sourceKind) := by
  cases sourceKind with
  | gitRepo => decide
  | clusterGitRepo => decide

/-- The flags behind the options with a value. -/
def givenFlags : List (Occurrence ClonerOption) :=
  (if action.actionJob.preserveGitFolder then [(.preserveGitFolder, none)] else []) ++
    (if action.actionJob.enableClonerDebug then [(.debug, none)] else [])

theorem parse_flags :
    clonerCommand.parse
      ((if action.actionJob.preserveGitFolder then ["--preserve-git-folder"] else []) ++
        (if action.actionJob.enableClonerDebug then ["--debug"] else [])) =
      some (givenFlags action) := by
  have hpreserve : clonerCommand.read "--preserve-git-folder" =
      .given [(.preserveGitFolder, none)] := by decide +kernel
  have hdebug : clonerCommand.read "--debug" = .given [(.debug, none)] := by decide +kernel
  rw [givenFlags]
  cases action.actionJob.preserveGitFolder with
  | false =>
      cases action.actionJob.enableClonerDebug with
      | false => rfl
      | true => exact Command.parse_flag hdebug
  | true =>
      cases action.actionJob.enableClonerDebug with
      | false => exact Command.parse_flag hpreserve
      | true =>
          show clonerCommand.parse ["--preserve-git-folder", "--debug"] = _
          rw [Command.parse_flag hpreserve, Command.parse_flag hdebug]
          rfl

/-- None of the free texts on the command line looks like an option. -/
def NoHyphen : Prop :=
  IsValue sourceName ∧ IsValue (action.workdir config) ∧ IsValue (toRefname sourceRef "--").2

/-- The cloner reads all options, or it stops at a text that starts with a
hyphen. -/
theorem parse_getGitrepoClonerArgs :
    (NoHyphen action config sourceName sourceRef →
      clonerCommand.parse (action.getGitrepoClonerArgs config sourceKind sourceName sourceRef) =
        some ([(.kind, some (sourceKindText sourceKind)), (.source, some sourceName),
          (.destination, some (action.workdir config)),
          (referenceOption sourceRef, some (toRefname sourceRef "--").2)] ++ givenFlags action)) ∧
    (¬ NoHyphen action config sourceName sourceRef →
      clonerCommand.parse (action.getGitrepoClonerArgs config sourceKind sourceName sourceRef) =
        none) := by
  have hkind : clonerCommand.read "--kind" = .wantsValue [] .kind := by decide +kernel
  have hsource : clonerCommand.read "--source" = .wantsValue [] .source := by decide +kernel
  have hdest : clonerCommand.read "--destination" = .wantsValue [] .destination := by
    decide +kernel
  have hflags := parse_flags action
  rw [Action.getGitrepoClonerArgs, List.append_assoc]
  simp only [List.cons_append, List.nil_append]
  rw [Command.parse_value hkind (isValue_sourceKindText sourceKind)]
  by_cases hname : IsValue sourceName
  · rw [Command.parse_value hsource hname]
    by_cases hworkdir : IsValue (action.workdir config)
    · rw [Command.parse_value hdest hworkdir]
      by_cases href : IsValue (toRefname sourceRef "--").2
      · rw [Command.parse_value (read_refType sourceRef) href, hflags]
        exact ⟨fun _ => rfl, fun hnot => absurd ⟨hname, hworkdir, href⟩ hnot⟩
      · rw [Command.parse_value_refused (read_refType sourceRef) href]
        exact ⟨fun hall => absurd hall.2.2 href, fun _ => rfl⟩
    · rw [Command.parse_value_refused hdest hworkdir]
      exact ⟨fun hall => absurd hall.2.1 hworkdir, fun _ => rfl⟩
  · rw [Command.parse_value_refused hsource hname]
    exact ⟨fun hall => absurd hall.1 hname, fun _ => rfl⟩

/-- The reference group as the controller fills it. -/
def referenceValue : TriggerGitRepoReference → ReferenceValue
  | .branch name => ⟨some name, none, none⟩
  | .tag name => ⟨none, some name, none⟩
  | .commit name => ⟨none, none, some name⟩

theorem cli_parse_of_noHyphen (h : NoHyphen action config sourceName sourceRef) :
    Cli.parse (action.getGitrepoClonerArgs config sourceKind sourceName sourceRef) =
      some
        { sourceKind := sourceKind
          sourceName := sourceName
          reference := referenceValue sourceRef
          destination := action.workdir config
          preserveGitFolder := action.actionJob.preserveGitFolder
          debug := action.actionJob.enableClonerDebug } := by
  rw [Cli.parse, (parse_getGitrepoClonerArgs action config sourceKind sourceName sourceRef).1 h,
    givenFlags]
  generalize action.actionJob.preserveGitFolder = preserve
  generalize action.actionJob.enableClonerDebug = debug
  cases sourceKind <;> cases sourceRef <;> cases preserve <;> cases debug <;> rfl

end RoundTrip

/-- What the controller writes for the cloner is read back exactly if neither the
name of the source, nor the folder, nor the reference starts with a hyphen. -/
theorem clonerArgsRoundTrip_iff (action : Action) (config : ActionConfig)
    (sourceKind : TriggerSourceKind) (sourceName : String)
    (sourceRef : TriggerGitRepoReference) :
    ClonerArgsRoundTrip action config sourceKind sourceName sourceRef ↔
      NoHyphen action config sourceName sourceRef := by
  apply Iff.intro
  · rintro ⟨cli, hparse, -⟩
    by_contra hnot
    have hnone := (parse_getGitrepoClonerArgs action config sourceKind sourceName sourceRef).2 hnot
    rw [Cli.parse, hnone] at hparse
    cases hparse
  · intro h
    refine ⟨_, cli_parse_of_noHyphen action config sourceKind sourceName sourceRef h,
      rfl, rfl, rfl, ?_, ?_, rfl, rfl⟩
    · cases sourceRef with
      | branch name => rfl
      | tag name => rfl
      | commit name => rfl
    · cases sourceRef with
      | branch name => rfl
      | tag name => rfl
      | commit name => rfl

/-- A branch may be called `-x`, and the cloner takes it for an option. -/
theorem clonerArgs_lost_behind_hyphen :
    Cli.parse (({ name := "build", sourceOverride := .action none } : Action).getGitrepoClonerArgs
        {} .gitRepo "repo" (.branch "-x")) = none ∧
      ¬ ClonerArgsRoundTrip { name := "build", sourceOverride := .action none } {} .gitRepo "repo"
        (.branch "-x") := by
  have hnone : Cli.parse (({ name := "build", sourceOverride := .action none } :
      Action).getGitrepoClonerArgs {} .gitRepo "repo" (.branch "-x")) = none := by
    decide +kernel
  apply And.intro hnone
  rintro ⟨cli, hsome, -⟩
  rw [hnone] at hsome
  cases hsome

end GitEventsRunner.Actions
