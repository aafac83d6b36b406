/-
# Command lines

A command has options, each with a long name, maybe a short one, and with or
without a value.  A command line is read token by token: `--name` and
`--name=value` are long options, `-abc` are short ones, the last of which may
have its value attached.  An option that wants a value and has none attached
takes the next token, unless that token starts with a hyphen.  There are no
positional arguments, so every other token is an error.
-/

import Mathlib.Data.List.Basic

namespace GitEventsRunner.Lib

namespace CommandLine

/-- One option of a command. -/
structure OptionDecl where
  long : String
  short : Option Char := none
  takesValue : Bool := true

/-- A command with options named by `ι`. -/
structure Command (ι : Type) where
  options : List ι
  decl : ι → OptionDecl

/-- An option on a command line, with its value. -/
abbrev Occurrence (ι : Type) := ι × Option String

/-- What one token says. -/
inductive Reading (ι : Type)
  | refused
  | given (occurrences : List (Occurrence ι))
  | wantsValue (before : List (Occurrence ι)) (option : ι)
  deriving DecidableEq

/-- The next token may be taken as a value: it does not start with `-`, which is the
documented rule.  (clap itself makes one exception and takes a lone `-`.) -/
def IsValue (token : String) : Prop := token.toList.head? ≠ some '-'

instance (token : String) : Decidable (IsValue token) := inferInstanceAs (Decidable (_ ≠ _))

namespace Command

variable {ι : Type} (command : Command ι)

/-- Read a long option, with what is attached to it. -/
def readLong (text : List Char) : Reading ι :=
  let name := text.takeWhile fun c => c ≠ '='
  match command.options.find? fun option => (command.decl option).long.toList = name with
  | none => .refused
  | some option =>
      match text.dropWhile (fun c => c ≠ '='), (command.decl option).takesValue with
      | [], true => .wantsValue [] option
      | [], false => .given [(option, none)]
      | _ :: value, true => .given [(option, some (String.ofList value))]
      | _ :: _, false => .refused

/-- Read a cluster of short options behind those already read. -/
def readShorts (before : List (Occurrence ι)) : List Char → Reading ι
  | [] => .given before
  | c :: rest =>
      match command.options.find? fun option => (command.decl option).short = some c with
      | none => .refused
      | some option =>
          if (command.decl option).takesValue then
            match rest with
            | [] => .wantsValue before option
            | '=' :: value => .given (before ++ [(option, some (String.ofList value))])
            | value => .given (before ++ [(option, some (String.ofList value))])
          else readShorts (before ++ [(option, none)]) rest

/-- Read one token. -/
def read (token : String) : Reading ι :=
  match token.toList with
  | '-' :: '-' :: text => command.readLong text
  | '-' :: c :: rest => command.readShorts [] (c :: rest)
  | _ => .refused

/-- The options of a command line in order; `none` if it is not one. -/
def parse : List String → Option (List (Occurrence ι))
  | [] => some []
  | token :: rest =>
      match command.read token with
      | .refused => none
      | .given occurrences => (parse rest).map (occurrences ++ ·)
      | .wantsValue before option =>
          match rest with
          | [] => none
          | value :: rest =>
              if IsValue value then
                (parse rest).map ((before ++ [(option, some value)]) ++ ·)
              else none

variable {command}

theorem parse_value {token value : String} {rest : List String} {option : ι}
    (h : command.read token = .wantsValue [] option) (hvalue : IsValue value) :
    command.parse (token :: value :: rest) =
      (command.parse rest).map ((option, some value) :: ·) := by
  simp only [parse, h, if_pos hvalue]
  rfl

theorem parse_value_refused {token value : String} {rest : List String} {option : ι}
    (h : command.read token = .wantsValue [] option) (hvalue : ¬ IsValue value) :
    command.parse (token :: value :: rest) = none := by
  simp only [parse, h, if_neg hvalue]

theorem parse_flag {token : String} {rest : List String} {option : ι}
    (h : command.read token = .given [(option, none)]) :
    command.parse (token :: rest) = (command.parse rest).map ((option, none) :: ·) := by
  rw [parse, h]
  rfl

end Command

/-- The value of an option. -/
def valueOf {ι : Type} [DecidableEq ι] (occurrences : List (Occurrence ι)) (option : ι) :
    Option String :=
  (occurrences.find? fun occurrence => occurrence.1 = option).bind Prod.snd

/-- The option is on the command line. -/
def isGiven {ι : Type} [DecidableEq ι] (occurrences : List (Occurrence ι)) (option : ι) : Bool :=
  occurrences.any fun occurrence => occurrence.1 = option

end CommandLine

end GitEventsRunner.Lib
