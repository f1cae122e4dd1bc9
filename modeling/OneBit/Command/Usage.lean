/-
# Commands, their settings, and what can be wrong with them

There are three commands, each for one program file, and a fourth that explains the others.  A
command has SETTINGS, words that start with `-`.  Some settings take a value.

A usage error is reported with the words that are wrong.  These come from outside, so only
their plain part is printed, and the same holds for the reason why a value does not fit.
-/
import OneBit.Command.Coordinates
import OneBit.Text.Plain
import OneBit.Text.Similarity

namespace OneBit.Command

/-! ## 1. Commands and settings -/

/-- The commands for a program file. -/
inductive Verb
  | run
  | assemble
  | check
deriving DecidableEq, Repr

/-- The verb that a word names. -/
def Verb.ofWord? (word : String) : Option Verb :=
  if word = "run" then some run
  else if word = "asm" then some assemble
  else if word = "check" then some check
  else none

/-- The settings. -/
inductive Setting
  | verbose
  | version
  | help
  | step
  | maxTicks
  | set
  | flag
  | pointer
  | json
  | hex
deriving DecidableEq, Repr

namespace Setting

/-- The name after two dashes. -/
def longName : Setting → String
  | verbose => "verbose"
  | version => "version"
  | help => "help"
  | step => "step"
  | maxTicks => "max-ticks"
  | set => "set"
  | flag => "flag"
  | pointer => "pointer"
  | json => "json"
  | hex => "hex"

/-- The letter after one dash. -/
def letter? : Setting → Option Char
  | verbose => some 'v'
  | version => some 'V'
  | help => some 'h'
  | step => some 's'
  | maxTicks => some 'm'
  | _ => none

/-- What the value stands for, if the setting takes one. -/
def valueName? : Setting → Option String
  | maxTicks => some "MAX_TICKS"
  | set => some "X,Y"
  | pointer => some "X,Y"
  | _ => none

/-- May the setting be given more than once? -/
def repeatable : Setting → Bool
  | verbose => true
  | set => true
  | _ => false

/-- The setting as messages show it. -/
def shown (s : Setting) : String :=
  match s.valueName? with
  | some name => "--" ++ s.longName ++ " <" ++ name ++ ">"
  | none => "--" ++ s.longName ++ if s = verbose then "..." else ""

end Setting

/-- What is known at some place of a command line. -/
structure Scope where
  settings : List Setting
  /-- May a program file stand here? -/
  takesFile : Bool

/-- The scope before a command. -/
def commonScope : Scope := ⟨[.verbose, .version, .help], false⟩

/-- The scope behind a command. -/
def Verb.scope : Verb → Scope
  | run => ⟨[.verbose, .help, .step, .maxTicks, .set, .flag, .pointer, .json], true⟩
  | assemble => ⟨[.verbose, .help, .hex], true⟩
  | check => ⟨[.verbose, .help], true⟩

namespace Scope

/-- The setting with a letter. -/
def ofLetter? (scope : Scope) (c : Char) : Option Setting :=
  scope.settings.find? fun s => s.letter? == some c

/-- The setting with a name. -/
def ofName? (scope : Scope) (name : String) : Option Setting :=
  scope.settings.find? fun s => s.longName == name

/-- The setting whose name is most similar to a word, if one is similar enough. -/
def nearest? (scope : Scope) (name : String) : Option Setting :=
  let score (s : Setting) : Rat := Text.similarity name.toList s.longName.toList
  (scope.settings.filter fun s => 7 / 10 ≤ score s).maxOn? score

end Scope

/-! ## 2. Errors -/

/-- Why a value does not fit its setting. -/
inductive ValueError
  | cell (error : CellError)
  | number (error : Text.NumeralError)
deriving DecidableEq, Repr

/-- The wording of a value error. -/
def ValueError.message : ValueError → String
  | cell e => e.message
  | number e => e.message

/-- Advice on a word that is not known. -/
inductive Tip
  /-- A setting with a similar name was meant. -/
  | similar (setting : Setting)
  /-- The word was meant as a file, not as a setting. -/
  | asFile
deriving DecidableEq, Repr

/-- Advice on a word that looks like a setting. -/
def Scope.fileTip? (scope : Scope) : Option Tip := if scope.takesFile then some .asFile else none

/-- Advice on the name of a setting that is not known. -/
def Scope.tip? (scope : Scope) (name : String) : Option Tip :=
  match scope.nearest? name with
  | some s => some (.similar s)
  | none => scope.fileTip?

/-- What can be wrong with the words of a command line. -/
inductive UsageError
  /-- There is nothing to do. -/
  | nothing
  /-- There are settings, but no command. -/
  | noCommand
  | unknownCommand (word : String)
  /-- A setting that is not known here, or a word too many. -/
  | unexpected (word : String) (tip : Option Tip)
  /-- A value for a setting that takes none. -/
  | unexpectedValue (value : String) (setting : Setting)
  | missingValue (setting : Setting)
  | repeated (setting : Setting)
  | badValue (value : String) (setting : Setting) (error : ValueError)
  | noFile
deriving DecidableEq, Repr

/-! ## 3. Reports -/

/-- The plain part of a word in quotes. -/
def quoted (word : String) : String := "'" ++ Text.plain word ++ "'"

/-- The wording of a tip on a word. -/
def Tip.message (word : String) : Tip → String
  | similar s => "a similar argument exists: '--" ++ s.longName ++ "'"
  | asFile => "to pass " ++ quoted word ++ " as a value, use " ++ quoted ("-- " ++ word)

namespace UsageError

/-- What is wrong.  For an empty command line there is nothing to say. -/
def message? : UsageError → Option String
  | nothing => none
  | noCommand => some "'ob1-emu' requires a subcommand but one was not provided"
  | unknownCommand word => some ("unrecognized subcommand " ++ quoted word)
  | unexpected word _ => some ("unexpected argument " ++ quoted word ++ " found")
  | unexpectedValue value s =>
    some ("unexpected value " ++ quoted value ++ " for '" ++ s.shown ++
      "' found; no more were expected")
  | missingValue s =>
    some ("a value is required for '" ++ s.shown ++ "' but none was supplied")
  | repeated s => some ("the argument '" ++ s.shown ++ "' cannot be used multiple times")
  | badValue value s _ => some ("invalid value " ++ quoted value ++ " for '" ++ s.shown ++ "': ")
  | noFile => some "the following required arguments were not provided:"

/-- What a report adds to the message, on further lines. -/
def details : UsageError → String
  | noCommand => "\n  [subcommands: run, asm, check, help]"
  | unexpected word (some tip) => "\n\n  tip: " ++ tip.message word
  | noFile => "\n  <PROGRAM>"
  | _ => ""

/-- Why a value does not fit. -/
def reason : UsageError → String
  | badValue _ _ e => e.message
  | _ => ""

/-- The report on an error.  The reason and the text behind it are made plain together, so a
control sequence that the reason leaves open takes a part of that text with it. -/
def report? (e : UsageError) : Option String :=
  e.message?.map fun message =>
    message ++ e.details ++ Text.plain (e.reason ++ "\n\nFor more information, try '") ++
      "--help'."

end UsageError

end OneBit.Command
