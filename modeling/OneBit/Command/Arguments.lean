/-
# Reading a command line

The words of a command line are read from left to right.  What they have said so far is a
`Draft`.

* A word that starts with `--` names a setting, perhaps with a value behind a `=`.  One that
  starts with `-` names settings by their letters; behind the letter of a setting with a value,
  the rest of the word is the value, with or without a `=` in between.
* A setting with a value but none in its word takes it from the next word, unless that word
  starts with `-` too.  Such a setting is PENDING: its value is looked at when the next setting
  or the program file is met, or the end of the line.
* After the word `--` no word is a setting.  A single `-` is none either.
* Any other word is the command or, behind the command, the program file.

When several things are wrong, the first one met counts.  A word that is not known at all is
met before a pending value.
-/
import OneBit.Command.Usage

namespace OneBit.Command

/-! ## 1. Requests -/

/-- How a program is to be run. -/
structure RunOptions where
  /-- Step by step, with a line for each step. -/
  step : Bool
  /-- The highest number of ticks. -/
  limit : Option Nat
  /-- The cells to set before the run. -/
  set : List Cell
  /-- The flag before the run. -/
  flag : Bool
  /-- The pointer before the run, at home if not given. -/
  pointer : Option Cell
  /-- Print the machine as JSON. -/
  json : Bool
deriving DecidableEq, Repr

/-- What a command line asks for. -/
inductive Request
  | run (path : String) (options : RunOptions)
  | assemble (path : String) (bytes : Bool)
  | check (path : String)
  | version
  | help
deriving DecidableEq, Repr

/-- Why reading stops: a mistake, or a setting that is a request of its own. -/
inductive Stop
  | usage (error : UsageError)
  | request (request : Request)
deriving DecidableEq, Repr

/-! ## 2. Words -/

/-- What a word looks like. -/
inductive Word
  | separator
  | long (name : String) (value : Option String)
  | short (letters : List Char)
  | plain (text : String)
deriving DecidableEq, Repr

/-- The look of a word. -/
def Word.of (word : String) : Word :=
  match word.toList with
  | ['-', '-'] => .separator
  | '-' :: '-' :: rest =>
    match Text.splitAt? '=' rest with
    | some (name, value) => .long (String.ofList name) (some (String.ofList value))
    | none => .long (String.ofList rest) none
  | '-' :: c :: rest => .short (c :: rest)
  | _ => .plain word

/-! ## 3. Drafts -/

/-- What the words have said so far. -/
structure Draft where
  file : Option String
  /-- The settings without a pending value. -/
  given : List Setting
  limit : Option Nat
  set : List Cell
  pointer : Option Cell
  /-- A setting whose value has not been looked at, and its value once it is known. -/
  pending : Option (Setting × Option String)
  /-- No word is a setting any more. -/
  plainOnly : Bool
deriving DecidableEq, Repr

namespace Draft

/-- Nothing has been said. -/
def empty : Draft := ⟨none, [], none, [], none, none, false⟩

/-- A setting without a value. -/
def note (d : Draft) (s : Setting) : Except Stop Draft :=
  match s with
  | .version => .error (.request .version)
  | .help => .error (.request .help)
  | _ =>
    if d.given.contains s && !s.repeatable then .error (.usage (.repeated s))
    else .ok { d with given := s :: d.given }

/-- A setting with its value. -/
def accept (d : Draft) (s : Setting) (value : String) : Except Stop Draft :=
  if d.given.contains s && !s.repeatable then .error (.usage (.repeated s))
  else
    let next := { d with given := s :: d.given }
    match s with
    | .maxTicks =>
      match Text.readBelow UInt64.size value.toList with
      | .ok n => .ok { next with limit := some n }
      | .error e => .error (.usage (.badValue value s (.number e)))
    | .set =>
      match parseCell value with
      | .ok c => .ok { next with set := d.set ++ [c] }
      | .error e => .error (.usage (.badValue value s (.cell e)))
    | .pointer =>
      match parseCell value with
      | .ok c => .ok { next with pointer := some c }
      | .error e => .error (.usage (.badValue value s (.cell e)))
    | _ => .error (.usage (.unexpectedValue value s))

/-- Look at the pending value. -/
def settle (d : Draft) : Except Stop Draft :=
  match d.pending with
  | none => .ok d
  | some (s, none) => .error (.usage (.missingValue s))
  | some (s, some value) => { d with pending := none }.accept s value

/-- A word that is neither a setting nor a value. -/
def readPath (d : Draft) (word : String) : Except Stop Draft :=
  match d.file with
  | some _ => .error (.usage (.unexpected word none))
  | none => do
    let d ← d.settle
    return { d with file := some word }

/-- A setting, with or without a value in its word. -/
def readSetting (d : Draft) (s : Setting) (value : Option String) : Except Stop Draft := do
  match s.valueName?, value with
  | some _, some v => (← d.settle).accept s v
  | some _, none => return { ← d.settle with pending := some (s, none) }
  | none, some v => .error (.usage (.unexpectedValue v s))
  | none, none => (← d.settle).note s

/-- The value that the rest of a word is for the letter before it. -/
def attachedValue? : List Char → Option String
  | [] => none
  | '=' :: rest => some (String.ofList rest)
  | rest => some (String.ofList rest)

/-- The letters of a word behind a single dash. -/
def readLetters (scope : Scope) : List Char → Draft → Except Stop Draft
  | [], d => .ok d
  | c :: rest, d =>
    match scope.ofLetter? c with
    | none => .error (.usage (.unexpected (String.ofList ['-', c]) scope.fileTip?))
    | some s =>
      if s.valueName?.isSome then d.readSetting s (attachedValue? rest)
      else
        match d.readSetting s none with
        | .ok next => readLetters scope rest next
        | .error stop => .error stop

/-- The name of a word behind two dashes. -/
def readLong (scope : Scope) (name : String) (value : Option String) (d : Draft) :
    Except Stop Draft :=
  match scope.ofName? name with
  | none => .error (.usage (.unexpected ("--" ++ name) (scope.tip? name)))
  | some s => d.readSetting s value

/-- One word behind the command. -/
def readWord (scope : Scope) (d : Draft) (word : String) : Except Stop Draft :=
  if d.plainOnly then d.readPath word
  else
    match Word.of word with
    | .separator => .ok { d with plainOnly := true }
    | .long name value => readLong scope name value d
    | .short letters => readLetters scope letters d
    | .plain text =>
      match d.pending with
      | some (s, none) => .ok { d with pending := some (s, some text) }
      | _ => d.readPath text

/-- The request that the words behind a command make. -/
def toRequest (d : Draft) (verb : Verb) : Except Stop Request :=
  match d.file with
  | none => .error (.usage .noFile)
  | some path =>
    match verb with
    | .run =>
      .ok (.run path
        ⟨d.given.contains .step, d.limit, d.set, d.given.contains .flag, d.pointer,
          d.given.contains .json⟩)
    | .assemble => .ok (.assemble path (d.given.contains .hex))
    | .check => .ok (.check path)

end Draft

/-! ## 4. The whole line -/

/-- The words behind a command. -/
def readCommand (verb : Verb) (words : List String) : Except Stop Request := do
  let d ← words.foldlM (Draft.readWord verb.scope) Draft.empty
  let d ← d.settle
  d.toRequest verb

/-- The words behind `help` name at most one command. -/
def readHelp : List String → Except Stop Request
  | [] => .ok .help
  | word :: rest =>
    if word = "help" || (Verb.ofWord? word).isSome then
      match rest with
      | [] => .ok .help
      | surplus :: _ => .error (.usage (.unknownCommand surplus))
    else .error (.usage (.unknownCommand word))

/-- The words of a command line, of which `d` are the settings before the command. -/
def readLine (d : Draft) : List String → Except Stop Request
  | [] => .error (.usage (if d.given.isEmpty then .nothing else .noCommand))
  | word :: rest =>
    if d.plainOnly then
      if word = "help" || (Verb.ofWord? word).isSome then .error (.usage (.unexpected word none))
      else .error (.usage (.unknownCommand word))
    else
      match Verb.ofWord? word with
      | some verb => readCommand verb rest
      | none =>
        if word = "help" then readHelp rest
        else
          match Word.of word with
          | .separator => readLine { d with plainOnly := true } rest
          | .plain text => .error (.usage (.unknownCommand text))
          | .long name value =>
            match Draft.readLong commonScope name value d with
            | .ok next => readLine next rest
            | .error stop => .error stop
          | .short letters =>
            match Draft.readLetters commonScope letters d with
            | .ok next => readLine next rest
            | .error stop => .error stop

/-- What a command line asks for. -/
def parse (words : List String) : Except UsageError Request :=
  match readLine Draft.empty words with
  | .ok request => .ok request
  | .error (.request request) => .ok request
  | .error (.usage e) => .error e

end OneBit.Command
