/-! Command line arguments.

Options have a long name and perhaps a letter. A value stands behind its option, or is
attached to it, after an equals sign or, for a letter, directly. A separate value does not
look like an option. Letters can be run together. Each option may be given once before
the name of the command, where it is common to all commands, and once behind it. In place
of a command there can be a request for help with one.
-/

set_option autoImplicit false

namespace AppendLog.Command

inductive Subcommand where
  | inspect | verify | dump | version
  deriving DecidableEq, Repr

def Subcommand.all : List Subcommand := [inspect, verify, dump, version]

def Subcommand.name : Subcommand → String
  | inspect => "inspect"
  | verify => "verify"
  | dump => "dump"
  | version => "version"

inductive Operand where
  | none
  | text
  | nonempty
  | number
  deriving DecidableEq, Repr

structure OptionSpec where
  long : String
  letter : Option Char
  operand : Operand
  deriving DecidableEq, Repr

def commonOptions : List OptionSpec :=
  [⟨"path", some 'p', .nonempty⟩, ⟨"verbose", some 'v', .none⟩]

def Subcommand.options : Subcommand → List OptionSpec
  | inspect => [⟨"offsets", some 'o', .none⟩, ⟨"format", some 'f', .text⟩]
  | verify => [⟨"shape", some 's', .text⟩]
  | dump =>
    [⟨"shape", some 's', .text⟩, ⟨"start", none, .number⟩, ⟨"limit", some 'l', .number⟩,
      ⟨"format", some 'f', .text⟩]
  | version => []

inductive Halt where
  | badUsage
  | help
  | programVersion
  deriving DecidableEq, Repr

def numberLimit : Nat := 2 ^ 64

/-- A number of eight bytes, perhaps behind a plus sign. -/
def number? (text : String) : Option Nat :=
  let digits := match text.toList with
    | '+' :: rest => rest
    | chars => chars
  if digits.isEmpty || !digits.all Char.isDigit then none
  else
    let n := digits.foldl (fun n digit => n * 10 + (digit.toNat - '0'.toNat)) 0
    if n < numberLimit then some n else none

def Operand.accepts (operand : Operand) (value : String) : Bool :=
  match operand with
  | none | text => true
  | nonempty => !value.isEmpty
  | number => (number? value).isSome

abbrev Settings := List (String × String)

structure Draft where
  command : Option Subcommand
  before : Settings
  behind : Settings
  /-- An option whose value is still to come. -/
  pending : Option OptionSpec
  /-- Two hyphens have been met, behind which there are no more options. -/
  ended : Bool

namespace Draft

def start : Draft := ⟨none, [], [], none, false⟩

def options (draft : Draft) : List OptionSpec :=
  match draft.command with
  | some command => commonOptions ++ command.options
  | none => commonOptions

def settings (draft : Draft) : Settings :=
  if draft.command.isSome then draft.behind else draft.before

def assign (draft : Draft) (option : OptionSpec) (value : String) : Except Halt Draft :=
  if (draft.settings.lookup option.long).isSome || !option.operand.accepts value then
    .error .badUsage
  else
    let settings := (option.long, value) :: draft.settings
    if draft.command.isSome then .ok { draft with behind := settings, pending := none }
    else .ok { draft with before := settings, pending := none }

def long (draft : Draft) (name : String) (attached : Option String) : Except Halt Draft :=
  match draft.options.find? (·.long = name), attached with
  | none, _ =>
    if name = "help" && attached.isNone then .error .help
    else if name = "version" && attached.isNone && draft.command.isNone then
      .error .programVersion
    else .error .badUsage
  | some option, some value =>
    if option.operand = .none then .error .badUsage else draft.assign option value
  | some option, none =>
    if option.operand = .none then draft.assign option ""
    else .ok { draft with pending := some option }

/-- Letters run together; the first one that takes a value takes what is behind it. -/
def letters (draft : Draft) : List Char → Except Halt Draft
  | [] => .ok draft
  | letter :: rest =>
    match draft.options.find? (·.letter = some letter) with
    | none =>
      if letter = 'h' then .error .help
      else if letter = 'V' && draft.command.isNone then .error .programVersion
      else .error .badUsage
    | some option =>
      if option.operand = .none then
        match draft.assign option "" with
        | .ok draft => draft.letters rest
        | .error halt => .error halt
      else
        match rest with
        | [] => .ok { draft with pending := some option }
        | '=' :: value => draft.assign option (String.ofList value)
        | value => draft.assign option (String.ofList value)

def word (draft : Draft) (name : String) : Except Halt Draft :=
  if draft.command.isSome then .error .badUsage
  else
    match Subcommand.all.find? (·.name = name) with
    | some command => .ok { draft with command := some command }
    | none => .error .badUsage

def next (draft : Draft) (argument : String) : Except Halt Draft :=
  if draft.ended then .error .badUsage
  else
    match draft.pending, argument.toList with
    | some _, '-' :: _ :: _ => .error .badUsage
    | some option, _ => draft.assign option argument
    | none, ['-', '-'] => .ok { draft with ended := true }
    | none, '-' :: '-' :: chars =>
      let name := String.ofList (chars.takeWhile (· != '='))
      match chars.dropWhile (· != '=') with
      | _ :: value => draft.long name (some (String.ofList value))
      | [] => draft.long name none
    | none, '-' :: first :: more => draft.letters (first :: more)
    | none, _ => draft.word argument

def awaitsCommand (draft : Draft) : Bool :=
  draft.command.isNone && draft.pending.isNone && !draft.ended

/-- What comes of asking for help: all behind it is the one topic, if there is any. -/
def helpOn : List String → Halt
  | [] => .help
  | [topic] =>
    if topic == "help" || Subcommand.all.any (·.name == topic) then .help else .badUsage
  | _ => .badUsage

def read (draft : Draft) : List String → Except Halt Draft
  | [] => .ok draft
  | argument :: rest =>
    if argument = "help" && draft.awaitsCommand then .error (helpOn rest)
    else
      match draft.next argument with
      | .ok draft => draft.read rest
      | .error halt => .error halt

end Draft

/-- A command with its options. A value behind the command wins over one before it. -/
structure Request where
  command : Subcommand
  path : Option String
  settings : Settings
  deriving DecidableEq, Repr

def Request.text? (request : Request) (name : String) : Option String :=
  request.settings.lookup name

def Request.number? (request : Request) (name : String) : Option Nat :=
  (request.text? name).bind Command.number?

def Request.isSet (request : Request) (name : String) : Bool := (request.text? name).isSome

def parse (arguments : List String) : Except Halt Request := do
  let draft ← Draft.start.read arguments
  match draft.command, draft.pending with
  | some command, none =>
    let settings := draft.behind ++ draft.before
    return ⟨command, settings.lookup "path", settings⟩
  | _, _ => throw .badUsage

end AppendLog.Command
