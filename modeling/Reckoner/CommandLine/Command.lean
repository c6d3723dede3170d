import Reckoner.CommandLine.Argument

/-!
# Commands

* `Command` — the commands, with their names and options.
* `Errand` — a command with everything that it has to know.
* `Invocation` — what a command line asks for.
* `Invocation.ofArgs` — what arguments ask for.
-/

namespace Reckoner.CommandLine

/-- What options say. -/
inductive Flag where
  | help | version | verbose | offline | json | stats
  | category (name : String)
  | fiat | crypto
deriving DecidableEq

/-- Whether two flags cannot be given together. -/
def Flag.excludes : Flag → Flag → Bool
  | .fiat, .crypto | .crypto, .fiat => true
  | _, _ => false

/-- The commands. -/
inductive Command where
  | calc | repl | status | units | money | lookup
deriving DecidableEq

/-- The option that asks for help. -/
def helpSwitch : Switch Flag := ⟨["-h", "--help"], .flag .help⟩

/-- The option that keeps a command from asking for rates. -/
def offlineSwitch : Switch Flag := ⟨["--offline"], .flag .offline⟩

/-- The options that stand before the command. -/
def generalSwitches : List (Switch Flag) :=
  [helpSwitch, ⟨["--version", "-V"], .flag .version⟩, ⟨["--verbose", "-v"], .flag .verbose⟩]

namespace Command

/-- All commands, in the order in which they are listed. -/
def all : List Command := [.calc, .repl, .status, .units, .money, .lookup]

/-- The names of a command. -/
def names : Command → List String
  | .calc => ["calc", "eval", "solve"]
  | .repl => ["repl", "shell"]
  | .status => ["status", "ping", "health"]
  | .units => ["units", "list-units"]
  | .money => ["money", "currencies", "assets"]
  | .lookup => ["lookup", "resolve", "whatis"]

/-- The command with a name. -/
def named? (name : String) : Option Command := all.find? (·.names.contains name)

/-- The options of a command. -/
def switches : Command → List (Switch Flag)
  | .calc => [helpSwitch, offlineSwitch, ⟨["--json"], .flag .json⟩]
  | .repl => [helpSwitch, offlineSwitch]
  | .status => [helpSwitch, ⟨["--stats"], .flag .stats⟩]
  | .units => [helpSwitch, ⟨["--category", "-c"], .value .category⟩]
  | .money => [helpSwitch, ⟨["--fiat"], .flag .fiat⟩, ⟨["--crypto"], .flag .crypto⟩]
  | .lookup => [helpSwitch]

/-- Whether a command needs words. -/
def needsWords : Command → Bool
  | .calc | .lookup => true
  | .repl | .status | .units | .money => false

end Command

/-- A command with everything that it has to know. -/
inductive Errand where
  /-- Answers one query. -/
  | calc (query : String) (offline json : Bool)
  /-- Answers queries that are typed one after the other. -/
  | repl (offline : Bool)
  /-- Checks whether the feeds answer. -/
  | status (stats : Bool)
  /-- Lists the units of one dimension, or of all. -/
  | units (category : Option String)
  /-- Lists currencies and crypto assets. -/
  | money (fiat crypto : Bool)
  /-- Lists what a phrase stands for. -/
  | lookup (phrase : String)
deriving DecidableEq

/-- What a command line asks for. -/
inductive Invocation where
  /-- Help on a command, or on all of them. -/
  | help (command : Option Command)
  | version
  /-- The command line cannot be understood. -/
  | refused
  | errand (verbose : Bool) (errand : Errand)
deriving DecidableEq

/-- The category that was given last. -/
def lastCategory? (flags : List Flag) : Option String :=
  flags.reverse.findSome? fun
    | .category name => some name
    | _ => none

/-- The errand of a command. -/
def Command.errand (command : Command) (flags : List Flag) (words : List String) : Errand :=
  let given := flags.contains
  match command with
  | .calc => .calc (" ".intercalate words) (given .offline) (given .json)
  | .repl => .repl (given .offline)
  | .status => .status (given .stats)
  | .units => .units (lastCategory? flags)
  | .money => .money (given .fiat) (given .crypto)
  | .lookup => .lookup (" ".intercalate words)

namespace Invocation

/-- What flags ask for by themselves, if anything: the first one that asks for help or the version
    counts, unless flags before it exclude each other. -/
def ofFlags? (command : Option Command) (before : List Flag) : List Flag → Option Invocation
  | [] => none
  | .help :: _ => some (.help command)
  | .version :: _ => some .version
  | flag :: rest =>
    if before.any flag.excludes then some .refused else ofFlags? command (flag :: before) rest

/-- What arguments behind a command ask for. -/
def ofCommand (command : Command) (verbose hasStrays : Bool) (args : List String) : Invocation :=
  match Argument.ofTexts? command.switches args with
  | none => .refused
  | some arguments =>
    let expected := if command.needsWords then Expected.words else .nothing
    let reading := Reading.ofArguments command.switches expected arguments
    match ofFlags? (some command) [] reading.flags with
    | some invocation => invocation
    | none =>
      if reading.isFaulty || reading.hasStrays || hasStrays ||
          (command.needsWords && reading.words.isEmpty) then .refused
      else .errand verbose (command.errand reading.flags reading.words)

/-- What arguments ask for. -/
def ofArgs (args : List String) : Invocation :=
  match Argument.ofTexts? generalSwitches args with
  | none => .refused
  | some arguments =>
    let reading := Reading.ofArguments generalSwitches .command arguments
    match ofFlags? none [] reading.flags with
    | some invocation => invocation
    | none =>
      if reading.isFaulty then .refused
      else
        match reading.words with
        | [] => if reading.hasStrays then .refused else .help none
        | name :: rest =>
          match Command.named? name with
          | some command =>
            ofCommand command (reading.flags.contains .verbose) reading.hasStrays rest
          | none => .refused

end Invocation

end Reckoner.CommandLine
