import Reckoner.CommandLine.Listing
import Reckoner.CommandLine.Session

/-!
# Running commands

* `Outcome` — what a command shows, with its exit status.
* `Reaction` — what becomes of a command line: an outcome, or a session.
* `react` — what becomes of a command line.
* `Reaction.finish` — the outcome of a command line, given the lines that are typed.
-/

namespace Reckoner.CommandLine

/-- What a command shows, its exit status, and the requests that it sent. -/
structure Outcome where
  status : Nat
  output : String
  sent : List Request

namespace Outcome

/-- A command that has done its work without requests. -/
def success (output : String) : Outcome := ⟨0, output, []⟩

/-- A command that has not found what it was asked for. -/
def failure (output : String) : Outcome := ⟨1, output, []⟩

/-- A command line that cannot be understood. -/
def refusal : Outcome := ⟨2, "", []⟩

end Outcome

/-- What becomes of a command line. -/
inductive Reaction where
  | outcome (outcome : Outcome)
  | session (session : Session)

/-- Shows the answer to a query. -/
def answerOutcome (query : String) (json : Bool) (sent : List Request) : Option Answer → Outcome
  | some a => ⟨0, if json then (answerJson a).write ++ "\n" else answerText a, sent⟩
  | none =>
    ⟨1, if json then Json.null.write ++ "\n" else "  ✗  No result for '" ++ query ++ "'\n", sent⟩

/-- The line on the health of a feed, and whether it is good. -/
def healthLine (name : String) : Service.Health → String × Bool
  | .checked true url => ("  ✓  " ++ padded 12 name ++ " " ++ url, true)
  | .checked false url => ("  ✗  " ++ padded 12 name ++ " " ++ url, false)
  | .failed error => ("  ✗  " ++ padded 12 name ++ " " ++ error, false)

/-- Checks the feeds, and shows the counters if they are wanted. -/
def statusOutcome (s : Service) (net : Network) (stats : Bool) : Outcome :=
  let (s, healths) := s.health net
  let lines := healths.map fun (name, health) => healthLine name health
  ⟨if lines.all (·.2) then 0 else 1,
    ofLines (lines.map (·.1)) ++ (if stats then countersText s else ""), s.sent⟩

/-- What becomes of an errand. -/
def Errand.react (w : Surroundings) (net : Network) : Errand → Except SettingsError Reaction
  | .calc query true json => .ok (.outcome (answerOutcome query json [] (offlineAnswer? query)))
  | .calc query false json => do
    let (s, answer) := answerTo (serviceOf (← Settings.inForce w)) net false query
    return .outcome (answerOutcome query json s.sent answer)
  | .repl offline => do return .session ⟨serviceOf (← Settings.inForce w), offline⟩
  | .status stats => do return .outcome (statusOutcome (serviceOf (← Settings.inForce w)) net stats)
  | .units category =>
    match unitList category with
    | some lines => .ok (.outcome (.success (ofLines lines)))
    | none =>
      .ok (.outcome (.failure ("  ✗  Unknown category '" ++ category.getD "" ++ "'\n")))
  | .money fiat crypto =>
    .ok (.outcome (.success (ofLines (assetList (!crypto) (!fiat)))))
  | .lookup phrase =>
    match meaningList phrase with
    | [] => .ok (.outcome (.failure ("  ✗  '" ++ phrase ++ "' is not a known unit or currency\n")))
    | lines => .ok (.outcome (.success (ofLines lines)))

/-- The help on a command, or on the whole program. -/
def helpText : Option Command → String
  | some command => command.help
  | none => generalHelp

/-- What becomes of a command line.  The configuration says how much is logged, so that it is looked
    at unless everything is. -/
def react (w : Surroundings) (net : Network) (args : List String) : Except SettingsError Reaction :=
  match Invocation.ofArgs args with
  | .help command => .ok (.outcome (.success (helpText command)))
  | .version => .ok (.outcome (.success (versionText ++ "\n")))
  | .refused => .ok (.outcome .refusal)
  | .errand verbose errand =>
    if verbose then errand.react w net
    else do
      Settings.checkLogging (← (w.config none).mapError .unloadable)
      errand.react w net

/-- The outcome of a command line, given what comes from the keyboard. -/
def Reaction.finish (net : Network) (typed : List Keyed) : Reaction → Outcome
  | .outcome o => o
  | .session s =>
    let (shown, sent) := s.transcript net typed
    ⟨0, greeting ++ shown, sent⟩

end Reckoner.CommandLine
