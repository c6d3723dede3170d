import Reckoner.CommandLine.Help
import Reckoner.Json.Printer
import Reckoner.Service.Basic

/-!
# Interactive sessions

* `answerText` — an answer as it is shown.
* `Session` — a service that answers the lines that are typed.
* `Session.reply` — what is shown on a line.
* `Session.transcript` — what is shown on all lines of an input.
-/

namespace Reckoner.CommandLine

open Reckoner.Text

/-! ### Answers -/

/-- A text with a label between brackets, if there is one. -/
def labelled (text label : String) : String :=
  if label = "" then text else text ++ "  (" ++ label ++ ")"

/-- An answer as it is shown. -/
def answerText (a : Answer) : String :=
  ofLines ["  " ++ labelled a.input a.inputLabel, "  = " ++ labelled a.result a.resultLabel]

/-- An answer as a JSON value. -/
def answerJson (a : Answer) : Json :=
  .obj [("input", .str a.input), ("input_label", .str a.inputLabel), ("result", .str a.result),
    ("result_label", .str a.resultLabel)]

/-- The counters of a service as they are shown. -/
def countersText (s : Service) : String := s.counters.writeIndented ++ "\n"

/-! ### Services -/

/-- How long rates are good within one command: for ever, unless they are not good at all. -/
def lifetimeWithin (lifetime : Float) : Span := if lifetime > 0 then .endless else .seconds 0

/-- The service of one command. -/
def serviceOf (settings : Settings) : Service :=
  .withLifetimes settings (lifetimeWithin settings.fiatLifetime)
    (lifetimeWithin settings.cryptoLifetime)

/-- The answer to a query, which may be answered without rates. -/
def answerTo (s : Service) (net : Network) (offline : Bool) (query : String) :
    Service × Option Answer :=
  if offline then (s, offlineAnswer? query)
  else
    match s.ask net (.answer query) with
    | (s, some (.answer answer)) => (s, answer)
    | (s, _) => (s, none)

/-! ### Sessions -/

/-- A service that answers the lines that are typed. -/
structure Session where
  service : Service
  /-- Whether queries are answered without rates. -/
  offline : Bool

/-- What comes from the keyboard. -/
inductive Keyed where
  | line (text : String)
  /-- The key that interrupts the program. -/
  | interrupt

/-- What is shown at the beginning of a session. -/
def greeting : String := "  " ++ versionText ++ ". Type 'exit' or Ctrl-C to leave.\n\n"

/-- What is shown before every line. -/
def prompt : String := "  calc> "

namespace Session

/-- The words that end a session. -/
def farewells : List String := ["exit", "quit", "q"]

/-- What is shown on a line, and the session after it, unless it is over. -/
def reply (s : Session) (net : Network) (line : String) : String × Option Session :=
  let query := trim line.toList
  let word := String.ofList (lower query)
  if query.isEmpty then ("", some s)
  else if farewells.contains word then ("", none)
  else if word = "stats" then (countersText s.service, some s)
  else if word = "refresh" then
    ("  ✓  Rate caches cleared\n\n", some { s with service := s.service.clear })
  else
    let (service, answer) := answerTo s.service net s.offline (String.ofList query)
    let shown :=
      match answer with
      | some a => answerText a
      | none => "  ✗  No result\n"
    (shown ++ "\n", some { s with service := service })

/-- What is shown on the lines of an input, with a prompt before every line, and the requests that
    were sent in the end. -/
def transcript (s : Session) (net : Network) : List Keyed → String × List Request
  | [] => (prompt, s.service.sent)
  | .interrupt :: _ => (prompt ++ "\n", s.service.sent)
  | .line text :: rest =>
    match s.reply net text with
    | (shown, none) => (prompt ++ shown, s.service.sent)
    | (shown, some s) =>
      let (later, sent) := s.transcript net rest
      (prompt ++ shown ++ later, sent)

end Session

end Reckoner.CommandLine
