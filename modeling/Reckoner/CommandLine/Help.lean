import Reckoner.CommandLine.Command

/-!
# Help texts

* `generalHelp` — the help on the whole program.
* `Command.help` — the help on a command.
* `versionText` — the name and version of the program.
-/

namespace Reckoner.CommandLine

/-- The name of the program. -/
def programName : String := "quickcalc"

/-- The name and version of the program. -/
def versionText : String := programName ++ " 0.3.0"

/-- Lines of text, each with a line break behind it. -/
def ofLines (lines : List String) : String := String.join (lines.map (· ++ "\n"))

/-- The help on the whole program. -/
def generalHelp : String :=
  ofLines
    ["usage: quickcalc [-h] [--version] [--verbose] <command> ...",
     "",
     "quickcalc — units, arithmetic and currencies from one query.",
     "",
     "positional arguments:",
     "  <command>",
     "    calc (eval, solve)  Evaluate one query",
     "    repl (shell)        Interactive prompt",
     "    status (ping, health)",
     "                        Check the live price feeds",
     "    units (list-units)  List unit categories and aliases",
     "    money (currencies, assets)",
     "                        List currencies and crypto assets",
     "    lookup (resolve, whatis)",
     "                        Show what a phrase resolves to",
     "",
     "options:",
     "  -h, --help            show this help message and exit",
     "  --version, -V         show program's version number and exit",
     "  --verbose, -v         Debug logging",
     "",
     "Run 'quickcalc <command> --help' for command-specific options."]

/-- The line on the option that asks for help. -/
def helpLine : String := "  -h, --help  show this help message and exit"

/-- The line on the option that keeps a command from asking for rates. -/
def offlineLine : String := "  --offline   Skip live currency / crypto rates"

/-- The help on a command. -/
def Command.help : Command → String
  | .calc =>
    ofLines
      ["usage: quickcalc calc [-h] [--offline] [--json] query [query ...]",
       "",
       "positional arguments:",
       "  query       Query, e.g. 5 km to miles",
       "",
       "options:",
       helpLine,
       offlineLine,
       "  --json      Print the result as JSON"]
  | .repl =>
    ofLines ["usage: quickcalc repl [-h] [--offline]", "", "options:", helpLine, offlineLine]
  | .status =>
    ofLines
      ["usage: quickcalc status [-h] [--stats]",
       "",
       "options:",
       helpLine,
       "  --stats     Also print rate cache counters"]
  | .units =>
    ofLines
      ["usage: quickcalc units [-h] [--category CATEGORY]",
       "",
       "options:",
       "  -h, --help            show this help message and exit",
       "  --category CATEGORY, -c CATEGORY",
       "                        Only this category (e.g. Length)"]
  | .money =>
    ofLines
      ["usage: quickcalc money [-h] [--fiat | --crypto]",
       "",
       "options:",
       helpLine,
       "  --fiat      Fiat currencies only",
       "  --crypto    Crypto assets only"]
  | .lookup =>
    ofLines
      ["usage: quickcalc lookup [-h] phrase [phrase ...]",
       "",
       "positional arguments:",
       "  phrase      Unit or currency phrase",
       "",
       "options:",
       helpLine]

end Reckoner.CommandLine
