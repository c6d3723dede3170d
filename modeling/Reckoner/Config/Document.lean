import Reckoner.Feed.Basic

/-!
# Configuration documents

* `Config.defaults` — the configuration that every other one is laid over.
* `Config.bundled` — the document that comes with the program.
* `Config.normalPath` — a path without the parts that lead nowhere.
-/

namespace Reckoner.Config

open Reckoner.Number Reckoner.Text

/-- A configuration with this reference or key for the crypto feed. -/
def withKey (apiKey : String) : Members :=
  [("feeds", .obj
      [("timeout", .int 5),
       ("fx", .obj [("url", .str Feed.fiatUrl), ("ttl_seconds", .int 1800)]),
       ("crypto", .obj
          [("url", .str Feed.cryptoUrl), ("api_key", .str apiKey), ("ttl_seconds", .int 60)])]),
   ("logging", .obj [("level", .str "WARNING")])]

/-- The configuration that every other one is laid over. -/
def defaults : Members := withKey ""

/-- The document that comes with the program.  It takes the key for the crypto feed
    from a variable. -/
def bundled : Json := .obj (withKey "$\x7bCOINGECKO_API_KEY\x7d")

/-- The path of the document that comes with the program. -/
def bundledPath : String := "/config.yaml"

/-- A path without the parts that lead nowhere: empty parts and single dots. -/
def normalPath (path : String) : String :=
  let parts := (path.splitOn "/").filter fun part => part ≠ "" ∧ part ≠ "."
  let root :=
    match path.toList with
    | '/' :: '/' :: '/' :: _ => "/"
    | '/' :: '/' :: _ => "//"
    | '/' :: _ => "/"
    | _ => ""
  if parts.isEmpty ∧ root = "" then "." else root ++ "/".intercalate parts

end Reckoner.Config
