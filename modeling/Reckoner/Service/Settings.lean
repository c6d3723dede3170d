import Reckoner.Config.Store
import Reckoner.Feed.Prices
import Reckoner.Json.Kind
import Reckoner.Number.Numeral

/-!
# Settings of a service

* `Settings` — where rates come from and how long they are good.
* `Settings.usual` — the settings where nothing is configured.
* `Settings.ofConfig` — the settings in a configuration.
* `Settings.inForce` — the settings in the configuration of the surroundings.
* `SettingsError` — why a configuration has no settings.
-/

namespace Reckoner

open Reckoner.Number Reckoner.Text

/-- Where the rates of fiat currencies come from: a feed, or tables that are given beforehand. -/
inductive FiatSource where
  | feed (feed : Feed)
  | fixed (name url scheme : String) (timeout : Quantity) (tables : Entries RateTable)
      (health : Except String Bool)

namespace FiatSource

/-- The name of a source. -/
def name : FiatSource → String
  | .feed f => f.name
  | .fixed name .. => name

/-- The address of a source. -/
def url : FiatSource → String
  | .feed f => f.url
  | .fixed _ url .. => url

/-- How long a request to a source may take. -/
def timeout : FiatSource → Quantity
  | .feed f => f.timeout
  | .fixed _ _ _ timeout .. => timeout

end FiatSource

/-- Where rates come from and how long they are good. -/
structure Settings where
  fiat : FiatSource
  crypto : Feed
  /-- How long rate tables are good, in seconds. -/
  fiatLifetime : Float
  /-- How long prices are good, in seconds. -/
  cryptoLifetime : Float
  /-- How long a fetch may take, in seconds. -/
  timeout : Float

/-- Why a configuration has no settings. -/
inductive SettingsError where
  /-- A text stands where a number should. -/
  | notANumber (text : String)
  /-- A value that is neither a number nor a text stands where a number should. -/
  | notNumeric (kind : Json.Kind)
  /-- A whole number is too large for a float. -/
  | tooLarge
  /-- No object or no text stands where one should. -/
  | unmet (e : Unmet)
  /-- There is no configuration. -/
  | unloadable (e : Config.LoadError)
deriving DecidableEq

/-- The wording of a settings error. -/
def SettingsError.message : SettingsError → String
  | .unloadable e => e.message
  | .notANumber text => "could not convert string to float: " ++ String.ofList (quoted text.toList)
  | .notNumeric kind =>
    "float() argument must be a string or a real number, not '" ++ kind.name ++ "'"
  | .tooLarge => DisplayError.message .tooLarge
  | .unmet e => e.message

namespace Settings

/-- How long rate tables are good where nothing is configured. -/
def usualFiatLifetime : Float := 1800

/-- How long prices are good where nothing is configured. -/
def usualCryptoLifetime : Float := 60

/-- The settings with the usual feeds. -/
def usual (env : Entries String) (fiatLifetime cryptoLifetime timeout : Float) : Settings :=
  ⟨.feed (.fiat Feed.fiatName Feed.fiatUrl (.real timeout)),
    .crypto env Feed.cryptoName Feed.cryptoUrl (.str "") (.real timeout),
    fiatLifetime, cryptoLifetime, timeout⟩

/-- The number of seconds that a JSON value stands for. -/
def seconds : Json → Except SettingsError Float
  | .int n => if (Float.ofInt n).isInf then .error .tooLarge else .ok (Float.ofInt n)
  | .float x => .ok x
  | .bool b => .ok (if b then 1 else 0)
  | .str s =>
    match readFloat? s.toList with
    | some x => .ok x
    | none => .error (.notANumber s)
  | .null => .error (.notNumeric .null)
  | .arr _ => .error (.notNumeric .arr)
  | .obj _ => .error (.notNumeric .obj)

/-- The number of seconds that a member is, or the usual number where it is missing. -/
def secondsOf (part : Members) (key : String) (usual : Float) : Except SettingsError Float :=
  match part.lookup key with
  | some value => seconds value
  | none => .ok usual

/-- The members of a part of a configuration. -/
def membersOf (part : Json) : Except SettingsError Members :=
  (part.object .member).mapError .unmet

/-- A part of a configuration.  It is empty where it is missing. -/
def part (config : Members) (key : String) : Json := (config.lookup key).getD (.obj [])

/-- The address in a part of a configuration, or the usual one where it is missing. -/
def addressOf (part : Members) (usual : String) : Except SettingsError String :=
  (((part.lookup "url").getD (.str usual)).text .trimming).mapError .unmet

/-- The key in a part of a configuration, which is empty where it is missing.  It must be a text
    unless it is blank. -/
def keyOf (part : Members) : Except SettingsError Json :=
  let key := (part.lookup "api_key").getD (.str "")
  if key.isBlank then .ok key else ((key.text .opening).map .str).mapError .unmet

/-- The settings in a configuration.  What is missing there is as usual. -/
def ofConfig (env : Entries String) (config : Json) : Except SettingsError Settings := do
  let feeds ← membersOf (part (← membersOf config) "feeds")
  let timeout ← secondsOf feeds "timeout" Feed.usualTimeout
  let fx ← membersOf (part feeds "fx")
  let fiatUrl ← addressOf fx Feed.fiatUrl
  let crypto ← membersOf (part feeds "crypto")
  let cryptoUrl ← addressOf crypto Feed.cryptoUrl
  let key ← keyOf crypto
  let fiatLifetime ← secondsOf fx "ttl_seconds" usualFiatLifetime
  let cryptoLifetime ← secondsOf crypto "ttl_seconds" usualCryptoLifetime
  return ⟨.feed (.fiat Feed.fiatName fiatUrl (.real timeout)),
    .crypto env Feed.cryptoName cryptoUrl key (.real timeout),
    fiatLifetime, cryptoLifetime, timeout⟩

/-- How much is logged has to be found in a part of the configuration that is an object. -/
def checkLogging (config : Members) : Except SettingsError Unit := do
  let _ ← membersOf (part config "logging")

/-- The settings in the configuration of the surroundings. -/
def inForce (w : Surroundings) : Except SettingsError Settings :=
  match w.config none with
  | .ok config => ofConfig w.env (.obj config)
  | .error e => .error (.unloadable e)

/-- The settings in a configuration, or in that of the surroundings if it is blank. -/
def ofConfigOr (w : Surroundings) (config : Json) : Except SettingsError Settings :=
  if config.isBlank then inForce w else ofConfig w.env config

end Settings

end Reckoner
