import Reckoner.Feed.Http
import Reckoner.Number.Shortest
import Reckoner.Text.Quoted

/-!
# Feeds

A feed is a source of prices that answers requests with JSON objects.

* `Feed` — a feed for fiat rates or for crypto prices.
* `Feed.request` — a request to a feed.
* `FeedFailure` — why a reply has no data.
* `Feed.dataOf` — the data of a reply.
-/

namespace Reckoner

open Reckoner.Number Reckoner.Text

/-- What a feed has prices of. -/
inductive FeedKind where
  | fiat | crypto
deriving DecidableEq

/-- A source of prices. -/
structure Feed where
  kind : FeedKind
  name : String
  url : String
  /-- How long a request may take, in seconds. -/
  timeout : Quantity
  /-- The key as it is set.  It is sent along if it is a text that is not empty. -/
  apiKey : Json

/-- Why a reply has no data. -/
inductive FeedFailure where
  /-- The status of the reply is that of an error. -/
  | refused (status : Int) (text : String)
  /-- The reply is not an object. -/
  | malformed (status : Int)
  /-- There was no reply in the time that was allowed. -/
  | timedOut (allowed : String)
  /-- There was no reply, or it could not be decoded. -/
  | failed (message : String)
deriving DecidableEq

namespace FeedFailure

/-- How many characters of the text of a reply are reported. -/
def shownText : Nat := 200

/-- The wording of a failure. -/
def message : FeedFailure → String
  | .refused status text =>
    "HTTP " ++ toString status ++ ": " ++ String.ofList (text.toList.take shownText)
  | .malformed _ => "Malformed response"
  | .timedOut allowed => "Timeout after " ++ allowed ++ "s"
  | .failed message => message

/-- The status that is reported.  Where there was none, it is that of a reply without error. -/
def status : FeedFailure → Int
  | .refused status _ | .malformed status => status
  | .timedOut _ | .failed _ => 200

end FeedFailure

/-- A number of seconds as it is written. -/
def secondsText : Quantity → String
  | .whole n => toString n
  | .real x => String.ofList (plainText x)

namespace Feed

/-- The text without the slashes at its end. -/
def dropSlashes (url : String) : String :=
  String.ofList (url.toList.reverse.dropWhile (· == '/')).reverse

/-- The value of a setting: that of a variable if the setting is a reference to one, and nothing if
    there is no such variable. -/
def resolve (env : Entries String) (value : String) : String :=
  match value.toList with
  | '$' :: '\x7b' :: rest =>
    match rest.reverse with
    | '\x7d' :: name => (env.lookup (String.ofList name.reverse)).getD ""
    | _ => value
  | _ => value

/-- A setting, in which a text may be a reference. -/
def resolveSetting (env : Entries String) : Json → Json
  | .str s => .str (resolve env s)
  | value => value

/-- The address of the feed for fiat rates. -/
def fiatUrl : String := "https://api.frankfurter.app"

/-- The address of the feed for crypto prices. -/
def cryptoUrl : String := "https://api.coingecko.com/api/v3"

/-- The usual time that a request may take, in seconds. -/
def usualTimeout : Float := 5

/-- A feed for fiat rates. -/
def fiat (name url : String) (timeout : Quantity) : Feed :=
  ⟨.fiat, name, dropSlashes url, timeout, .null⟩

/-- A feed for crypto prices.  The key may be a reference to a variable. -/
def crypto (env : Entries String) (name url : String) (apiKey : Json) (timeout : Quantity) : Feed :=
  ⟨.crypto, name, dropSlashes url, timeout, resolveSetting env apiKey⟩

/-- The usual name of the feed for fiat rates. -/
def fiatName : String := "frankfurter"

/-- The usual name of the feed for crypto prices. -/
def cryptoName : String := "coingecko"

/-- The headers of a request to a feed. -/
def headers (f : Feed) : List (String × String) :=
  ("Accept", "application/json") ::
    match f.apiKey with
    | .str key => if key = "" then [] else [("x-cg-demo-api-key", key)]
    | _ => []

/-- A request to a feed. -/
def request (f : Feed) (path : String) (params : Option (List (String × String))) : Request :=
  ⟨f.url ++ path, params, f.headers⟩

/-- The data of a reply, which must be an object with a status below 400. -/
def dataOf (f : Feed) : Reply → Except FeedFailure (Int × Members)
  | .timedOut => .error (.timedOut (secondsText f.timeout))
  | .failed message => .error (.failed message)
  | .response status text body =>
    if 400 ≤ status then .error (.refused status text)
    else
      match body with
      | .error message => .error (.failed message)
      | .ok (.obj members) => .ok (status, members)
      | .ok _ => .error (.malformed status)

/-- The request that shows whether a feed answers. -/
def healthRequest (f : Feed) : Request :=
  match f.kind with
  | .fiat => f.request "/currencies" none
  | .crypto => f.request "/ping" none

/-- Whether a reply shows that a feed answers. -/
def isHealthy (f : Feed) (reply : Reply) : Bool := (f.dataOf reply).toBool

/-- How a feed is described. -/
def description (f : Feed) : String :=
  let kind := match f.kind with
    | .fiat => "FrankfurterFeed"
    | .crypto => "CoinGeckoFeed"
  let inQuotes (s : String) := String.ofList (quoted s.toList)
  "<" ++ kind ++ " name=" ++ inQuotes f.name ++ " url=" ++ inQuotes f.url ++ ">"

end Feed

end Reckoner
