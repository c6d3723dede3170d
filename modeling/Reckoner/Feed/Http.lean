import Reckoner.Json.Basic

/-!
# Requests and replies

* `Request` — a request for a JSON document.
* `Reply` — how a request ends.
* `Network` — how the requests to every route end, in order.
-/

namespace Reckoner

/-- A request for a JSON document. -/
structure Request where
  url : String
  /-- The parameters of the query, if it has any. -/
  params : Option (List (String × String))
  headers : List (String × String)
deriving DecidableEq

namespace Request

/-- The address of a request with its parameters as they are. -/
def address (r : Request) : String :=
  match r.params with
  | none => r.url
  | some params => r.url ++ "?" ++ "&".intercalate (params.map fun (k, v) => k ++ "=" ++ v)

/-- What a request asks for: the last part of the path, and the currency or the names of the assets
    that it asks about. -/
def route (r : Request) : String :=
  let place := ((r.url.splitOn "/").getLast?).getD ""
  match r.params with
  | none | some [] => place
  | some params => place ++ ":" ++ ((params.lookup "from").or (params.lookup "ids")).getD ""

end Request

/-- How a request ends. -/
inductive Reply where
  /-- The other side did not answer in time. -/
  | timedOut
  /-- The other side could not be reached. -/
  | failed (message : String)
  /-- The other side answered, and the body is a JSON value or cannot be decoded. -/
  | response (status : Int) (text : String) (body : Except String Json)

/-- How a request ends, and after how long.  Without a delay it never ends. -/
structure TimedReply where
  delay : Option Rat
  reply : Reply
  /-- Whether it ends in time if it does so at the very moment at which that time is over. -/
  winsTie : Bool

/-- How the requests to every route end, counted from zero. -/
abbrev Network := (route : String) → (nth : Nat) → TimedReply

/-- How a request ends after the requests that were sent before it. -/
def Network.answer (net : Network) (sent : List Request) (r : Request) : TimedReply :=
  net r.route (sent.countP fun s => s.route == r.route)

end Reckoner
