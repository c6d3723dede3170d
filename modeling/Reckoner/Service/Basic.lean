import Reckoner.Cache.Counters
import Reckoner.Cache.Run
import Reckoner.Service.Job
import Reckoner.Service.Settings

/-!
# The service

A service answers jobs with the help of two rate caches, one for rate tables and one for crypto
prices.  Jobs wait for their lookups side by side, so that jobs that need one rate share one
request.

* `Service` — the two caches, the jobs that wait, and the requests that were sent.
* `Service.begin`, `Service.cancel`, `Service.clear`, `Service.pass` — a job begins; a job is given
  up; the caches are emptied; time goes by.
* `Service.await`, `Service.askAll`, `Service.ask` — time goes by until jobs are finished.
* `Service.counters` — the counters of both caches.
* `Service.health` — whether both feeds answer.
-/

namespace Reckoner

open Reckoner.Number

/-- A job that waits for its lookups. -/
structure Task where
  plan : Plan
  found : Findings

/-- Whether nothing is left to be looked up. -/
def Task.isComplete (t : Task) : Bool := t.plan.lookups.all t.found.has

/-- Two rate caches, and the jobs that wait for them. -/
structure Service where
  settings : Settings
  fiat : CacheRun Nat RateTable
  crypto : CacheRun Nat Float
  /-- The jobs that wait, with their numbers. -/
  tasks : List (Nat × Task)
  /-- The results of the jobs that are finished, until they are taken. -/
  finished : List (Nat × Result)
  /-- How many jobs have begun. -/
  begun : Nat
  /-- The requests that were sent, in order. -/
  sent : List Request

namespace Service

/-- A service at time zero, whose rates are good for the given spans. -/
def withLifetimes (settings : Settings) (fiat crypto : Span) : Service :=
  let allowance := Span.ofFloat settings.timeout
  ⟨settings, .start fiat allowance, .start crypto allowance, [], [], 0, []⟩

/-- A service at time zero. -/
def start (settings : Settings) : Service :=
  withLifetimes settings (.ofFloat settings.fiatLifetime) (.ofFloat settings.cryptoLifetime)

/-- The time that has gone by. -/
def now (s : Service) : Rat := s.fiat.now

/-! ### Fetches -/

/-- The request for the rates of a currency, and what it would bring now. -/
def ratesFetch (s : Service) (net : Network) (code : String) : Request × Delivery RateTable :=
  match s.settings.fiat with
  | .feed f =>
    let request := f.ratesRequest code
    let answer := net.answer s.sent request
    (request, ⟨answer.delay, ((f.rateTable code answer.reply).toOption).join, answer.winsTie⟩)
  | .fixed _ _ scheme _ tables _ =>
    (⟨scheme ++ ":" ++ code, none, []⟩, ⟨some 0, tables.lookup code, false⟩)

/-- The request for the price of a crypto asset, and what it would bring now. -/
def priceFetch (s : Service) (net : Network) (code : String) : Request × Delivery Float :=
  let feed := s.settings.crypto
  let name := ((Asset.crypto? code).bind fun a => a.kind.quotedAs?).getD ""
  let request := feed.pricesRequest [name]
  let answer := net.answer s.sent request
  (request, ⟨answer.delay, ((feed.price name answer.reply).toOption).join, answer.winsTie⟩)

/-! ### Notices -/

/-- Gives a task what was found in a table lookup. -/
def Task.findTable (t : Task) (code : String) (table : Option RateTable) : Task :=
  { t with found.tables := t.found.tables.put code table }

/-- Gives a task what was found in a price lookup. -/
def Task.findPrice (t : Task) (code : String) (price : Option Float) : Task :=
  { t with found.prices := t.found.prices.put code price }

/-- Changes the task with a number. -/
def updateTask (s : Service) (id : Nat) (f : Task → Task) : Service :=
  { s with tasks := s.tasks.map fun (i, t) => (i, if i = id then f t else t) }

/-- Takes notice of what happened in the cache of rate tables, where `request` is the request of a
    fetch that was sent. -/
def noteTable (request : Request) (s : Service) : Notice Nat RateTable → Service
  | .fetching _ => { s with sent := s.sent ++ [request] }
  | .told id code table => s.updateTask id fun t => Task.findTable t code table

/-- Takes notice of what happened in the cache of prices. -/
def notePrice (request : Request) (s : Service) : Notice Nat Float → Service
  | .fetching _ => { s with sent := s.sent ++ [request] }
  | .told id code price => s.updateTask id fun t => Task.findPrice t code price

/-- No request, for events that send none. -/
def noRequest : Request := ⟨"", none, []⟩

/-- Finishes the tasks for which nothing is left to be looked up. -/
def collect (s : Service) : Service :=
  let done := s.tasks.filter fun (_, t) => t.isComplete
  { s with
    tasks := s.tasks.filter fun (_, t) => !t.isComplete
    finished := s.finished ++ done.map fun (id, t) => (id, t.plan.result t.found) }

/-! ### Events -/

/-- A job looks something up. -/
def look (net : Network) (id : Nat) (s : Service) : Lookup → Service
  | .rates code =>
    let (request, delivery) := s.ratesFetch net code
    let (run, notices) := s.fiat.call id code delivery
    notices.foldl (noteTable request) { s with fiat := run }
  | .price code =>
    let (request, delivery) := s.priceFetch net code
    let (run, notices) := s.crypto.call id code delivery
    notices.foldl (notePrice request) { s with crypto := run }

/-- A job begins: everything that it needs is looked up in order.  Its number is how many jobs have
    begun before it. -/
def begin (s : Service) (net : Network) (job : Job) : Service :=
  let plan := job.plan
  let opened := { s with
    tasks := s.tasks ++ [(s.begun, ⟨plan, ⟨[], []⟩⟩)]
    begun := s.begun + 1 }
  (plan.lookups.foldl (look net s.begun) opened).collect

/-- Time goes by up to a moment. -/
def passTo (s : Service) (moment : Rat) : Service :=
  let (fiat, tables) := s.fiat.passTo moment
  let (crypto, prices) := s.crypto.passTo moment
  let s := tables.foldl (noteTable noRequest) { s with fiat := fiat, crypto := crypto }
  (prices.foldl (notePrice noRequest) s).collect

/-- Time goes by.  It does not go backwards. -/
def pass (s : Service) (seconds : Rat) : Service := s.passTo (after s.now seconds)

/-- Whether a job waits for its lookups. -/
def isPending (s : Service) (id : Nat) : Bool := (s.tasks.lookup id).isSome

/-- A job is given up.  The fetches that it waits for go on. -/
def cancel (s : Service) (id : Nat) : Service :=
  { s with
    fiat := { s.fiat with cache := s.fiat.cache.cancel id }
    crypto := { s.crypto with cache := s.crypto.cache.cancel id }
    tasks := s.tasks.filter (·.1 ≠ id) }

/-- Empties both caches. -/
def clear (s : Service) : Service :=
  { s with
    fiat := { s.fiat with cache := s.fiat.cache.clear }
    crypto := { s.crypto with cache := s.crypto.cache.clear } }

/-- Takes the results of the jobs that are finished. -/
def take (s : Service) : Service × List (Nat × Result) := ({ s with finished := [] }, s.finished)

/-! ### Waiting -/

/-- When a lookup that is under way ends. -/
def due? (s : Service) : Lookup → Option Rat
  | .rates code => s.fiat.due? code
  | .price code => s.crypto.due? code

/-- When the last of some lookups ends, unless one of them never does. -/
def lastDue? (s : Service) : List Lookup → Option Rat
  | [] => some s.now
  | l :: rest => do return later (← s.due? l) (← s.lastDue? rest)

/-- Time goes by until a job is finished.  Nothing happens if it never will be. -/
def await (s : Service) (id : Nat) : Service :=
  match s.tasks.lookup id with
  | none => s
  | some t =>
    match s.lastDue? (t.plan.lookups.filter fun l => !t.found.has l) with
    | some moment => s.passTo moment
    | none => s

/-- Begins jobs side by side, waits for all of them, and takes their results.  A job that is never
    finished has none. -/
def askAll (s : Service) (net : Network) (jobs : List Job) : Service × List (Option Result) :=
  let ids := List.range' s.begun jobs.length
  let s := (jobs.foldl (fun s job => s.begin net job) s).pass 0
  let s := ids.foldl await s
  ({ s with finished := s.finished.filter fun (id, _) => !ids.contains id },
    ids.map fun id => s.finished.lookup id)

/-- Begins a job, waits for it, and takes its result. -/
def ask (s : Service) (net : Network) (job : Job) : Service × Option Result :=
  let (s, results) := s.askAll net [job]
  (s, results.head?.join)

/-! ### Counters -/

/-- The counters of both caches. -/
def counters (s : Service) : Json :=
  .obj [("fx", s.fiat.cache.counters "fx" s.settings.fiatLifetime),
    ("crypto", s.crypto.cache.counters "crypto" s.settings.cryptoLifetime)]

/-! ### Health -/

/-- How a feed is found to be. -/
inductive Health where
  /-- Whether it answers, and its address. -/
  | checked (healthy : Bool) (url : String)
  /-- It could not be checked. -/
  | failed (error : String)
deriving DecidableEq

/-- Checks whether a feed answers. -/
def checkFeed (s : Service) (net : Network) (f : Feed) : Service × Health :=
  let request := f.healthRequest
  let answer := net.answer s.sent request
  let s := { s with sent := s.sent ++ [request] }
  match answer.delay with
  | some seconds => (s.pass seconds, .checked (f.isHealthy answer.reply) f.url)
  | none => (s, .checked false f.url)

/-- Checks whether the source of fiat rates answers. -/
def checkFiat (s : Service) (net : Network) : Service × Health :=
  match s.settings.fiat with
  | .feed f => s.checkFeed net f
  | .fixed _ url _ _ _ health =>
    match health with
    | .ok healthy => (s, .checked healthy url)
    | .error message => (s, .failed message)

/-- Checks both feeds, one after the other. -/
def health (s : Service) (net : Network) : Service × Entries Health :=
  let (s, fiat) := s.checkFiat net
  let (s, crypto) := s.checkFeed net s.settings.crypto
  (s, Entries.ofPairs [(s.settings.fiat.name, fiat), (s.settings.crypto.name, crypto)])

end Service

end Reckoner
