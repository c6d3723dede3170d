import Reckoner.Main
import Reckoner.Proofs.Cache.Operations
import Reckoner.Proofs.Cache.Interleaving
import Reckoner.Proofs.Cache.History
import Reckoner.Proofs.Cache.Provenance
import Reckoner.Proofs.Arithmetic.Chain
import Reckoner.Proofs.Arithmetic.Completeness
import Reckoner.Proofs.Cache.Agenda
import Reckoner.Proofs.Cache.Waiting
import Reckoner.Proofs.Service.Foretold
import Reckoner.Proofs.Service.Notices
import Reckoner.Proofs.Service.Soundness
import Reckoner.Proofs.Service.Awaiting
import Reckoner.Proofs.Service.Asking
import Reckoner.Proofs.Service.Events
import Reckoner.Proofs.Number.Rounded
import Reckoner.Proofs.Cache.Moments
import Reckoner.Proofs.Cache.Ties
import Reckoner.Proofs.Service.Steady
import Reckoner.Proofs.Service.Transparency
import Reckoner.Proofs.Cache.VirtualTime
import Reckoner.Proofs.Arithmetic.Closing
import Reckoner.Proofs.Query.Rendering
import Reckoner.Proofs.Service.Answers
import Reckoner.Proofs.Cache.GivingUp
import Reckoner.Proofs.Feed.Usable
import Reckoner.Proofs.Service.Assets
import Reckoner.Proofs.Service.Keeping
import Reckoner.Proofs.Service.Stock
import Reckoner.Proofs.Alias.Signs
import Reckoner.Proofs.Cache.Yields
import Reckoner.Proofs.Service.Requests
import Reckoner.Proofs.Service.Tracking
import Reckoner.Proofs.Service.Conversions
import Reckoner.Proofs.Service.Stablecoins
import Reckoner.Proofs.Cache.Deadlines
import Reckoner.Proofs.Cache.Tally
import Reckoner.Proofs.Cache.Failures
import Reckoner.Proofs.Cache.Independence
import Reckoner.Proofs.Service.Interpretations
import Reckoner.Proofs.Number.Order
import Reckoner.Proofs.Number.Wholes
import Reckoner.Proofs.Service.Labels
import Reckoner.Proofs.Alias.Openings
import Reckoner.Proofs.Service.WholeAmounts
import Reckoner.Proofs.Text.LetterCase
import Reckoner.Proofs.Number.LetterCase
import Reckoner.Proofs.Query.LetterCase
import Reckoner.Proofs.Service.Alike
import Reckoner.Proofs.Service.LetterCase
import Reckoner.Proofs.Arithmetic.Beginnings
import Reckoner.Proofs.Arithmetic.Faults
import Reckoner.Proofs.Number.Decimals
import Reckoner.Proofs.Number.Finite
import Reckoner.Proofs.Arithmetic.BareNumbers
import Reckoner.Proofs.Number.Words
import Reckoner.Proofs.Number.Errors
import Reckoner.Proofs.Number.Nearest
import Reckoner.Proofs.Number.NearWhole
import Reckoner.Proofs.Number.Scientific
import Reckoner.Proofs.Number.Places
import Reckoner.Proofs.Number.Closeness
import Reckoner.Proofs.Number.Monotone
import Reckoner.Proofs.Text.Preimages
import Reckoner.Proofs.Text.Bytes
import Reckoner.Proofs.Alias.Codes
import Reckoner.Proofs.Alias.Apart
import Reckoner.Proofs.Service.Kinds
import Reckoner.Proofs.Text.Runs
import Reckoner.Proofs.Text.Lowered
import Reckoner.Proofs.Alias.Spelling
import Reckoner.Proofs.Alias.Exponents
import Reckoner.Proofs.Alias.Joining
import Reckoner.Proofs.Alias.Canonical
import Reckoner.Proofs.Number.Overflow
import Reckoner.Proofs.Json.Within
import Reckoner.Proofs.Feed.Readings
import Reckoner.Proofs.Feed.Batches
import Reckoner.Proofs.Feed.Faults
import Reckoner.Proofs.Config.Layers
import Reckoner.Proofs.Config.Keys
import Reckoner.Proofs.Text.Spaces
import Reckoner.Proofs.Alias.AssetKeys
import Reckoner.Proofs.Alias.Registrations
import Reckoner.Proofs.Config.References
import Reckoner.Proofs.Config.Calls
