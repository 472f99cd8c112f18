import GatewayEnrichment.Main
import GatewayEnrichment.Url
import GatewayEnrichment.Proofs.Store.Calls
import GatewayEnrichment.Proofs.Store.Counts
import GatewayEnrichment.Proofs.Store.History
import GatewayEnrichment.Proofs.Store.Spacing
import GatewayEnrichment.Proofs.Limiter.Acquires
import GatewayEnrichment.Proofs.Limiter.Capacity
import GatewayEnrichment.Proofs.Limiter.Grants
import GatewayEnrichment.Proofs.Cache.Moves
import GatewayEnrichment.Proofs.Cache.Forgetting
import GatewayEnrichment.Proofs.Cache.Refreshing
import GatewayEnrichment.Proofs.Cache.Fetches
import GatewayEnrichment.Proofs.Cache.Permits
import GatewayEnrichment.Proofs.Cache.Accounts
import GatewayEnrichment.Proofs.Cache.Pace
import GatewayEnrichment.Proofs.Cache.Enriching
import GatewayEnrichment.Proofs.Json.Strings
import GatewayEnrichment.Proofs.Json.Spelling
import GatewayEnrichment.Proofs.Json.Literals
import GatewayEnrichment.Proofs.Binary.Range
import GatewayEnrichment.Proofs.Binary.Texts
import GatewayEnrichment.Proofs.Json.Printing
import GatewayEnrichment.Proofs.Json.Rereading
import GatewayEnrichment.Proofs.Json.Tagging
import GatewayEnrichment.Proofs.Json.Pieces
import GatewayEnrichment.Proofs.Json.Items
import GatewayEnrichment.Proofs.Json.Layout
import GatewayEnrichment.Proofs.Json.Arrangement
import GatewayEnrichment.Proofs.Json.Skimming
import GatewayEnrichment.Proofs.Json.Fitting
import GatewayEnrichment.Proofs.Json.Naming
import GatewayEnrichment.Proofs.Json.Choosing
import GatewayEnrichment.Proofs.Json.Carrying
import GatewayEnrichment.Proofs.Message.RoundTrip
import GatewayEnrichment.Proofs.Message.Keeping
import GatewayEnrichment.Proofs.Message.Reading
import GatewayEnrichment.Proofs.Message.Layouts
import GatewayEnrichment.Proofs.Session.Lines
import GatewayEnrichment.Proofs.Session.Accepting
import GatewayEnrichment.Proofs.Session.Encodings
import GatewayEnrichment.Proofs.Session.Turns
import GatewayEnrichment.Proofs.Session.Output
import GatewayEnrichment.Proofs.Session.Skipping
import GatewayEnrichment.Proofs.Settings.Starting
import GatewayEnrichment.Proofs.Settings.Reading
import GatewayEnrichment.Proofs.Message.Filling
import GatewayEnrichment.Proofs.Cache.Backlog
import GatewayEnrichment.Proofs.Url.Addressing
import GatewayEnrichment.Proofs.Message.Narrowing
import GatewayEnrichment.Proofs.Text.Trimming
import GatewayEnrichment.Proofs.Directory.Loading
