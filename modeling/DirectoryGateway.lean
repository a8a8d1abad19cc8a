import DirectoryGateway.Gateway.History
import DirectoryGateway.Main
import DirectoryGateway.Provider.Script
import DirectoryGateway.Remote.Service
import DirectoryGateway.Startup.Program
import DirectoryGateway.Sample.Trial
import DirectoryGateway.Proofs.Listing.Outcomes
import DirectoryGateway.Proofs.Listing.Turn
import DirectoryGateway.Proofs.Listing.Heard
import DirectoryGateway.Proofs.Listing.Completion
import DirectoryGateway.Proofs.Listing.Cancellation
import DirectoryGateway.Proofs.Listing.Throttling
import DirectoryGateway.Proofs.Listing.Requests
import DirectoryGateway.Proofs.Gateway.Routing
import DirectoryGateway.Proofs.Gateway.Serving
import DirectoryGateway.Proofs.Gateway.Unauthenticated
import DirectoryGateway.Proofs.Gateway.Rejections
import DirectoryGateway.Proofs.Listing.Budget
import DirectoryGateway.Proofs.Gateway.Membership
import DirectoryGateway.Proofs.Json.Marks
import DirectoryGateway.Proofs.Json.Attempts
import DirectoryGateway.Proofs.Json.Strings
import DirectoryGateway.Proofs.Token.Registered
import DirectoryGateway.Proofs.Crypto.Signature
import DirectoryGateway.Proofs.Json.Slots
import DirectoryGateway.Proofs.Token.Soundness
import DirectoryGateway.Proofs.Token.Window
import DirectoryGateway.Proofs.Encoding.Base64
import DirectoryGateway.Proofs.Der.Lengths
import DirectoryGateway.Proofs.Der.Strict
import DirectoryGateway.Proofs.Der.PublicKey
import DirectoryGateway.Proofs.Der.Items
import DirectoryGateway.Proofs.Encoding.Pem
import DirectoryGateway.Proofs.KeySet.Resolving
import DirectoryGateway.Proofs.KeySet.Loading
import DirectoryGateway.Proofs.Der.Distinct
import DirectoryGateway.Proofs.KeySet.Moduli
import DirectoryGateway.Proofs.Gateway.Refusals
import DirectoryGateway.Proofs.Provider.Redaction
import DirectoryGateway.Proofs.Listing.Redaction
import DirectoryGateway.Proofs.Gateway.Discretion
import DirectoryGateway.Proofs.Listing.Queues
import DirectoryGateway.Proofs.Listing.Counters
import DirectoryGateway.Proofs.Gateway.Listings
import DirectoryGateway.Proofs.Settings.Acceptance
import DirectoryGateway.Proofs.Settings.Schedules
import DirectoryGateway.Proofs.Listing.Deadline
import DirectoryGateway.Proofs.Listing.Kinds
import DirectoryGateway.Proofs.Telemetry.Counting
import DirectoryGateway.Proofs.Telemetry.Durations
import DirectoryGateway.Proofs.Gateway.Asking
import DirectoryGateway.Proofs.Gateway.TimeLimit
import DirectoryGateway.Listing.Crowd
import DirectoryGateway.Proofs.Listing.Crowd
import DirectoryGateway.Gateway.Floor
import DirectoryGateway.Proofs.Gateway.Unlisted
import DirectoryGateway.Proofs.Gateway.Floor
import DirectoryGateway.Proofs.Gateway.Shutdown
import DirectoryGateway.Proofs.Gateway.Alone
import DirectoryGateway.Proofs.Telemetry.Samples
import DirectoryGateway.Proofs.Telemetry.Histograms
import DirectoryGateway.Proofs.Gateway.Exchanges
import DirectoryGateway.Proofs.Gateway.Accounts
import DirectoryGateway.Proofs.Gateway.Endpoints
import DirectoryGateway.Proofs.Gateway.Names
import DirectoryGateway.Proofs.Gateway.Methods
import DirectoryGateway.Proofs.Json.RoundTrip
import DirectoryGateway.Proofs.Json.Canonical
import DirectoryGateway.Proofs.Token.InOrder
import DirectoryGateway.Proofs.Token.Drafts
import DirectoryGateway.Proofs.Provider.Journal
import DirectoryGateway.Proofs.Gateway.Calls
import DirectoryGateway.Proofs.Startup.Stages
import DirectoryGateway.Proofs.Remote.Cursors
import DirectoryGateway.Proofs.Remote.Accounting
import DirectoryGateway.Proofs.Encoding.Documents
import DirectoryGateway.Proofs.Listing.States
import DirectoryGateway.Proofs.Der.Delimiting
import DirectoryGateway.Proofs.Directory.Attributes
import DirectoryGateway.Proofs.Remote.Users
