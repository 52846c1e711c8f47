import PaymentGateway.Results.Ledger
import PaymentGateway.Results.StateMachines
import PaymentGateway.Results.Currency
import PaymentGateway.Results.LostUpdates
import PaymentGateway.Results.Serializability
import PaymentGateway.Results.Idempotency
import PaymentGateway.Results.Tenants
import PaymentGateway.Results.Notifications
import PaymentGateway.Results.Replays
import PaymentGateway.Results.Payability
import PaymentGateway.Results.Repeats
import PaymentGateway.Results.Failures
import PaymentGateway.Results.RateLimits
import PaymentGateway.Results.Retries
import PaymentGateway.Results.Deadlocks
import PaymentGateway.Results.Commutation
import PaymentGateway.Results.Isolation
import PaymentGateway.Results.Orders
import PaymentGateway.Results.Initiations
import PaymentGateway.Results.CachedResponses
import PaymentGateway.Results.Postings
import PaymentGateway.Results.Amounts
import PaymentGateway.Results.AccountLookups
import PaymentGateway.Results.Balances
import PaymentGateway.Results.Verifiers
import PaymentGateway.Results.Addresses
import PaymentGateway.Results.RateHeaders
import PaymentGateway.Results.IdempotencyKeys
import PaymentGateway.Results.Statuses
import PaymentGateway.Lib.DecimalText
import PaymentGateway.Lib.Encodings
import PaymentGateway.Lib.JsonLoads
import PaymentGateway.Lib.JsonRoundTrip
import PaymentGateway.Core.Loads
import PaymentGateway.Workers.Tasks
import PaymentGateway.Results.Backoff
import PaymentGateway.Results.Reconciliation
import PaymentGateway.Api.Merchants
import PaymentGateway.Results.Tokens
import PaymentGateway.Lib.Binary
import PaymentGateway.Lib.ShortestDecimal
import PaymentGateway.Lib.Floats
import PaymentGateway.Api.Callbacks
import PaymentGateway.Results.Malformed
import PaymentGateway.Results.SignedAmounts
import PaymentGateway.State.Histories
import PaymentGateway.Outlines.Endpoints
import PaymentGateway.Runs.Origins
import PaymentGateway.Results.Origins
import PaymentGateway.Lib.Events
import PaymentGateway.Runs.Posts
import PaymentGateway.Results.Posts
import PaymentGateway.Lib.Linearizability
import PaymentGateway.Results.Crashes
import PaymentGateway.Specs.Storefront
import PaymentGateway.Runs.Refinement
import PaymentGateway.Results.Refinement
import PaymentGateway.Lib.Termination
import PaymentGateway.Results.Liveness
