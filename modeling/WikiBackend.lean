import WikiBackend.Effects.Prog
import WikiBackend.Effects.Pool
import WikiBackend.Effects.Schedule
import WikiBackend.Effects.Amid
import WikiBackend.Effects.Erase
import WikiBackend.Effects.Bounded
import WikiBackend.Effects.Leases
import WikiBackend.Relational.Keyed
import WikiBackend.Relational.Varchar
import WikiBackend.Relational.Catalog
import WikiBackend.Relational.Migration
import WikiBackend.Relational.Check
import WikiBackend.Relational.Writes
import WikiBackend.Codec.Base64
import WikiBackend.Codec.Spellings
import WikiBackend.Codec.JsonText
import WikiBackend.Core.Errors
import WikiBackend.Core.Text
import WikiBackend.Core.Clock
import WikiBackend.Core.Config
import WikiBackend.Db.Schema
import WikiBackend.Db.Statements
import WikiBackend.Db.Laws
import WikiBackend.Db.Domains
import WikiBackend.Db.Migrations
import WikiBackend.Db.Revisions
import WikiBackend.Token.Library
import WikiBackend.Token.Lax
import WikiBackend.Token.Service
import WikiBackend.Token.Mock
import WikiBackend.Token.Rejection
import WikiBackend.Token.RoundTrip
import WikiBackend.Token.Authentic
import WikiBackend.Token.Integrity
import WikiBackend.Token.Payloads
import WikiBackend.Token.Replay
import WikiBackend.Token.Agreement
import WikiBackend.Token.Padding
import WikiBackend.Token.Spellings
import WikiBackend.Token.Jwt
import WikiBackend.Token.Examples
import WikiBackend.Services.Effects
import WikiBackend.Repositories.Users
import WikiBackend.Repositories.Sessions
import WikiBackend.Repositories.Spaces
import WikiBackend.Services.Session
import WikiBackend.Services.Paths
import WikiBackend.Api.Routes
import WikiBackend.Api.Paths
import WikiBackend.Api.Transitions
import WikiBackend.Api.Rejection
import WikiBackend.Api.Validation
import WikiBackend.Api.Credentials
import WikiBackend.Sessions.Operations
import WikiBackend.Sessions.Failures
import WikiBackend.Sessions.Outcomes
import WikiBackend.Sessions.History
import WikiBackend.Sessions.Provenance
import WikiBackend.Sessions.Revocation
import WikiBackend.Sessions.Refresh
import WikiBackend.Sessions.Expiry
import WikiBackend.Sessions.Logout
import WikiBackend.Sessions.Lifetime
import WikiBackend.Users.Logins
import WikiBackend.Users.Timestamps
import WikiBackend.Users.Search
import WikiBackend.Spaces.Transactions
import WikiBackend.Spaces.Ownership
import WikiBackend.Api.Storable
import WikiBackend.Users.Sequence
import WikiBackend.Db.Reversible
import WikiBackend.Db.Models
import WikiBackend.Db.Head
import WikiBackend.Db.Mirror
import WikiBackend.Api.Connections
import WikiBackend.Api.Causes
import WikiBackend.Api.Successes
import WikiBackend.Sessions.Log
import WikiBackend.Spaces.Ledger
import WikiBackend.Api.Isolation
import WikiBackend.Api.Narrowing
import WikiBackend.Api.Alone
import WikiBackend.Api.Issued
import WikiBackend.Api.Refusals
import WikiBackend.Users.Profiles
import WikiBackend.Users.Arrivals
import WikiBackend.Api.Deployment
