import TolPlatform.Library.FloatingPoint
import TolPlatform.Library.ShortestDecimal
import TolPlatform.Library.Apportionment
import TolPlatform.Library.Interleaving
import TolPlatform.Library.AdvisoryLock
import TolPlatform.Library.LockedCalls
import TolPlatform.Library.Transaction
import TolPlatform.Library.Table
import TolPlatform.Library.Grouping
import TolPlatform.Library.Lineage
import TolPlatform.Library.Noninterference
import TolPlatform.Domain.LedgerViews
import TolPlatform.Domain.CommissionSplit
import TolPlatform.Domain.CommissionFairness
import TolPlatform.Domain.StateMachines
import TolPlatform.Economics.Outline
import TolPlatform.Economics.Reconciliation
import TolPlatform.Economics.Solvency
import TolPlatform.Economics.Accruals
import TolPlatform.Economics.Schedules
import TolPlatform.Idempotency.Principals
import TolPlatform.Idempotency.Attempts
import TolPlatform.Crypto.Gf256
import TolPlatform.Crypto.Shamir
import TolPlatform.Library.Traced
import TolPlatform.Crypto.MalformedShares
import TolPlatform.Crypto.Envelope
import TolPlatform.Library.AuthenticatedEncryption
import TolPlatform.Crypto.Sealing
import TolPlatform.Library.Delimited
import TolPlatform.Shared.Text
import TolPlatform.Crypto.CanonicalJson
import TolPlatform.Crypto.Receipt
import TolPlatform.Lockbox.Service
import TolPlatform.Lockbox.Disclosure
import TolPlatform.Memberships.Service
import TolPlatform.Memberships.Escalation
import TolPlatform.Claims.Service
import TolPlatform.Claims.Lifecycle
import TolPlatform.Rfqs.Service
import TolPlatform.Rfqs.Effects
import TolPlatform.Rfqs.Lifecycle
import TolPlatform.Rfqs.Selection
import TolPlatform.Rfqs.Liveness
import TolPlatform.Evidence.Readiness
import TolPlatform.Evidence.Blockers
import TolPlatform.Passports.Tables
import TolPlatform.Passports.Service
import TolPlatform.Passports.Recompute
import TolPlatform.Matching.Eligibility
import TolPlatform.Matching.HardRules
import TolPlatform.Matching.Scoring
import TolPlatform.Matching.ScoreBounds
import TolPlatform.Matching.CodeLists
import TolPlatform.Matching.Ranking
import TolPlatform.Matching.Service
import TolPlatform.Matching.Listing
import TolPlatform.Matching.StoredOrder
import TolPlatform.Passports.Facts
import TolPlatform.Passports.Effects
import TolPlatform.Library.Latest
import TolPlatform.Passports.Coherence
import TolPlatform.Passports.Verification
import TolPlatform.Rfqs.Requotes
import TolPlatform.Deals.Tables
import TolPlatform.Deals.Service
import TolPlatform.Deals.Stages
import TolPlatform.Deals.Approvals
import TolPlatform.Library.Redaction
import TolPlatform.Rfqs.Reads
import TolPlatform.Deals.Timeline
import TolPlatform.Deals.CompetingQuotes
import TolPlatform.Deals.LedgerPrivacy
import TolPlatform.Domain.VolumeReconciliation
import TolPlatform.Domain.AdmittedVolumes
import TolPlatform.Opportunities.Service
import TolPlatform.Opportunities.Rereads
import TolPlatform.Library.ReadCommitted
import TolPlatform.Opportunities.Replacements
import TolPlatform.Library.UniqueKeys
import TolPlatform.Sessions.Service
import TolPlatform.Sessions.Revocation
import TolPlatform.Authz.FieldPolicy
import TolPlatform.Capacity.Tables
import TolPlatform.Marketplace.Mapper
import TolPlatform.Capacity.Service
import TolPlatform.Capacity.FreshnessCache
import TolPlatform.Attribution.Ranking
import TolPlatform.Attribution.Scoring
import TolPlatform.Library.PathSearch
import TolPlatform.Shared.Json
import TolPlatform.Shared.ValueGraphs
import TolPlatform.Db.JsonGuards
import TolPlatform.Crypto.Keys
import TolPlatform.Lockbox.Payload
import TolPlatform.Library.Refinement
import TolPlatform.Library.Extension
import TolPlatform.Lockbox.Seal
import TolPlatform.Lockbox.Escrow
import TolPlatform.Lockbox.Vault
import TolPlatform.Lockbox.Custody
import TolPlatform.Lockbox.Availability
import TolPlatform.Library.Vouchers
import TolPlatform.Economics.Books
import TolPlatform.Economics.Statements
import TolPlatform.Economics.CapFloor
import TolPlatform.Library.Journals
import TolPlatform.Shared.AuditTrail
import TolPlatform.Rfqs.AuditTrail
import TolPlatform.Library.WordOrder
import TolPlatform.Db.Ids
import TolPlatform.Rfqs.Expiry
import TolPlatform.Rfqs.Backlog
import TolPlatform.Idempotency.Serving
import TolPlatform.Rfqs.Served
