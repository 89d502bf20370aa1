import StorageIncentives.Codec.Answers
import StorageIncentives.Codec.Requests
import StorageIncentives.Json.Reader
import StorageIncentives.Proofs.Distribution
import StorageIncentives.Proofs.PeriodTotals
import StorageIncentives.Proofs.Failure
import StorageIncentives.Proofs.Roster
import StorageIncentives.Proofs.Membership
import StorageIncentives.Proofs.CounterBounds
import StorageIncentives.Proofs.ChallengeLife
import StorageIncentives.Proofs.Growth
import StorageIncentives.Proofs.Traps
import StorageIncentives.Proofs.EventLog
import StorageIncentives.Proofs.AuditTrail
import StorageIncentives.Proofs.Atomicity
import StorageIncentives.Proofs.PeriodOrder
import StorageIncentives.Proofs.Authority
import StorageIncentives.Proofs.BookingLedger
import StorageIncentives.Proofs.NodeLife
import StorageIncentives.Proofs.InternalErrors
import StorageIncentives.Proofs.RewardLedger
import StorageIncentives.Proofs.Counting
import StorageIncentives.Proofs.Commutation
import StorageIncentives.Proofs.Expiry
import StorageIncentives.Proofs.PeriodStart
import StorageIncentives.Proofs.Backfill
import StorageIncentives.Proofs.Pause
import StorageIncentives.Proofs.PeriodSearch
import StorageIncentives.Proofs.Paging
