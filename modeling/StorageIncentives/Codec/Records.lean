import StorageIncentives.Codec.Scalars
import StorageIncentives.Query

/-!
# Records in JSON

The written form of each record and the reading of it. What is written reads back; reading also
takes arrays of members and the object form of choices.
-/

namespace StorageIncentives

namespace Eligibility

def name : Eligibility → String
  | .lifetime => "Lifetime"
  | .perPeriod => "PerPeriod"

def toJson (e : Eligibility) : Json := .string e.name

def ofDocument? (d : Document) : Option Eligibility :=
  d.choice? [("Lifetime", .lifetime), ("PerPeriod", .perPeriod)]

end Eligibility

namespace ProofScheme

def name : ProofScheme → String
  | .nonEmpty => "NonEmpty"

def toJson (s : ProofScheme) : Json := .string s.name

def ofDocument? (d : Document) : Option ProofScheme := d.choice? [("NonEmpty", .nonEmpty)]

end ProofScheme

namespace ChallengeStatus

def name : ChallengeStatus → String
  | .pending => "Open"
  | .passed => "Passed"
  | .failed => "Failed"
  | .expired => "Expired"

def toJson (s : ChallengeStatus) : Json := .string s.name

def ofDocument? (d : Document) : Option ChallengeStatus :=
  d.choice? [("Open", .pending), ("Passed", .passed), ("Failed", .failed), ("Expired", .expired)]

end ChallengeStatus

namespace Config

def memberNames : List String :=
  ["reward_per_unit_per_period", "min_allocated_capacity", "max_allocated_capacity",
   "challenge_timeout_ns", "period_length_ns", "uploader_price_per_unit", "reward_eligibility",
   "proof_scheme"]

def toJson (c : Config) : Json :=
  .object
    [("reward_per_unit_per_period", .decimal c.rewardPerUnit),
     ("min_allocated_capacity", .word c.minCapacity),
     ("max_allocated_capacity", .word c.maxCapacity),
     ("challenge_timeout_ns", .word c.challengeTimeout),
     ("period_length_ns", .word c.periodLength),
     ("uploader_price_per_unit", .decimal c.pricePerUnit),
     ("reward_eligibility", c.eligibility.toJson),
     ("proof_scheme", c.proofScheme.toJson)]

/-- The two policies may be left out. -/
def ofDocument? (d : Document) : Option Config := do
  let m ← d.record? memberNames 2
  return {
    rewardPerUnit := ← m.required "reward_per_unit_per_period" Document.decimal?
    minCapacity := ← m.required "min_allocated_capacity" Document.word?
    maxCapacity := ← m.required "max_allocated_capacity" Document.word?
    challengeTimeout := ← m.required "challenge_timeout_ns" Document.word?
    periodLength := ← m.required "period_length_ns" Document.word?
    pricePerUnit := ← m.required "uploader_price_per_unit" Document.decimal?
    eligibility := ← m.defaulted "reward_eligibility" Eligibility.ofDocument? .lifetime
    proofScheme := ← m.defaulted "proof_scheme" ProofScheme.ofDocument? .nonEmpty }

end Config

namespace Clock

def memberNames : List String := ["anchor_period", "anchor_timestamp", "period_length_ns"]

def toJson (c : Clock) : Json :=
  .object
    [("anchor_period", .word c.anchorPeriod), ("anchor_timestamp", .word c.anchorInstant),
     ("period_length_ns", .word c.length)]

def ofDocument? (d : Document) : Option Clock := do
  let m ← d.record? memberNames 0
  return {
    anchorPeriod := ← m.required "anchor_period" Document.word?
    anchorInstant := ← m.required "anchor_timestamp" Document.word?
    length := ← m.required "period_length_ns" Document.word? }

end Clock

namespace PeriodStats

def memberNames : List String :=
  ["total_capacity_stored", "total_rewards_distributed", "active_nodes", "challenges_issued",
   "challenges_passed", "rewards_distributed"]

def toJson (s : PeriodStats) : Json :=
  .object
    [("total_capacity_stored", .word s.capacity),
     ("total_rewards_distributed", .decimal s.rewards),
     ("active_nodes", .word s.activeNodes),
     ("challenges_issued", .word s.issued),
     ("challenges_passed", .word s.passed),
     ("rewards_distributed", .bool s.distributed)]

def ofDocument? (d : Document) : Option PeriodStats := do
  let m ← d.record? memberNames 0
  return {
    capacity := ← m.required "total_capacity_stored" Document.word?
    rewards := ← m.required "total_rewards_distributed" Document.decimal?
    activeNodes := ← m.required "active_nodes" Document.word?
    issued := ← m.required "challenges_issued" Document.word?
    passed := ← m.required "challenges_passed" Document.word?
    distributed := ← m.required "rewards_distributed" Document.bool? }

end PeriodStats

namespace Node

def memberNames : List String :=
  ["account_id", "allocated_capacity", "registered_period", "total_challenges",
   "passed_challenges", "pending_rewards", "last_challenged_period", "last_rewarded_period",
   "active", "period_challenges", "period_passed"]

def toJson (n : Node) : Json :=
  .object
    [("account_id", .account n.account),
     ("allocated_capacity", .word n.capacity),
     ("registered_period", .word n.registered),
     ("total_challenges", .word n.challenges),
     ("passed_challenges", .word n.passed),
     ("pending_rewards", .decimal n.pendingRewards),
     ("last_challenged_period", .option Json.word n.lastChallenged),
     ("last_rewarded_period", .option Json.word n.lastRewarded),
     ("active", .bool n.active),
     ("period_challenges", .word n.periodChallenges),
     ("period_passed", .word n.periodPassed)]

def ofDocument? (d : Document) : Option Node := do
  let m ← d.record? memberNames 0
  return {
    account := ← m.required "account_id" Document.account?
    capacity := ← m.required "allocated_capacity" Document.word?
    registered := ← m.required "registered_period" Document.word?
    challenges := ← m.required "total_challenges" Document.word?
    passed := ← m.required "passed_challenges" Document.word?
    pendingRewards := ← m.required "pending_rewards" Document.decimal?
    lastChallenged := ← m.optional "last_challenged_period" Document.word?
    lastRewarded := ← m.optional "last_rewarded_period" Document.word?
    active := ← m.required "active" Document.bool?
    periodChallenges := ← m.required "period_challenges" Document.word?
    periodPassed := ← m.required "period_passed" Document.word? }

end Node

namespace Metadata

def memberNames : List String := ["endpoint", "peer_addrs"]

def toJson (m : Metadata) : Json :=
  .object [("endpoint", .string m.endpoint), ("peer_addrs", .list Json.string m.peerAddresses)]

def ofMembers? (m : Members) : Option Metadata := do
  return {
    endpoint := ← m.required "endpoint" Document.text?
    peerAddresses := ← m.required "peer_addrs" (Document.list? Document.text?) }

def ofDocument? (d : Document) : Option Metadata := d.record? memberNames 0 >>= ofMembers?

end Metadata

namespace Challenge

def memberNames : List String :=
  ["node_id", "chunk_id", "nonce", "issued_period", "deadline", "status"]

def toJson (c : Challenge) : Json :=
  .object
    [("node_id", .account c.node), ("chunk_id", .string c.chunk), ("nonce", .word c.nonce),
     ("issued_period", .word c.issued), ("deadline", .word c.deadline),
     ("status", c.status.toJson)]

def ofDocument? (d : Document) : Option Challenge := do
  let m ← d.record? memberNames 0
  return {
    node := ← m.required "node_id" Document.account?
    chunk := ← m.required "chunk_id" Document.text?
    nonce := ← m.required "nonce" Document.word?
    issued := ← m.required "issued_period" Document.word?
    deadline := ← m.required "deadline" Document.word?
    status := ← m.required "status" ChallengeStatus.ofDocument? }

end Challenge

namespace ChallengeView

def memberNames : List String :=
  ["challenge_id", "node_id", "chunk_id", "nonce", "issued_period", "deadline", "status",
   "resolved", "passed"]

def toJson (c : ChallengeView) : Json :=
  .object
    [("challenge_id", .string c.id), ("node_id", .account c.node), ("chunk_id", .string c.chunk),
     ("nonce", .decimal c.nonce), ("issued_period", .word c.issued),
     ("deadline", .decimal c.deadline), ("status", c.status.toJson), ("resolved", .bool c.resolved),
     ("passed", .bool c.passed)]

def ofDocument? (d : Document) : Option ChallengeView := do
  let m ← d.record? memberNames 0
  return {
    id := ← m.required "challenge_id" Document.text?
    node := ← m.required "node_id" Document.account?
    chunk := ← m.required "chunk_id" Document.text?
    nonce := ← m.required "nonce" Document.decimal?
    issued := ← m.required "issued_period" Document.word?
    deadline := ← m.required "deadline" Document.decimal?
    status := ← m.required "status" ChallengeStatus.ofDocument?
    resolved := ← m.required "resolved" Document.bool?
    passed := ← m.required "passed" Document.bool? }

end ChallengeView

namespace Overview

def memberNames : List String :=
  ["version", "current_period", "active_nodes", "total_allocated_capacity",
   "total_booked_capacity", "uploader_count", "total_pending_rewards",
   "total_rewards_distributed", "total_challenges_issued", "paused"]

def toJson (o : Overview) : Json :=
  .object
    [("version", .string o.version),
     ("current_period", .word o.currentPeriod),
     ("active_nodes", .number o.activeNodes),
     ("total_allocated_capacity", .word o.allocated),
     ("total_booked_capacity", .word o.booked),
     ("uploader_count", .number o.uploaders),
     ("total_pending_rewards", .decimal o.pendingRewards),
     ("total_rewards_distributed", .decimal o.distributedRewards),
     ("total_challenges_issued", .word o.challengesIssued),
     ("paused", .bool o.paused)]

def ofDocument? (d : Document) : Option Overview := do
  let m ← d.record? memberNames 0
  let activeNodes ← m.required "active_nodes" Document.word?
  return {
    version := ← m.required "version" Document.text?
    currentPeriod := ← m.required "current_period" Document.word?
    activeNodes := activeNodes.val
    allocated := ← m.required "total_allocated_capacity" Document.word?
    booked := ← m.required "total_booked_capacity" Document.word?
    uploaders := ← m.required "uploader_count" Document.count?
    pendingRewards := ← m.required "total_pending_rewards" Document.decimal?
    distributedRewards := ← m.required "total_rewards_distributed" Document.decimal?
    challengesIssued := ← m.required "total_challenges_issued" Document.word?
    paused := ← m.required "paused" Document.bool? }

end Overview

namespace CapacityUsage

def memberNames : List String := ["total_allocated", "total_booked", "available"]

def toJson (u : CapacityUsage) : Json :=
  .object
    [("total_allocated", .word u.allocated), ("total_booked", .word u.booked),
     ("available", .word u.available)]

def ofDocument? (d : Document) : Option CapacityUsage := do
  let m ← d.record? memberNames 0
  return {
    allocated := ← m.required "total_allocated" Document.word?
    booked := ← m.required "total_booked" Document.word?
    available := ← m.required "available" Document.word? }

end CapacityUsage

end StorageIncentives
