import StorageIncentives.Codec.Scalars
import StorageIncentives.Config
import StorageIncentives.Node

/-!
# Events

What the registry makes public about each change, and the log line of an event. Numbers are
written as strings, so that no reader of the log loses digits.
-/

namespace StorageIncentives

inductive Event where
  | contractUpgraded (contract : Account) (old new : String)
  | adminTransferred (old new : Account)
  | challengerAdded (admin account : Account)
  | challengerRemoved (admin account : Account)
  | storageAdminAdded (admin account : Account)
  | storageAdminRemoved (admin account : Account)
  | configUpdated (admin : Account) (config : Config) (period : Period)
  | pauseChanged (admin : Account) (paused : Bool)
  | contractFunded (funder : Account) (amount : Amount)
  | nodeRegistered (account : Account) (capacity : Word) (period : Period)
  | allocationUpdated (account : Account) (old new : Word) (period : Period)
  | nodeUnregistered (account : Account) (released : Word) (period : Period)
  | metadataUpdated (account : Account) (metadata : Metadata)
  | challengeIssued (challenger : Account) (id : String) (node : Account) (chunk : String)
      (nonce : Word) (issued : Period) (deadline : Instant)
  | proofSubmitted (node : Account) (id : String) (passed : Bool)
  | challengeExpired (caller : Account) (id : String) (node : Account)
  | rewardsDistributed (challenger : Account) (period : Period) (rewarded : List Account)
      (total : Amount)
  | rewardsClaimed (account : Account) (amount : Amount)
  | uploaderRegistered (account : Account) (units booked : Word) (paid refund : Amount)
  deriving DecidableEq

inductive Topic where
  | contract
  | node
  | challenge
  | reward
  | uploader
  deriving DecidableEq

def Topic.tag : Topic → String
  | .contract => "CONTRACT_UPDATE"
  | .node => "NODE_UPDATE"
  | .challenge => "CHALLENGE_UPDATE"
  | .reward => "REWARD_UPDATE"
  | .uploader => "UPLOADER_UPDATE"

namespace Event

def topic : Event → Topic
  | .contractUpgraded .. | .adminTransferred .. | .challengerAdded .. | .challengerRemoved ..
  | .storageAdminAdded .. | .storageAdminRemoved .. | .configUpdated .. | .pauseChanged ..
  | .contractFunded .. => .contract
  | .nodeRegistered .. | .allocationUpdated .. | .nodeUnregistered .. | .metadataUpdated .. => .node
  | .challengeIssued .. | .proofSubmitted .. | .challengeExpired .. => .challenge
  | .rewardsDistributed .. | .rewardsClaimed .. => .reward
  | .uploaderRegistered .. => .uploader

def operation : Event → String
  | .contractUpgraded .. => "contract_upgrade"
  | .adminTransferred .. => "admin_transferred"
  | .challengerAdded .. => "challenger_added"
  | .challengerRemoved .. => "challenger_removed"
  | .storageAdminAdded .. => "storage_admin_added"
  | .storageAdminRemoved .. => "storage_admin_removed"
  | .configUpdated .. => "config_updated"
  | .pauseChanged _ true => "paused"
  | .pauseChanged _ false => "unpaused"
  | .contractFunded .. => "contract_funded"
  | .nodeRegistered .. => "node_registered"
  | .allocationUpdated .. => "allocation_updated"
  | .nodeUnregistered .. => "node_unregistered"
  | .metadataUpdated .. => "metadata_updated"
  | .challengeIssued .. => "challenge_issued"
  | .proofSubmitted .. => "proof_submitted"
  | .challengeExpired .. => "challenge_expired"
  | .rewardsDistributed .. => "rewards_distributed"
  | .rewardsClaimed .. => "rewards_claimed"
  | .uploaderRegistered .. => "uploader_registered"

/-- The account that caused the event. -/
def author : Event → Account
  | .contractUpgraded contract .. => contract
  | .adminTransferred old _ => old
  | .challengerAdded admin _ | .challengerRemoved admin _ | .storageAdminAdded admin _
  | .storageAdminRemoved admin _ | .configUpdated admin .. | .pauseChanged admin _ => admin
  | .contractFunded funder _ => funder
  | .nodeRegistered account .. | .allocationUpdated account .. | .nodeUnregistered account ..
  | .metadataUpdated account _ => account
  | .challengeIssued challenger .. => challenger
  | .proofSubmitted node .. => node
  | .challengeExpired caller .. => caller
  | .rewardsDistributed challenger .. => challenger
  | .rewardsClaimed account _ => account
  | .uploaderRegistered account .. => account

def configFields (c : Config) : List (String × Json) :=
  [("reward_per_unit_per_period", .decimal c.rewardPerUnit),
   ("min_allocated_capacity", .decimal c.minCapacity),
   ("max_allocated_capacity", .decimal c.maxCapacity),
   ("challenge_timeout_ns", .decimal c.challengeTimeout),
   ("period_length_ns", .decimal c.periodLength),
   ("uploader_price_per_unit", .decimal c.pricePerUnit),
   ("reward_eligibility", .string c.eligibility.text),
   ("proof_scheme", .string c.proofScheme.text)]

def fields : Event → List (String × Json)
  | .contractUpgraded _ old new => [("old_version", .string old), ("new_version", .string new)]
  | .adminTransferred old new => [("old_admin", .account old), ("new_admin", .account new)]
  | .challengerAdded _ account | .challengerRemoved _ account | .storageAdminAdded _ account
  | .storageAdminRemoved _ account => [("account_id", .account account)]
  | .configUpdated _ config period => configFields config ++ [("period", .decimal period)]
  | .pauseChanged _ paused => [("paused", .bool paused)]
  | .contractFunded _ amount => [("amount", .decimal amount)]
  | .nodeRegistered account capacity period =>
    [("account_id", .account account), ("allocated_capacity", .decimal capacity),
     ("period", .decimal period)]
  | .allocationUpdated account old new period =>
    [("account_id", .account account), ("old_capacity", .decimal old),
     ("new_capacity", .decimal new), ("period", .decimal period)]
  | .nodeUnregistered account released period =>
    [("account_id", .account account), ("released_capacity", .decimal released),
     ("period", .decimal period)]
  | .metadataUpdated account metadata =>
    [("account_id", .account account), ("endpoint", .string metadata.endpoint),
     ("peer_addrs", .list .string metadata.peerAddresses)]
  | .challengeIssued _ id node chunk nonce issued deadline =>
    [("challenge_id", .string id), ("node_id", .account node), ("chunk_id", .string chunk),
     ("nonce", .decimal nonce), ("issued_period", .decimal issued),
     ("deadline", .decimal deadline)]
  | .proofSubmitted node id passed =>
    [("challenge_id", .string id), ("node_id", .account node), ("passed", .bool passed)]
  | .challengeExpired _ id node =>
    [("challenge_id", .string id), ("node_id", .account node)]
  | .rewardsDistributed _ period rewarded total =>
    [("period", .decimal period), ("rewarded_nodes", .list Json.account rewarded),
     ("total_distributed", .decimal total)]
  | .rewardsClaimed account amount =>
    [("account_id", .account account), ("amount", .decimal amount)]
  | .uploaderRegistered account units booked paid refund =>
    [("account_id", .account account), ("amount_units", .decimal units),
     ("booked_capacity", .decimal booked), ("paid", .decimal paid),
     ("refund", .decimal refund)]

def toJson (e : Event) : Json :=
  .object
    [("standard", .string "onsocial"), ("version", .string "1.0.0"), ("event", .string e.topic.tag),
     ("data", .array [.object <|
       ("operation", .string e.operation) :: ("author", .account e.author) :: e.fields])]

/-- The line that stands for the event in the log of a call. -/
def log (e : Event) : String := "EVENT_JSON:" ++ e.toJson.text

end Event

end StorageIncentives
