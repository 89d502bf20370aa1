import StorageIncentives.Account
import StorageIncentives.Decimal
import StorageIncentives.Limits
import StorageIncentives.Quantity

/-!
# Rejections

Why the registry turns a call down, one constructor for each cause. `Rejection.report` gives the
class of a cause and its wording; a report has a text for people and a tagged form for programs.
-/

namespace StorageIncentives

inductive Role where
  | admin
  | challenger
  deriving DecidableEq

def Role.text : Role → String
  | .admin => "the registry admin"
  | .challenger => "a challenger"

/-- Figures that can outgrow their range. -/
inductive Figure where
  | allocatedCapacity
  | challengeDeadline
  | reward
  | rewardTotal
  | pendingRewards
  | distributedRewards
  | bookingPrice
  | bookedCapacity
  deriving DecidableEq

def Figure.text : Figure → String
  | .allocatedCapacity => "Allocated capacity"
  | .challengeDeadline => "Challenge deadline"
  | .reward => "Reward"
  | .rewardTotal => "Reward total"
  | .pendingRewards => "Pending rewards"
  | .distributedRewards => "Distributed rewards"
  | .bookingPrice => "Booking price"
  | .bookedCapacity => "Booked capacity"

inductive Rejection where
  | paused
  | onlyFor (role : Role)
  | oneYoctoRequired
  | zeroAmount
  | overflow (figure : Figure)
  | configNotPositive
  | capacityBoundsCrossed (min max : Word)
  | sameAdmin
  | alreadyChallenger (account : Account)
  | notChallenger (account : Account)
  | alreadyStorageAdmin (account : Account)
  | notStorageAdmin (account : Account)
  | pauseUnchanged (paused : Bool)
  | missingCode
  | capacityOutOfRange (capacity min max : Word)
  | alreadyRegistered
  | notRegistered
  | alreadyInactive
  | nodeInactive (account : Account)
  | nodeNotFound (account : Account)
  | missingFromIndex (account : Account)
  | endpointTooLong
  | tooManyPeerAddresses
  | badLength (label : Label)
  | duplicateChallenge (id : String)
  | challengeNotFound (id : String)
  | alreadyResolved (id : String)
  | wrongCaller
  | deadlinePassed (id : String)
  | proofTooLong
  | batchTooLong
  | periodNotStarted (period current : Period)
  | noCandidates
  | alreadyDistributed (period : Period)
  | incompleteCoverage (account : Account) (period : Period)
  | nothingToClaim
  | insufficientBalance (required : Amount) (available : Nat)
  | underfunded (required attached : Amount)
  | insufficientCapacity (requested available : Word)
  deriving DecidableEq

/-- The classes of rejections that carry a text. -/
inductive Reason where
  | invalidInput
  | notFound
  | conflict
  | unauthorized
  | timing
  | insufficientFunds
  | internal
  deriving DecidableEq

inductive Report where
  | contractPaused
  | detailed (reason : Reason) (detail : String)
  deriving DecidableEq

namespace Report

def onlyFor (role : String) : Report :=
  .detailed .unauthorized ("Only " ++ role ++ " can perform this action")

def overflow (figure : String) : Report := .detailed .internal (figure ++ " overflow")

end Report

def Rejection.report : Rejection → Report
  | .paused => .contractPaused
  | .onlyFor role => .onlyFor role.text
  | .oneYoctoRequired =>
    .detailed .insufficientFunds "Requires attached deposit of exactly 1 yoctoNEAR"
  | .zeroAmount => .detailed .invalidInput "ZeroAmount: amount must be greater than zero"
  | .overflow figure => .overflow figure.text
  | .configNotPositive => .detailed .invalidInput "Config values must be positive"
  | .capacityBoundsCrossed min max =>
    .detailed .invalidInput <| "min_allocated_capacity " ++ Decimal.write min.val ++
      " exceeds max_allocated_capacity " ++ Decimal.write max.val
  | .sameAdmin => .detailed .invalidInput "New admin must differ from current admin"
  | .alreadyChallenger account => .detailed .conflict (account.name ++ " is already a challenger")
  | .notChallenger account => .detailed .notFound (account.name ++ " is not a challenger")
  | .alreadyStorageAdmin account =>
    .detailed .conflict (account.name ++ " is already a storage admin")
  | .notStorageAdmin account => .detailed .notFound (account.name ++ " is not a storage admin")
  | .pauseUnchanged true => .detailed .conflict "Contract is already paused"
  | .pauseUnchanged false => .detailed .conflict "Contract is already unpaused"
  | .missingCode => .detailed .invalidInput "Missing contract code"
  | .capacityOutOfRange capacity min max =>
    .detailed .invalidInput <| "OutOfRange: capacity " ++ Decimal.write capacity.val ++
      " outside [" ++ Decimal.write min.val ++ ", " ++ Decimal.write max.val ++ "]"
  | .alreadyRegistered => .detailed .conflict "AlreadyRegistered: caller already has a storage node"
  | .notRegistered => .detailed .notFound "NotRegistered: caller has no storage node"
  | .alreadyInactive => .detailed .conflict "AlreadyInactive: storage node is already inactive"
  | .nodeInactive account => .detailed .conflict ("NodeInactive: " ++ account.name)
  | .nodeNotFound account => .detailed .notFound ("NodeNotFound: " ++ account.name)
  | .missingFromIndex account => .detailed .internal (account.name ++ " missing from node index")
  | .endpointTooLong =>
    .detailed .invalidInput ("Endpoint exceeds " ++ Decimal.write maxEndpointBytes ++ " bytes")
  | .tooManyPeerAddresses =>
    .detailed .invalidInput <|
      "Too many peer addresses (max " ++ Decimal.write maxPeerAddresses ++ ")"
  | .badLength label =>
    .detailed .invalidInput <|
      label.text ++ " must be 1-" ++ Decimal.write label.maxBytes ++ " bytes"
  | .duplicateChallenge id => .detailed .conflict ("DuplicateChallenge: " ++ id)
  | .challengeNotFound id => .detailed .notFound ("ChallengeNotFound: " ++ id)
  | .alreadyResolved id => .detailed .conflict ("AlreadyResolved: " ++ id)
  | .wrongCaller =>
    .detailed .unauthorized "WrongCaller: only the challenged node can submit a proof"
  | .deadlinePassed id => .detailed .timing ("DeadlinePassed: " ++ id)
  | .proofTooLong =>
    .detailed .invalidInput ("Proof exceeds " ++ Decimal.write maxProofBytes ++ " bytes")
  | .batchTooLong =>
    .detailed .invalidInput ("Too many challenge ids (max " ++ Decimal.write maxExpiryBatch ++ ")")
  | .periodNotStarted period current =>
    .detailed .invalidInput <| "Period " ++ Decimal.write period.val ++
      " has not started (current period " ++ Decimal.write current.val ++ ")"
  | .noCandidates => .detailed .invalidInput "Candidate list must not be empty"
  | .alreadyDistributed period =>
    .detailed .conflict ("AlreadyDistributed: period " ++ Decimal.write period.val)
  | .incompleteCoverage account period =>
    .detailed .conflict <| "IncompleteChallengeCoverage: " ++ account.name ++
      " not challenged in period " ++ Decimal.write period.val
  | .nothingToClaim => .detailed .conflict "NothingToClaim: no pending rewards"
  | .insufficientBalance required available =>
    .detailed .insufficientFunds <| "InsufficientContractBalance: required " ++
      Decimal.write required.val ++ ", available " ++ Decimal.write available
  | .underfunded required attached =>
    .detailed .insufficientFunds <| "UnderfundedPayment: required " ++
      Decimal.write required.val ++ ", attached " ++ Decimal.write attached.val
  | .insufficientCapacity requested available =>
    .detailed .conflict <| "InsufficientNetworkCapacity: requested " ++
      Decimal.write requested.val ++ ", available " ++ Decimal.write available.val

namespace Reason

/-- The tag of a class in the form for programs. -/
def tag : Reason → String
  | .invalidInput => "InvalidInput"
  | .notFound => "NotFound"
  | .conflict => "Conflict"
  | .unauthorized => "Unauthorized"
  | .timing => "Timing"
  | .insufficientFunds => "InsufficientFunds"
  | .internal => "InternalError"

def opening : Reason → String
  | .invalidInput => "Invalid input: "
  | .notFound => "Not found: "
  | .conflict => "Conflict: "
  | .unauthorized => "Unauthorized: "
  | .timing => "Timing: "
  | .insufficientFunds => "Insufficient funds: "
  | .internal => "Internal error: "

end Reason

namespace Report

def tag : Report → String
  | .contractPaused => "ContractPaused"
  | .detailed reason _ => reason.tag

def text : Report → String
  | .contractPaused => "Contract is paused"
  | .detailed reason detail => reason.opening ++ detail

end Report

/-- How a call fails: turned down by the registry, or stopped in the middle. -/
inductive Fault where
  | rejected (cause : Rejection)
  | trapped (trap : Trap)
  deriving DecidableEq

end StorageIncentives
