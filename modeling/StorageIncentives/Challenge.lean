import StorageIncentives.Account
import StorageIncentives.Quantity

/-!
# Challenges

A challenge asks a node to prove that it holds a chunk. It is pending until a proof is submitted, at
the deadline at the latest, or until it is found to be overdue.
-/

namespace StorageIncentives

inductive ChallengeStatus where
  | pending
  | passed
  | failed
  | expired
  deriving DecidableEq, Repr

structure Challenge where
  node : Account
  chunk : String
  nonce : Word
  issued : Period
  deadline : Instant
  status : ChallengeStatus
  deriving DecidableEq

namespace Challenge

def isResolved (c : Challenge) : Bool := c.status != .pending

def isOverdue (c : Challenge) (now : Instant) : Bool := !c.isResolved && decide (c.deadline < now)

end Challenge

end StorageIncentives
