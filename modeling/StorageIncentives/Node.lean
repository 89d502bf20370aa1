import StorageIncentives.Account
import StorageIncentives.Quantity

/-!
# Storage nodes

A node's record stays when it unregisters and is then inactive. Two pairs of counters follow its
challenges: over its life, and within the last period in which it was challenged.
-/

namespace StorageIncentives

structure Node where
  account : Account
  capacity : Word
  registered : Period
  challenges : Word
  passed : Word
  pendingRewards : Amount
  lastChallenged : Option Period
  lastRewarded : Option Period
  active : Bool
  periodChallenges : Word
  periodPassed : Word
  deriving DecidableEq

/-- How a provider is reached; empty until it says so. -/
structure Metadata where
  endpoint : String
  peerAddresses : List String
  deriving DecidableEq, Repr

def Metadata.empty : Metadata := ⟨"", []⟩

namespace Node

def register (account : Account) (capacity : Word) (period : Period) : Node where
  account := account
  capacity := capacity
  registered := period
  challenges := 0
  passed := 0
  pendingRewards := 0
  lastChallenged := none
  lastRewarded := none
  active := true
  periodChallenges := 0
  periodPassed := 0

def challengedIn (n : Node) (p : Period) : Bool := n.lastChallenged = some p

def hasCleanHistory (n : Node) : Bool := n.passed = n.challenges

def hasCleanPeriod (n : Node) (p : Period) : Bool :=
  n.challengedIn p && n.periodPassed = n.periodChallenges

/-- Starts the counters of a period anew when its first challenge arrives. -/
def enterPeriod (n : Node) (p : Period) : Node :=
  if n.challengedIn p then n
  else { n with lastChallenged := some p, periodChallenges := 0, periodPassed := 0 }

def recordChallenge (n : Node) (p : Period) : Except Trap Node := do
  let n := n.enterPeriod p
  let challenges ← n.challenges.succOrTrap
  let periodChallenges ← n.periodChallenges.succOrTrap
  return { n with challenges, periodChallenges }

/-- Counts a pass for a challenge issued in `p`; late passes leave the counters of a later period
alone. -/
def recordPass (n : Node) (p : Period) : Except Trap Node := do
  let passed ← n.passed.succOrTrap
  if n.challengedIn p then
    let periodPassed ← n.periodPassed.succOrTrap
    return { n with passed, periodPassed }
  else return { n with passed }

def credit (n : Node) (p : Period) (reward : Amount) : Node :=
  { n with pendingRewards := n.pendingRewards.addSat reward, lastRewarded := some p }

end Node

end StorageIncentives
