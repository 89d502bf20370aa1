import StorageIncentives.Procedure

/-!
# Rewards

A period is distributed once, to those of the listed nodes that earned its reward. Unknown and
inactive candidates are passed over and repeated ones count once, but an active candidate that was
not challenged in the period stops the distribution. What a node earns it claims later, in full.
-/

namespace StorageIncentives

def Eligibility.earned : Eligibility → Node → Period → Bool
  | .lifetime, node, _ => node.hasCleanHistory
  | .perPeriod, node, p => node.hasCleanPeriod p

/-- Credits in the order of the candidates, and their sum. -/
structure Payout where
  credits : List (Account × Amount)
  total : Amount

namespace Payout

def empty : Payout := ⟨[], 0⟩

def add (due : Payout) (a : Account) (capacity : Word) (rate : Amount) : Except Rejection Payout :=
  match Amount.ofUnits? capacity rate with
  | none => .error (.overflow .reward)
  | some reward =>
    match due.total.add? reward with
    | none => .error (.overflow .rewardTotal)
    | some total => .ok ⟨due.credits ++ [(a, reward)], total⟩

def consider (r : Registry) (p : Period) (due : Payout) (a : Account) : Except Rejection Payout :=
  match r.nodes[a]? with
  | none => .ok due
  | some node =>
    if !node.active then .ok due
    else if !node.challengedIn p then .error (.incompleteCoverage a p)
    else if !r.config.eligibility.earned node p then .ok due
    else due.add a node.capacity r.config.rewardPerUnit

def ofCandidates (r : Registry) (p : Period) (candidates : List Account) :
    Except Rejection Payout :=
  candidates.eraseDups.foldlM (consider r p) empty

def creditNode (p : Period) (nodes : Std.ExtTreeMap Account Node) (entry : Account × Amount) :
    Std.ExtTreeMap Account Node :=
  match nodes[entry.1]? with
  | some node => nodes.insert entry.1 (node.credit p entry.2)
  | none => nodes

def creditTo (due : Payout) (p : Period) (nodes : Std.ExtTreeMap Account Node) :
    Std.ExtTreeMap Account Node :=
  due.credits.foldl (creditNode p) nodes

end Payout

namespace Operation

open Procedure

/-- The sum of the rewards credited. -/
def distributeRewards (period : Period) (candidates : List Account) : Procedure Amount := do
  requireUnpaused
  let challenger ← caller
  requireChallenger
  let current ← currentPeriod
  require (period ≤ current) (.periodNotStarted period current)
  require (candidates ≠ []) .noCandidates
  let r ← registry
  require (¬ (r.statsAt period).distributed) (.alreadyDistributed period)
  let due ← accepted (Payout.ofCandidates r period candidates)
  let pendingRewards ← found (r.pendingRewards.add? due.total) (.overflow .pendingRewards)
  let distributedRewards ←
    found (r.distributedRewards.add? due.total) (.overflow .distributedRewards)
  amendStats period fun s =>
    .ok { s with rewards := s.rewards.addSat due.total, distributed := true }
  update fun r =>
    { r with nodes := due.creditTo period r.nodes, pendingRewards, distributedRewards }
  emit (.rewardsDistributed challenger period (due.credits.map (·.1)) due.total)
  return due.total

/-- Pays the caller's pending rewards, also during a pause. -/
def claimRewards : Procedure Unit := do
  let account ← caller
  let r ← registry
  let node ← found r.nodes[account]? .notRegistered
  let amount := node.pendingRewards
  require (amount ≠ 0) .nothingToClaim
  let available := (← read).available
  require (amount.val ≤ available) (.insufficientBalance amount available)
  setNode account { node with pendingRewards := 0 }
  update fun r => { r with pendingRewards := r.pendingRewards.subSat amount }
  emit (.rewardsClaimed account amount)
  promise (.payment account amount)

end Operation

end StorageIncentives
