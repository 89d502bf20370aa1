import StorageIncentives.Procedure

/-!
# Challenges and proofs

A challenge leaves the pending state in one of two ways: by a proof from its node up to the
deadline, or by anyone's request after it.
-/

namespace StorageIncentives.Operation

open Procedure

def issueChallenge (id : String) (nodeId : Account) (chunk : String) (nonce : Word) :
    Procedure Unit := do
  requireUnpaused
  let challenger ← caller
  requireChallenger
  requireLabel .challengeId id
  requireLabel .chunkId chunk
  let r ← registry
  require (¬ r.challenges.contains id) (.duplicateChallenge id)
  let node ← found r.nodes[nodeId]? (.nodeNotFound nodeId)
  require node.active (.nodeInactive nodeId)
  let deadline ← found ((← now).add? r.config.challengeTimeout) (.overflow .challengeDeadline)
  let period ← currentPeriod
  amendStats period fun s => do return { s with issued := ← s.issued.succOrTrap }
  setNode nodeId (← computed (node.recordChallenge period))
  emit (.challengeIssued challenger id nodeId chunk nonce period deadline)
  setChallenge id ⟨nodeId, chunk, nonce, period, deadline, .pending⟩
  let challengesIssued ← computed r.challengesIssued.succOrTrap
  update fun r => { r with challengesIssued }

/-- Counts a pass in the period that the challenge was issued in. -/
def recordPass (node : Account) (issued : Period) : Procedure Unit := do
  amendStats issued fun s => do return { s with passed := ← s.passed.succOrTrap }
  match (← registry).nodes[node]? with
  | some n => setNode node (← computed (n.recordPass issued))
  | none => pure ()

/-- Whether the proof was accepted. A refused proof settles the challenge too. -/
def submitProof (id : String) (proof : Bytes) : Procedure Bool := do
  requireUnpaused
  let r ← registry
  require (proof.length ≤ maxProofBytes) .proofTooLong
  let challenge ← found r.challenges[id]? (.challengeNotFound id)
  require (¬ challenge.isResolved) (.alreadyResolved id)
  let node ← caller
  require (challenge.node = node) .wrongCaller
  require ((← now) ≤ challenge.deadline) (.deadlinePassed id)
  let passed := r.config.proofScheme.accepts proof
  if passed then recordPass node challenge.issued
  setChallenge id { challenge with status := if passed then .passed else .failed }
  emit (.proofSubmitted node id passed)
  return passed

/-- Whether a pending challenge with this id was found past its deadline. -/
def expireChallenge (id : String) : Procedure Bool := do
  match (← registry).challenges[id]? with
  | none => return false
  | some challenge =>
    if challenge.isOverdue (← now) then
      setChallenge id { challenge with status := .expired }
      emit (.challengeExpired (← caller) id challenge.node)
      return true
    else return false

/-- The number of challenges that were expired; other ids are passed over. -/
def expireChallenges (ids : List String) : Procedure Nat := do
  requireUnpaused
  require (ids.length ≤ maxExpiryBatch) .batchTooLong
  ids.foldlM (fun count id => do return if ← expireChallenge id then count + 1 else count) 0

end StorageIncentives.Operation
