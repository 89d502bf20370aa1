import StorageIncentives.Proofs.Returns

/-!
# What the registry accepts

`Accepts` has one rule for each call, and two for a proof. A rule lists the guards of the call and
gives its answer and the world that it leaves; nothing else of the registry changes. A call succeeds
exactly when its rule applies (`succeeds_iff_accepts`), so a property of all calls is a case
analysis on rules.
-/

namespace StorageIncentives

open Std (ExtTreeMap)

/-- One id of an expiry: the challenges and the events so far, and what they become. -/
def expireOne (ctx : Context) (s : ExtTreeMap String Challenge × List Event) (id : String) :
    ExtTreeMap String Challenge × List Event :=
  match s.1[id]? with
  | some c =>
    if c.isOverdue ctx.now then
      (s.1.insert id { c with status := .expired },
        s.2 ++ [.challengeExpired ctx.caller id c.node])
    else s
  | none => s

/-- The nodes after a pass for a challenge that was issued in `p`. -/
inductive CountsPass (nodes : ExtTreeMap Account Node) (a : Account) (p : Period) :
    ExtTreeMap Account Node → Prop
  | known {n n' : Node} (found : nodes[a]? = some n) (passed : n.recordPass p = .ok n') :
      CountsPass nodes a p (nodes.insert a n')
  | unknown (missing : nodes[a]? = none) : CountsPass nodes a p nodes

def Registry.withStats (r : Registry) (p : Period) (s : PeriodStats) : Registry :=
  { r with history := r.history.put p s }

/-- The deposit and the caller that administration asks for. -/
def Registry.Commands (r : Registry) (ctx : Context) : Prop :=
  ctx.deposit = 1 ∧ ctx.caller = r.admin

inductive Accepts (r : Registry) (ctx : Context) : Call → Answer → World → Prop
  | transferAdmin {successor : Account} (byAdmin : r.Commands ctx)
      (changed : successor ≠ r.admin) :
      Accepts r ctx (.transferAdmin successor) .nothing
        ⟨{ r with admin := successor }, [.adminTransferred r.admin successor], []⟩
  | addChallenger {account : Account} {challengers : Roster} (byAdmin : r.Commands ctx)
      (inserted : r.challengers.insert? account = some challengers) :
      Accepts r ctx (.addChallenger account) .nothing
        ⟨{ r with challengers }, [.challengerAdded r.admin account], []⟩
  | removeChallenger {account : Account} {challengers : Roster} (byAdmin : r.Commands ctx)
      (erased : r.challengers.erase? account = some challengers) :
      Accepts r ctx (.removeChallenger account) .nothing
        ⟨{ r with challengers }, [.challengerRemoved r.admin account], []⟩
  | addStorageAdmin {account : Account} {storageAdmins : Roster} (byAdmin : r.Commands ctx)
      (inserted : r.storageAdmins.insert? account = some storageAdmins) :
      Accepts r ctx (.addStorageAdmin account) .nothing
        ⟨{ r with storageAdmins }, [.storageAdminAdded r.admin account], []⟩
  | removeStorageAdmin {account : Account} {storageAdmins : Roster} (byAdmin : r.Commands ctx)
      (erased : r.storageAdmins.erase? account = some storageAdmins) :
      Accepts r ctx (.removeStorageAdmin account) .nothing
        ⟨{ r with storageAdmins }, [.storageAdminRemoved r.admin account], []⟩
  | updateConfig {config : Config} {clock : Clock} {period : Period} (byAdmin : r.Commands ctx)
      (valid : config.validate = .ok ())
      (reanchored : r.clock.reanchor ctx.now config.periodLength = .ok clock)
      (running : clock.periodAt ctx.now = .ok period) :
      Accepts r ctx (.updateConfig config) .nothing
        ⟨{ r with clock, config }, [.configUpdated r.admin config period], []⟩
  | setPaused {paused : Bool} (byAdmin : r.Commands ctx) (changed : r.paused ≠ paused) :
      Accepts r ctx (.setPaused paused) .nothing
        ⟨{ r with paused }, [.pauseChanged r.admin paused], []⟩
  | fund (positive : ctx.deposit ≠ 0) :
      Accepts r ctx .fund .nothing ⟨r, [.contractFunded ctx.caller ctx.deposit], []⟩
  | updateContract (byAdmin : r.Commands ctx) (code : ctx.input ≠ []) :
      Accepts r ctx .updateContract .nothing
        ⟨r, [], [⟨ctx.self, [.deployContract ctx.input,
          .functionCall "migrate" [] 0 Operation.migrateGas]⟩]⟩
  | migrate :
      Accepts r ctx .migrate .nothing
        ⟨{ r with version := Registry.currentVersion },
          [.contractUpgraded ctx.self r.version Registry.currentVersion], []⟩
  | registerNode {capacity allocated activeNodes : Word} {period : Period}
      (running : r.paused = false) (inRange : r.config.checkCapacity capacity = .ok ())
      (fresh : ctx.caller ∉ r.nodes)
      (total : Quantity.add? r.allocated capacity = some allocated)
      (current : r.periodAt ctx.now = .ok period)
      (counted : (r.statsAt period).activeNodes.succOrTrap = .ok activeNodes) :
      Accepts r ctx (.registerNode capacity) .nothing
        ⟨{ r.withStats period { r.statsAt period with
              capacity := (r.statsAt period).capacity.addSat capacity, activeNodes } with
            nodes := r.nodes.insert ctx.caller (.register ctx.caller capacity period)
            activeNodes := r.activeNodes.push ctx.caller
            allocated },
          [.nodeRegistered ctx.caller capacity period], []⟩
  | updateAllocation {capacity others allocated : Word} {node : Node} {period : Period}
      (running : r.paused = false) (known : r.nodes[ctx.caller]? = some node)
      (inRange : r.config.checkCapacity capacity = .ok ()) (active : node.active = true)
      (rest : r.allocated.subOrTrap node.capacity = .ok others)
      (total : Quantity.add? others capacity = some allocated)
      (current : r.periodAt ctx.now = .ok period) :
      Accepts r ctx (.updateAllocation capacity) .nothing
        ⟨{ r.withStats period { r.statsAt period with
              capacity := ((r.statsAt period).capacity.subSat node.capacity).addSat capacity } with
            nodes := r.nodes.insert ctx.caller { node with capacity }
            allocated },
          [.allocationUpdated ctx.caller node.capacity capacity period], []⟩
  | unregisterNode {allocated : Word} {activeNodes : Roster} {node : Node} {period : Period}
      (running : r.paused = false) (known : r.nodes[ctx.caller]? = some node)
      (active : node.active = true) (listed : r.activeNodes.erase? ctx.caller = some activeNodes)
      (current : r.periodAt ctx.now = .ok period)
      (rest : r.allocated.subOrTrap node.capacity = .ok allocated) :
      Accepts r ctx .unregisterNode .nothing
        ⟨{ r.withStats period { r.statsAt period with
              capacity := (r.statsAt period).capacity.subSat node.capacity
              activeNodes := (r.statsAt period).activeNodes.subSat 1 } with
            nodes := r.nodes.insert ctx.caller { node with active := false }
            activeNodes
            metadata := r.metadata.erase ctx.caller
            allocated },
          [.nodeUnregistered ctx.caller node.capacity period], []⟩
  | updateMetadata {metadata : Metadata} (known : ctx.caller ∈ r.nodes)
      (endpoint : metadata.endpoint.utf8ByteSize ≤ maxEndpointBytes)
      (few : metadata.peerAddresses.length ≤ maxPeerAddresses)
      (labels : ∀ text ∈ metadata.peerAddresses,
        0 < text.utf8ByteSize ∧ text.utf8ByteSize ≤ Label.peerAddress.maxBytes) :
      Accepts r ctx (.updateMetadata metadata) .nothing
        ⟨{ r with metadata := r.metadata.insert ctx.caller metadata },
          [.metadataUpdated ctx.caller metadata], []⟩
  | issueChallenge {id chunk : String} {nodeId : Account} {nonce issued challengesIssued : Word}
      {node node' : Node} {deadline : Instant} {period : Period}
      (running : r.paused = false) (challenger : r.isChallenger ctx.caller = true)
      (idLength : 0 < id.utf8ByteSize ∧ id.utf8ByteSize ≤ Label.challengeId.maxBytes)
      (chunkLength : 0 < chunk.utf8ByteSize ∧ chunk.utf8ByteSize ≤ Label.chunkId.maxBytes)
      (fresh : id ∉ r.challenges) (known : r.nodes[nodeId]? = some node)
      (active : node.active = true)
      (due : Quantity.add? ctx.now r.config.challengeTimeout = some deadline)
      (current : r.periodAt ctx.now = .ok period)
      (periodTotal : (r.statsAt period).issued.succOrTrap = .ok issued)
      (recorded : node.recordChallenge period = .ok node')
      (total : r.challengesIssued.succOrTrap = .ok challengesIssued) :
      Accepts r ctx (.issueChallenge id nodeId chunk nonce) .nothing
        ⟨{ r.withStats period { r.statsAt period with issued } with
            nodes := r.nodes.insert nodeId node'
            challenges := r.challenges.insert id
              ⟨nodeId, chunk, nonce, period, deadline, .pending⟩
            challengesIssued },
          [.challengeIssued ctx.caller id nodeId chunk nonce period deadline], []⟩
  | proofPassed {id : String} {proof : Bytes} {c : Challenge} {passed : Word}
      {nodes : ExtTreeMap Account Node}
      (running : r.paused = false) (short : proof.length ≤ maxProofBytes)
      (known : r.challenges[id]? = some c) (pending : c.isResolved = false)
      (challenged : c.node = ctx.caller) (inTime : ctx.now ≤ c.deadline)
      (accepted : r.config.proofScheme.accepts proof = true)
      (periodTotal : (r.statsAt c.issued).passed.succOrTrap = .ok passed)
      (recorded : CountsPass r.nodes ctx.caller c.issued nodes) :
      Accepts r ctx (.submitProof id proof) (.flag true)
        ⟨{ r.withStats c.issued { r.statsAt c.issued with passed } with
            nodes
            challenges := r.challenges.insert id { c with status := .passed } },
          [.proofSubmitted ctx.caller id true], []⟩
  | proofFailed {id : String} {proof : Bytes} {c : Challenge}
      (running : r.paused = false) (short : proof.length ≤ maxProofBytes)
      (known : r.challenges[id]? = some c) (pending : c.isResolved = false)
      (challenged : c.node = ctx.caller) (inTime : ctx.now ≤ c.deadline)
      (refused : r.config.proofScheme.accepts proof = false) :
      Accepts r ctx (.submitProof id proof) (.flag false)
        ⟨{ r with challenges := r.challenges.insert id { c with status := .failed } },
          [.proofSubmitted ctx.caller id false], []⟩
  | expireChallenges {ids : List String} (running : r.paused = false)
      (short : ids.length ≤ maxExpiryBatch) :
      Accepts r ctx (.expireChallenges ids)
        (.count (ids.foldl (expireOne ctx) (r.challenges, [])).2.length)
        ⟨{ r with challenges := (ids.foldl (expireOne ctx) (r.challenges, [])).1 },
          (ids.foldl (expireOne ctx) (r.challenges, [])).2, []⟩
  | distributeRewards {period current : Period} {candidates : List Account} {due : Payout}
      {pendingRewards distributedRewards : Amount}
      (running : r.paused = false) (challenger : r.isChallenger ctx.caller = true)
      (now : r.periodAt ctx.now = .ok current) (started : period ≤ current)
      (nonempty : candidates ≠ []) (once : (r.statsAt period).distributed = false)
      (payout : Payout.ofCandidates r period candidates = .ok due)
      (pending : Quantity.add? r.pendingRewards due.total = some pendingRewards)
      (total : Quantity.add? r.distributedRewards due.total = some distributedRewards) :
      Accepts r ctx (.distributeRewards period candidates) (.amount due.total)
        ⟨{ r.withStats period { r.statsAt period with
              rewards := (r.statsAt period).rewards.addSat due.total, distributed := true } with
            nodes := due.creditTo period r.nodes
            pendingRewards
            distributedRewards },
          [.rewardsDistributed ctx.caller period (due.credits.map (·.1)) due.total], []⟩
  | claimRewards {node : Node} (known : r.nodes[ctx.caller]? = some node)
      (positive : node.pendingRewards ≠ 0) (covered : node.pendingRewards.val ≤ ctx.available) :
      Accepts r ctx .claimRewards .nothing
        ⟨{ r with
            nodes := r.nodes.insert ctx.caller { node with pendingRewards := 0 }
            pendingRewards := r.pendingRewards.subSat node.pendingRewards },
          [.rewardsClaimed ctx.caller node.pendingRewards],
          [.payment ctx.caller node.pendingRewards]⟩
  | bookCapacity {units total booked : Word} {price : Amount} (running : r.paused = false)
      (positive : units ≠ 0) (priced : Amount.ofUnits? units r.config.pricePerUnit = some price)
      (paid : price ≤ ctx.deposit) (fits : units ≤ r.headroom)
      (own : Quantity.add? (r.bookings.booked ctx.caller) units = some total)
      (all : r.booked.addOrTrap units = .ok booked) :
      Accepts r ctx (.bookCapacity units) .nothing
        ⟨{ r with bookings := r.bookings.set ctx.caller total, booked },
          [.uploaderRegistered ctx.caller units total price (ctx.deposit.subSat price)],
          if ctx.deposit.subSat price = 0 then []
          else [.payment ctx.caller (ctx.deposit.subSat price)]⟩

end StorageIncentives
