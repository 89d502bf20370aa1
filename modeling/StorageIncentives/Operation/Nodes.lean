import StorageIncentives.Procedure

/-!
# Node membership

An account registers one node, resizes it and unregisters it for good. Each step keeps the totals
of the registry and the record of the running period. What a provider publishes about itself has no
economic effect and is open to inactive nodes and during a pause.
-/

namespace StorageIncentives.Operation

open Procedure

def registerNode (capacity : Word) : Procedure Unit := do
  requireUnpaused
  let account ← caller
  let r ← registry
  accepted (r.config.checkCapacity capacity)
  require (¬ r.nodes.contains account) .alreadyRegistered
  let allocated ← found (r.allocated.add? capacity) (.overflow .allocatedCapacity)
  let period ← currentPeriod
  amendStats period fun s => do
    let activeNodes ← s.activeNodes.succOrTrap
    return { s with capacity := s.capacity.addSat capacity, activeNodes }
  setNode account (.register account capacity period)
  update fun r => { r with activeNodes := r.activeNodes.push account, allocated }
  emit (.nodeRegistered account capacity period)

def updateAllocation (capacity : Word) : Procedure Unit := do
  requireUnpaused
  let account ← caller
  let r ← registry
  let node ← found r.nodes[account]? .notRegistered
  accepted (r.config.checkCapacity capacity)
  require node.active (.nodeInactive account)
  let others ← computed (r.allocated.subOrTrap node.capacity)
  let allocated ← found (others.add? capacity) (.overflow .allocatedCapacity)
  let period ← currentPeriod
  amendStats period fun s =>
    .ok { s with capacity := (s.capacity.subSat node.capacity).addSat capacity }
  setNode account { node with capacity }
  update fun r => { r with allocated }
  emit (.allocationUpdated account node.capacity capacity period)

def unregisterNode : Procedure Unit := do
  requireUnpaused
  let account ← caller
  let r ← registry
  let node ← found r.nodes[account]? .notRegistered
  require node.active .alreadyInactive
  let activeNodes ← found (r.activeNodes.erase? account) (.missingFromIndex account)
  let period ← currentPeriod
  let allocated ← computed (r.allocated.subOrTrap node.capacity)
  amendStats period fun s =>
    .ok { s with
      capacity := s.capacity.subSat node.capacity
      activeNodes := s.activeNodes.subSat 1 }
  setNode account { node with active := false }
  update fun r => { r with activeNodes, metadata := r.metadata.erase account, allocated }
  emit (.nodeUnregistered account node.capacity period)

def requireMetadata (metadata : Metadata) : Procedure Unit := do
  require (metadata.endpoint.utf8ByteSize ≤ maxEndpointBytes) .endpointTooLong
  require (metadata.peerAddresses.length ≤ maxPeerAddresses) .tooManyPeerAddresses
  metadata.peerAddresses.forM (requireLabel .peerAddress)

def updateMetadata (metadata : Metadata) : Procedure Unit := do
  let account ← caller
  require ((← registry).nodes.contains account) .notRegistered
  requireMetadata metadata
  emit (.metadataUpdated account metadata)
  update fun r => { r with metadata := r.metadata.insert account metadata }

end StorageIncentives.Operation
