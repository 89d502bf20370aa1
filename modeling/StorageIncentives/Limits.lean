/-!
# Input limits

How long a text, a list or a proof may be. Texts and proofs are measured in bytes.
-/

namespace StorageIncentives

/-- Texts whose length in bytes is bounded below by one and above by `maxBytes`. -/
inductive Label where
  | challengeId
  | chunkId
  | peerAddress
  deriving DecidableEq

def Label.maxBytes : Label → Nat
  | .challengeId => 128
  | .chunkId => 256
  | .peerAddress => 256

def Label.text : Label → String
  | .challengeId => "Challenge id"
  | .chunkId => "Chunk id"
  | .peerAddress => "Peer address"

def maxProofBytes : Nat := 16384
def maxEndpointBytes : Nat := 512
def maxPeerAddresses : Nat := 16

/-- How many challenges one call may expire. -/
def maxExpiryBatch : Nat := 100

end StorageIncentives
