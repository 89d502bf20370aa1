import StorageIncentives.Registry

/-!
# Queries

What anyone may read. Only the two answers that name the current period can fail, and only when the
clock does. Listings come in pages, a contiguous segment of the whole list each.
-/

namespace StorageIncentives

structure Overview where
  version : String
  currentPeriod : Period
  activeNodes : Nat
  allocated : Word
  booked : Word
  uploaders : Nat
  pendingRewards : Amount
  distributedRewards : Amount
  challengesIssued : Word
  paused : Bool
  deriving DecidableEq

structure CapacityUsage where
  allocated : Word
  booked : Word
  available : Word
  deriving DecidableEq

/-- A challenge with its id, as it is shown. -/
structure ChallengeView where
  id : String
  node : Account
  chunk : String
  nonce : Word
  issued : Period
  deadline : Instant
  status : ChallengeStatus
  resolved : Bool
  passed : Bool
  deriving DecidableEq

def Challenge.view (id : String) (c : Challenge) : ChallengeView where
  id := id
  node := c.node
  chunk := c.chunk
  nonce := c.nonce
  issued := c.issued
  deadline := c.deadline
  status := c.status
  resolved := c.isResolved
  passed := c.status = .passed

/-- A segment of a list: `start` items are passed over, then at most `limit` are taken. -/
structure Page where
  start : Option Word
  limit : Option Word

namespace Page

def defaultLimit : Word := 50
def maxLimit : Word := 100

def size (p : Page) : Nat := min (p.limit.getD defaultLimit).val maxLimit.val

def of {α : Type} (p : Page) (items : List α) : List α :=
  (items.drop (p.start.getD 0).val).take p.size

def whole : Page := ⟨none, none⟩

end Page

namespace Registry

def overview (r : Registry) (now : Instant) : Except Trap Overview := do
  return {
    version := r.version
    currentPeriod := ← r.periodAt now
    activeNodes := r.activeNodes.size
    allocated := r.allocated
    booked := r.booked
    uploaders := r.bookings.size
    pendingRewards := r.pendingRewards
    distributedRewards := r.distributedRewards
    challengesIssued := r.challengesIssued
    paused := r.paused }

def usage (r : Registry) : CapacityUsage := ⟨r.allocated, r.booked, r.headroom⟩

def registeredAccounts (r : Registry) (page : Page) : List Account := page.of r.activeNodes.slots

def accountAt (r : Registry) (i : Word) : Option Account := r.activeNodes.slots[i.val]?

def uploaders (r : Registry) (page : Page) : List (Account × Word) := page.of r.bookings.entries

def challengeView (r : Registry) (id : String) : Option ChallengeView :=
  (r.challenges[id]?).map (·.view id)

end Registry

inductive Query where
  | config
  | admin
  | version
  | isPaused
  | isChallenger (account : Account)
  | challengers
  | storageAdmins
  | overview
  | currentPeriod
  | clock
  | periodStats (period : Period)
  | node (account : Account)
  | metadata (account : Account)
  | nodeCount
  | accountAt (index : Word)
  | registeredAccounts (page : Page)
  | challenge (id : String)
  | pendingRewards (account : Account)
  | mayUpload (account : Account)
  | isStorageAdmin (account : Account)
  | bookedCapacity (account : Account)
  | pricePerUnit
  | usage
  | uploaders (page : Page)
  | uploaderCount

/-- What a call or a query gives back. -/
inductive Answer where
  | nothing
  | flag (b : Bool)
  | count (n : Nat)
  | amount (a : Amount)
  | text (s : String)
  | account (a : Account)
  | accountAt (a : Option Account)
  | accounts (list : List Account)
  | bookings (list : List (Account × Word))
  | config (c : Config)
  | clock (c : Clock)
  | overview (o : Overview)
  | periodStats (s : PeriodStats)
  | node (n : Option Node)
  | metadata (m : Metadata)
  | challenge (c : Option ChallengeView)
  | usage (u : CapacityUsage)

def Query.answer (r : Registry) (now : Instant) : Query → Except Trap Answer
  | .config => .ok (.config r.config)
  | .admin => .ok (.account r.admin)
  | .version => .ok (.text r.version)
  | .isPaused => .ok (.flag r.paused)
  | .isChallenger a => .ok (.flag (r.isChallenger a))
  | .challengers => .ok (.accounts r.challengers.slots)
  | .storageAdmins => .ok (.accounts r.storageAdmins.slots)
  | .overview => (r.overview now).map .overview
  | .currentPeriod => (r.periodAt now).map fun p => .count p.val
  | .clock => .ok (.clock r.clock)
  | .periodStats p => .ok (.periodStats (r.statsAt p))
  | .node a => .ok (.node r.nodes[a]?)
  | .metadata a => .ok (.metadata (r.metadataOf a))
  | .nodeCount => .ok (.count r.activeNodes.size)
  | .accountAt i => .ok (.accountAt (r.accountAt i))
  | .registeredAccounts page => .ok (.accounts (r.registeredAccounts page))
  | .challenge id => .ok (.challenge (r.challengeView id))
  | .pendingRewards a => .ok (.amount (r.pendingRewardsOf a))
  | .mayUpload a => .ok (.flag (r.mayUpload a))
  | .isStorageAdmin a => .ok (.flag (r.isStorageAdmin a))
  | .bookedCapacity a => .ok (.count (r.bookings.booked a).val)
  | .pricePerUnit => .ok (.amount r.config.pricePerUnit)
  | .usage => .ok (.usage r.usage)
  | .uploaders page => .ok (.bookings (r.uploaders page))
  | .uploaderCount => .ok (.count r.bookings.size)

end StorageIncentives
