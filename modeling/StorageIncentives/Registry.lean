import StorageIncentives.Bookings
import StorageIncentives.Challenge
import StorageIncentives.Config
import StorageIncentives.Node
import StorageIncentives.Period.Clock
import StorageIncentives.Period.History
import StorageIncentives.Roster

/-!
# The state of the registry

Active nodes are listed in `activeNodes`, the records of all nodes are in `nodes`. The totals are
kept beside the records that they sum up.
-/

namespace StorageIncentives

structure Registry where
  version : String
  admin : Account
  paused : Bool
  challengers : Roster
  storageAdmins : Roster
  config : Config
  clock : Clock
  nodes : Std.ExtTreeMap Account Node
  activeNodes : Roster
  metadata : Std.ExtTreeMap Account Metadata
  challenges : Std.ExtTreeMap String Challenge
  history : History
  bookings : Bookings
  /-- The capacity of the active nodes. -/
  allocated : Word
  booked : Word
  /-- The rewards that nodes may still claim. -/
  pendingRewards : Amount
  distributedRewards : Amount
  challengesIssued : Word

namespace Registry

def currentVersion : String := "0.1.0"

/-- A registry without nodes, challenges and bookings, whose first period starts now. -/
def create (admin : Account) (config : Config) (now : Instant) : Except Rejection Registry := do
  config.validate
  return {
    version := currentVersion
    admin := admin
    paused := false
    challengers := .empty
    storageAdmins := .empty
    config := config
    clock := .startingAt now config.periodLength
    nodes := ∅
    activeNodes := .empty
    metadata := ∅
    challenges := ∅
    history := .empty
    bookings := .empty
    allocated := 0
    booked := 0
    pendingRewards := 0
    distributedRewards := 0
    challengesIssued := 0 }

/-- The admin acts as a challenger too. -/
def isChallenger (r : Registry) (a : Account) : Bool := a = r.admin || r.challengers.contains a

def isStorageAdmin (r : Registry) (a : Account) : Bool := r.storageAdmins.contains a

/-- Who may upload: storage admins, and those who have booked capacity. -/
def mayUpload (r : Registry) (a : Account) : Bool :=
  r.isStorageAdmin a || decide (0 < r.bookings.booked a)

/-- Allocated capacity that is not booked yet. -/
def headroom (r : Registry) : Word := r.allocated.subSat r.booked

def pendingRewardsOf (r : Registry) (a : Account) : Amount :=
  (r.nodes[a]?).elim 0 (·.pendingRewards)

def metadataOf (r : Registry) (a : Account) : Metadata := (r.metadata[a]?).getD .empty

def statsAt (r : Registry) (p : Period) : PeriodStats := r.history.statsAt p

def periodAt (r : Registry) (now : Instant) : Except Trap Period := r.clock.periodAt now

end Registry

end StorageIncentives
