import Std.Data.ExtTreeMap
import StorageIncentives.Quantity

/-!
# Period statistics

A record for each period that something was written for, and the ascending index of those periods
except the ones written after a later period. A period without a record carries the capacity and
the node count of the nearest indexed period before it, which is found by bisection.
-/

namespace StorageIncentives

structure PeriodStats where
  capacity : Word
  rewards : Amount
  activeNodes : Word
  issued : Word
  passed : Word
  /-- Set once, when the rewards of the period are distributed. -/
  distributed : Bool
  deriving DecidableEq, Repr

namespace PeriodStats

def empty : PeriodStats := ⟨0, 0, 0, 0, 0, false⟩

/-- What a later period takes over. -/
def carried (s : PeriodStats) : PeriodStats :=
  { empty with capacity := s.capacity, activeNodes := s.activeNodes }

end PeriodStats

structure History where
  records : Std.ExtTreeMap Period PeriodStats
  index : Array Period

namespace History

def empty : History := ⟨∅, #[]⟩

/-- Narrows the positions between which the indexed periods pass `p`. -/
def bisect (index : Array Period) (p : Period) (lo hi : Nat) : Nat :=
  if lo < hi then
    let mid := lo + (hi - lo) / 2
    match index[mid]? with
    | some q => if q ≤ p then bisect index p (mid + 1) hi else bisect index p lo mid
    | none => bisect index p lo mid
  else lo
termination_by hi - lo

/-- The greatest indexed period up to `p`. -/
def latest? (h : History) (p : Period) : Option Period :=
  match bisect h.index p 0 h.index.size with
  | 0 => none
  | n + 1 => h.index[n]?

/-- The record of a period, or the one it would begin with. -/
def statsAt (h : History) (p : Period) : PeriodStats :=
  match h.records[p]? with
  | some stats => stats
  | none => (((h.latest? p).bind (h.records[·]?)).map PeriodStats.carried).getD .empty

/-- Periods enter the index in ascending order only. -/
def isLatest (h : History) (p : Period) : Bool :=
  match h.index.back? with
  | none => true
  | some last => last < p

def put (h : History) (p : Period) (stats : PeriodStats) : History where
  records := h.records.insert p stats
  index := if h.isLatest p then h.index.push p else h.index

theorem statsAt_put_self (h : History) (p : Period) (stats : PeriodStats) :
    (h.put p stats).statsAt p = stats := by
  simp [statsAt, put]

end History

end StorageIncentives
