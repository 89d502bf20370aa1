import StorageIncentives.Base64
import StorageIncentives.Rejection

/-!
# Configuration

The terms that the admin sets: the bounds on a node's capacity, the prices, the lengths of periods
and challenges, and the policies for rewards and proofs. `validate` is passed by every
configuration in force.
-/

namespace StorageIncentives

/-- Which challenges a node must have passed to earn a period's reward. -/
inductive Eligibility where
  /-- All that it ever received. -/
  | lifetime
  /-- All that were issued to it in the rewarded period. -/
  | perPeriod
  deriving DecidableEq, Repr

def Eligibility.text : Eligibility → String
  | .lifetime => "lifetime"
  | .perPeriod => "per_period"

inductive ProofScheme where
  | nonEmpty
  deriving DecidableEq, Repr

def ProofScheme.text : ProofScheme → String
  | .nonEmpty => "non_empty"

def ProofScheme.accepts : ProofScheme → Bytes → Bool
  | .nonEmpty, proof => !proof.isEmpty

def nanosPerMinute : Word := 60_000_000_000
def nanosPerHour : Word := 3_600_000_000_000

structure Config where
  rewardPerUnit : Amount
  minCapacity : Word
  maxCapacity : Word
  challengeTimeout : Word
  periodLength : Word
  pricePerUnit : Amount
  eligibility : Eligibility
  proofScheme : ProofScheme
  deriving DecidableEq

namespace Config

/-- The configuration of a registry created without one. -/
def default : Config where
  rewardPerUnit := 1_000_000
  minCapacity := 1
  maxCapacity := 1_000_000
  challengeTimeout := 600_000_000_000
  periodLength := nanosPerHour
  pricePerUnit := 1_000_000_000_000_000_000_000
  eligibility := .lifetime
  proofScheme := .nonEmpty

def Positive (c : Config) : Prop :=
  0 < c.rewardPerUnit ∧ 0 < c.minCapacity ∧ 0 < c.maxCapacity ∧ 0 < c.challengeTimeout ∧
    0 < c.periodLength ∧ 0 < c.pricePerUnit

instance (c : Config) : Decidable c.Positive :=
  inferInstanceAs (Decidable (_ ∧ _ ∧ _ ∧ _ ∧ _ ∧ _))

def validate (c : Config) : Except Rejection Unit :=
  if ¬ c.Positive then .error .configNotPositive
  else if c.maxCapacity < c.minCapacity then
    .error (.capacityBoundsCrossed c.minCapacity c.maxCapacity)
  else .ok ()

def checkCapacity (c : Config) (capacity : Word) : Except Rejection Unit :=
  if c.minCapacity ≤ capacity ∧ capacity ≤ c.maxCapacity then .ok ()
  else .error (.capacityOutOfRange capacity c.minCapacity c.maxCapacity)

theorem validate_eq_ok_iff {c : Config} :
    c.validate = .ok () ↔ c.Positive ∧ c.minCapacity ≤ c.maxCapacity := by
  unfold validate
  split
  · simp_all
  · rename_i h
    have hp : c.Positive := Decidable.not_not.1 h
    by_cases hc : c.maxCapacity < c.minCapacity
    · simp [hc, hp, Fin.not_le.2 hc]
    · simp [hc, hp, Fin.not_lt.1 hc]

theorem checkCapacity_eq_ok_iff {c : Config} {capacity : Word} :
    c.checkCapacity capacity = .ok () ↔ c.minCapacity ≤ capacity ∧ capacity ≤ c.maxCapacity := by
  unfold checkCapacity
  split <;> simp_all

theorem validate_default : default.validate = .ok () := validate_eq_ok_iff.2 (by decide)

end Config

end StorageIncentives
