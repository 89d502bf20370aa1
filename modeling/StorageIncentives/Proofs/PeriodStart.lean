import StorageIncentives.Proofs.Clock

/-!
# Where periods start

A period starts by an instant exactly if its number is at most that of the instant's period. A start
that would lie past the end of time is held there; every instant before the end can still tell it
from an earlier one, so holding it moves no period. A new length counts from the start of the
running period, which therefore stays where it was.
-/

namespace StorageIncentives

/-- The last instant. -/
def endOfTime : Instant := 18_446_744_073_709_551_615

namespace Clock

variable {c c' : Clock} {t now : Instant} {p q : Period} {length : Word}

/-- The start of a period by exact arithmetic, which knows no end of time. -/
def exactStart (c : Clock) (p : Period) : Nat :=
  c.anchorInstant.val + (p.val - c.anchorPeriod.val) * c.length.val

/-- Period `q` of the clock is the one that `t` lies in. -/
structure Locates (c : Clock) (t : Instant) (q : Period) : Prop where
  adjoint : ∀ p, c.periodStart p ≤ t ↔ p ≤ q
  started : c.periodStart q ≤ t
  within : t.val - (c.periodStart q).val < c.length.val

/-- The clock `c'` takes over from `c` in period `q`, which starts at the same instant for both. -/
structure TakesOver (c' c : Clock) (q : Period) : Prop where
  start : c'.periodStart q = c.periodStart q
  before : ∀ t ≤ c.periodStart q, c'.periodAt t = .ok q

-- ---------------------------------------------------------------------------
-- Exact starts
-- ---------------------------------------------------------------------------

theorem val_periodStart_eq_min (c : Clock) (p : Period) :
    (c.periodStart p).val = min (c.exactStart p) endOfTime.val := val_periodStart c p

theorem val_periodStart_of_le (h : c.exactStart p ≤ t.val) :
    (c.periodStart p).val = c.exactStart p := by
  have last : t.val ≤ endOfTime.val := Nat.le_of_lt_succ t.isLt
  simp [val_periodStart_eq_min, Nat.le_trans h last]

/-- Before the end of time it does not matter that starts are held there. -/
theorem periodStart_le_iff (ht : t < endOfTime) : c.periodStart p ≤ t ↔ c.exactStart p ≤ t.val := by
  have before : t.val < endOfTime.val := ht
  simp only [Fin.le_def, val_periodStart_eq_min]
  omega

theorem exactStart_anchorPeriod : c.exactStart c.anchorPeriod = c.anchorInstant.val := by
  simp [exactStart]

theorem periodStart_anchorPeriod : c.periodStart c.anchorPeriod = c.anchorInstant := by
  apply Fin.ext
  simp [val_periodStart_of_le (Nat.le_of_eq exactStart_anchorPeriod), exactStart_anchorPeriod]

/-- The period of an instant starts as far before it as the division leaves a rest. -/
theorem exactStart_add_rest (anchored : c.anchorInstant ≤ t) (hq : c.periodAt t = .ok q) :
    c.exactStart q + (t.val - c.anchorInstant.val) % c.length.val = t.val := by
  have number : q.val - c.anchorPeriod.val = (t.val - c.anchorInstant.val) / c.length.val :=
    Nat.sub_eq_of_eq_add' (periodAt_eq_ok_iff.1 hq).2
  calc c.exactStart q + (t.val - c.anchorInstant.val) % c.length.val
      = c.anchorInstant.val + ((t.val - c.anchorInstant.val) / c.length.val * c.length.val +
          (t.val - c.anchorInstant.val) % c.length.val) := by rw [exactStart, number, Nat.add_assoc]
    _ = c.anchorInstant.val + (t.val - c.anchorInstant.val) := by rw [Nat.div_add_mod']
    _ = t.val := Nat.add_sub_cancel' anchored

theorem exactStart_le_iff (positive : 0 < c.length.val) (anchored : c.anchorInstant ≤ t)
    (hq : c.periodAt t = .ok q) : c.exactStart p ≤ t.val ↔ p ≤ q := by
  have number := (periodAt_eq_ok_iff.1 hq).2
  calc c.exactStart p ≤ t.val
      ↔ (p.val - c.anchorPeriod.val) * c.length.val ≤ t.val - c.anchorInstant.val :=
        (Nat.le_sub_iff_add_le' anchored).symm
    _ ↔ p.val - c.anchorPeriod.val ≤ (t.val - c.anchorInstant.val) / c.length.val :=
        (Nat.le_div_iff_mul_le positive).symm
    _ ↔ p.val ≤ q.val := by rw [number, Nat.sub_le_iff_le_add']

-- ---------------------------------------------------------------------------
-- The period of an instant
-- ---------------------------------------------------------------------------

theorem val_periodStart_add_rest (anchored : c.anchorInstant ≤ t) (hq : c.periodAt t = .ok q) :
    (c.periodStart q).val + (t.val - c.anchorInstant.val) % c.length.val = t.val := by
  have exact := exactStart_add_rest anchored hq
  rw [val_periodStart_of_le (Nat.le.intro exact)]
  exact exact

theorem periodStart_le_of_periodAt (anchored : c.anchorInstant ≤ t) (hq : c.periodAt t = .ok q) :
    c.periodStart q ≤ t :=
  Nat.le.intro (val_periodStart_add_rest anchored hq)

theorem sub_periodStart_lt (positive : 0 < c.length.val) (anchored : c.anchorInstant ≤ t)
    (hq : c.periodAt t = .ok q) : t.val - (c.periodStart q).val < c.length.val := by
  rw [Nat.sub_eq_of_eq_add' (val_periodStart_add_rest anchored hq).symm]
  exact Nat.mod_lt _ positive

theorem locates_of_periodAt (positive : 0 < c.length.val) (anchored : c.anchorInstant ≤ t)
    (ht : t < endOfTime) (hq : c.periodAt t = .ok q) : c.Locates t q where
  adjoint _ := (periodStart_le_iff ht).trans (exactStart_le_iff positive anchored hq)
  started := periodStart_le_of_periodAt anchored hq
  within := sub_periodStart_lt positive anchored hq

theorem periodAt_periodStart (positive : 0 < c.length.val) (hp : c.anchorPeriod ≤ p)
    (exact : c.exactStart p ≤ endOfTime.val) : c.periodAt (c.periodStart p) = .ok p := by
  apply periodAt_eq_ok_iff.2
  constructor
  · exact Nat.ne_of_gt positive
  · have number : p.val = c.anchorPeriod.val + (p.val - c.anchorPeriod.val) :=
      (Nat.add_sub_cancel' hp).symm
    simpa [val_periodStart_of_le exact, exactStart, Nat.mul_div_cancel _ positive] using number

/-- The anchor's period is that of all instants up to the anchor. -/
theorem periodAt_of_le_anchor (positive : 0 < c.length.val) (ht : t ≤ c.anchorInstant) :
    c.periodAt t = .ok c.anchorPeriod := by
  apply periodAt_eq_ok_iff.2
  constructor
  · exact Nat.ne_of_gt positive
  · simp [Nat.sub_eq_zero_of_le ht]

-- ---------------------------------------------------------------------------
-- A new length
-- ---------------------------------------------------------------------------

theorem reanchor_eq_ok (changed : length ≠ c.length) (hq : c.periodAt now = .ok q) :
    c.reanchor now length = .ok ⟨q, c.periodStart q, length⟩ := by
  simp [reanchor, changed, hq, bind, Except.bind, pure, Except.pure]

theorem takesOver_reanchored (positive : 0 < length.val) :
    TakesOver ⟨q, c.periodStart q, length⟩ c q where
  start := periodStart_anchorPeriod (c := ⟨q, c.periodStart q, length⟩)
  before _ ht := periodAt_of_le_anchor (c := ⟨q, c.periodStart q, length⟩) positive ht

/-- The start of a period and the period of an instant are adjoint, up to the end of time; so an
instant lies in its period, and the start of a period in it. A new length leaves the running period
where it started, whenever the clock is asked. -/
theorem periodStart_adjoint_periodAt (c : Clock) (positive : 0 < c.length) :
    (∀ t q, c.anchorInstant ≤ t → t < endOfTime → c.periodAt t = .ok q → c.Locates t q) ∧
    (∀ p, c.anchorPeriod ≤ p → c.exactStart p < endOfTime.val →
      c.periodAt (c.periodStart p) = .ok p) ∧
    (∀ now length q, 0 < length → length ≠ c.length → c.periodAt now = .ok q →
      ∃ c', c.reanchor now length = .ok c' ∧ c'.length = length ∧ c'.TakesOver c q ∧
        (c.anchorInstant ≤ now →
          c.periodStart q ≤ now ∧ now.val - (c.periodStart q).val < c.length.val)) := by
  refine ⟨fun t q anchored ht hq => ?_, fun p hp exact => ?_, ?_⟩
  · exact locates_of_periodAt positive anchored ht hq
  · exact periodAt_periodStart positive hp (Nat.le_of_lt exact)
  · intro now length q positive' changed hq
    refine ⟨_, reanchor_eq_ok changed hq, rfl, takesOver_reanchored positive', fun anchored => ?_⟩
    exact ⟨periodStart_le_of_periodAt anchored hq, sub_periodStart_lt positive anchored hq⟩

/-- A clock whose periods are half of all time long, so that only two of them start. -/
def halves : Clock := ⟨5, 1_000, 9_223_372_036_854_775_808⟩

/-- At the last instant but one period 6 runs. The start of period 7 is held at the end of time,
when period 6 still runs, and a new length takes over at its start. -/
theorem periodStart_adjoint_halves :
    0 < halves.length ∧ halves.periodAt 18_446_744_073_709_551_614 = .ok 6 ∧
      halves.periodStart 7 = endOfTime ∧ halves.Locates 18_446_744_073_709_551_614 6 ∧
      halves.periodAt (halves.periodStart 6) = .ok 6 ∧
      ∃ c', halves.reanchor endOfTime 1 = .ok c' ∧ c'.TakesOver halves 6 := by
  have positive : 0 < halves.length := by decide
  have running : halves.periodAt 18_446_744_073_709_551_614 = .ok 6 :=
    periodAt_eq_ok_iff.2 (by decide)
  have ending : halves.periodAt endOfTime = .ok 6 := periodAt_eq_ok_iff.2 (by decide)
  obtain ⟨locates, inverse, reanchors⟩ := periodStart_adjoint_periodAt halves positive
  obtain ⟨c', reanchored, -, takesOver, -⟩ :=
    reanchors endOfTime 1 6 (by decide) (by decide) ending
  exact ⟨positive, running, by decide, locates _ 6 (by decide) (by decide) running,
    inverse 6 (by decide) (by decide), c', reanchored, takesOver⟩

end Clock

end StorageIncentives
