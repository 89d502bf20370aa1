import StorageIncentives.Quantity

/-!
# The period clock

Periods of equal length are counted from an anchor. A new length takes effect from the start of
the running period, which becomes the anchor, so period numbers never go back.
-/

namespace StorageIncentives

structure Clock where
  anchorPeriod : Period
  anchorInstant : Instant
  length : Word
  deriving DecidableEq, Repr

namespace Clock

def startingAt (genesis : Instant) (length : Word) : Clock := ⟨0, genesis, length⟩

/-- The period running at an instant. All instants before the anchor belong to the anchor's
period. -/
def periodAt (c : Clock) (t : Instant) : Except Trap Period := do
  let elapsed ← (Quantity.subSat t c.anchorInstant).divOrTrap c.length
  c.anchorPeriod.addOrTrap elapsed

def periodStart (c : Clock) (p : Period) : Instant :=
  c.anchorInstant.addSat ((p.subSat c.anchorPeriod).mulSat c.length)

def reanchor (c : Clock) (now : Instant) (length : Word) : Except Trap Clock :=
  if length = c.length then .ok c
  else do
    let current ← c.periodAt now
    return ⟨current, c.periodStart current, length⟩

theorem periodAt_eq_ok_iff {c : Clock} {t : Instant} {p : Period} :
    c.periodAt t = .ok p ↔
      c.length.val ≠ 0 ∧
        p.val = c.anchorPeriod.val + (t.val - c.anchorInstant.val) / c.length.val := by
  unfold periodAt Quantity.divOrTrap
  split
  · rename_i h
    simp [bind, Except.bind, h]
  · rename_i h
    simp [bind, Except.bind, Quantity.addOrTrap_eq_ok_iff, Quantity.val_subSat, h]

theorem val_periodStart (c : Clock) (p : Period) :
    (c.periodStart p).val =
      min (c.anchorInstant.val + (p.val - c.anchorPeriod.val) * c.length.val)
        18_446_744_073_709_551_615 := by
  simp only [periodStart, Quantity.val_addSat, Quantity.val_mulSat, Quantity.val_subSat]
  omega

end Clock

end StorageIncentives
