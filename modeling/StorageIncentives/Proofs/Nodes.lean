import StorageIncentives.Node
import StorageIncentives.Proofs.Returns

/-!
# Counting at a node

What a challenge and a pass leave of a node's record, field by field: the counters over its life,
the counters of its last challenged period, and that nothing else changes.
-/

namespace StorageIncentives

namespace Node

variable {n n' : Node} {p : Period}

theorem challengedIn_iff : n.challengedIn p = true ↔ n.lastChallenged = some p :=
  decide_eq_true_iff

theorem hasCleanHistory_iff : n.hasCleanHistory = true ↔ n.passed.val = n.challenges.val :=
  decide_eq_true_iff.trans Fin.ext_iff

theorem hasCleanPeriod_iff (hl : n.lastChallenged = some p) :
    n.hasCleanPeriod p = true ↔ n.periodPassed.val = n.periodChallenges.val := by
  rw [hasCleanPeriod, challengedIn_iff.2 hl, Bool.true_and, decide_eq_true_iff, Fin.ext_iff]

theorem enterPeriod_eq : n.enterPeriod p = { n with
    lastChallenged := some p
    periodChallenges := if n.lastChallenged = some p then n.periodChallenges else 0
    periodPassed := if n.lastChallenged = some p then n.periodPassed else 0 } := by
  unfold enterPeriod challengedIn
  by_cases hl : n.lastChallenged = some p
  · simp only [hl, decide_true, if_true]
    rw [← hl]
  · simp [hl]

theorem recordChallenge_ok (h : n.recordChallenge p = .ok n') :
    ∃ challenges periodChallenges : Word,
      challenges.val = n.challenges.val + 1 ∧
      periodChallenges.val =
        (if n.lastChallenged = some p then n.periodChallenges else 0).val + 1 ∧
      n' = { n with
        challenges
        lastChallenged := some p
        periodChallenges
        periodPassed := if n.lastChallenged = some p then n.periodPassed else 0 } := by
  simp only [recordChallenge, enterPeriod_eq, Procedure.bind_ok,
    Quantity.succOrTrap_eq_ok_iff] at h
  obtain ⟨challenges, hc, periodChallenges, hp, h⟩ := h
  exact ⟨challenges, periodChallenges, hc, hp, (Except.ok.inj h).symm⟩

theorem recordPass_ok (h : n.recordPass p = .ok n') :
    ∃ passed periodPassed : Word,
      passed.val = n.passed.val + 1 ∧
      periodPassed.val = n.periodPassed.val + (if n.lastChallenged = some p then 1 else 0) ∧
      n' = { n with passed, periodPassed } := by
  simp only [recordPass, Procedure.bind_ok, Quantity.succOrTrap_eq_ok_iff] at h
  obtain ⟨passed, hp, h⟩ := h
  by_cases hl : n.lastChallenged = some p
  · rw [if_pos (challengedIn_iff.2 hl), Procedure.bind_ok] at h
    obtain ⟨periodPassed, hq, h⟩ := h
    refine ⟨passed, periodPassed, hp, ?_, (Except.ok.inj h).symm⟩
    rw [if_pos hl]
    exact Quantity.succOrTrap_eq_ok_iff.1 hq
  · rw [if_neg (mt challengedIn_iff.1 hl)] at h
    exact ⟨passed, n.periodPassed, hp, by simp [hl], (Except.ok.inj h).symm⟩

end Node

end StorageIncentives
