import StorageIncentives.Proofs.Counters

/-!
# Room in the counters

Every counter of challenges is at most the number of challenges ever issued, also those of a node's
last challenged period and whatever time does. A pass is counted for a challenge that was pending,
so there is always room for it; and an issue finds room as long as the registry's own counter has
some.
-/

namespace StorageIncentives

open Std (ExtTreeMap)

variable {r r' : Registry} {ctx : Context} {m : ExtTreeMap String Challenge}
  {P : Account → Period → Bool → Bool} {a : Account} {n n' : Node} {id : String} {c : Challenge}
  {p : Period}

theorem challengesOf_le_size : challengesOf m P ≤ m.size := count_le_size

/-- A challenge that does not count leaves room for one. -/
theorem challengesOf_lt_size (hc : m[id]? = some c)
    (hP : P c.node c.issued (c.status = .passed) = false) : challengesOf m P < m.size :=
  count_lt_size hc (by simp [hP])

-- ---------------------------------------------------------------------------
-- Counters of the last challenged period
-- ---------------------------------------------------------------------------

/-- What a node counts in a period it counts over its life too. -/
structure Node.ScopedWithinLife (n : Node) : Prop where
  challenges : n.periodChallenges ≤ n.challenges
  passed : n.periodPassed ≤ n.passed

namespace Node.ScopedWithinLife

theorem congr (h : n.ScopedWithinLife) (hc : n'.counters = n.counters) : n'.ScopedWithinLife := by
  simp only [counters, NodeCounters.mk.injEq] at hc
  obtain ⟨challenges, passed, -, periodChallenges, periodPassed⟩ := hc
  exact ⟨by rw [challenges, periodChallenges]; exact h.challenges,
    by rw [passed, periodPassed]; exact h.passed⟩

theorem zero (hc : n.counters = .zero) : n.ScopedWithinLife := by
  simp only [counters, NodeCounters.zero, NodeCounters.mk.injEq] at hc
  obtain ⟨challenges, passed, -, periodChallenges, periodPassed⟩ := hc
  exact ⟨Fin.le_of_eq (periodChallenges.trans challenges.symm),
    Fin.le_of_eq (periodPassed.trans passed.symm)⟩

theorem recordChallenge (h : n.ScopedWithinLife) (hn : n.recordChallenge p = .ok n') :
    n'.ScopedWithinLife := by
  obtain ⟨challenges, periodChallenges, hc, hp, rfl⟩ := recordChallenge_ok hn
  have within : n.periodChallenges.val ≤ n.challenges.val := h.challenges
  have passed : n.periodPassed.val ≤ n.passed.val := h.passed
  constructor
  · show periodChallenges.val ≤ challenges.val
    split at hp
    · omega
    · rw [hp, hc]
      exact Nat.succ_le_succ (Nat.zero_le _)
  · show (if n.lastChallenged = some p then n.periodPassed else 0).val ≤ n.passed.val
    split
    · exact passed
    · exact Nat.zero_le _

theorem recordPass (h : n.ScopedWithinLife) (hn : n.recordPass p = .ok n') :
    n'.ScopedWithinLife := by
  obtain ⟨passed, periodPassed, hp, hs, rfl⟩ := recordPass_ok hn
  have within : n.periodPassed.val ≤ n.passed.val := h.passed
  refine ⟨h.challenges, ?_⟩
  show periodPassed.val ≤ passed.val
  split at hs <;> omega

end Node.ScopedWithinLife

def Registry.ScopedWithinLife (r : Registry) : Prop :=
  ∀ (a : Account) (n : Node), r.nodes[a]? = some n → n.ScopedWithinLife

theorem Registry.ScopedWithinLife.step (h : LedgerStep r ctx r') (hr : r.ScopedWithinLife) :
    r'.ScopedWithinLife := by
  cases h with
  | kept _ _ nodes _ _ =>
    intro a n hn
    rcases nodes.cases hn with ⟨k, hk, hc⟩ | ⟨-, hc⟩
    · exact (hr a k hk).congr hc.symm
    · exact .zero hc
  | issued found _ recorded _ _ nodes _ _ =>
    have counted := (hr _ _ found).recordChallenge recorded
    rw [Registry.ScopedWithinLife, nodes]
    exact forall_getElem?_insert hr counted
  | passed _ _ _ nodes _ _ =>
    unfold Registry.ScopedWithinLife
    generalize r'.nodes = nodes' at nodes
    cases nodes with
    | unknown _ => exact hr
    | known found recorded =>
      exact forall_getElem?_insert hr ((hr _ _ found).recordPass recorded)

theorem Run.scopedWithinLife (run : Run) : run.registry.ScopedWithinLife := by
  refine run.invariant (P := Registry.ScopedWithinLife) ?_ fun h => .step h.ledgerStep
  intro _ _ _ _ a n hn
  simp [Registry.fresh] at hn

-- ---------------------------------------------------------------------------
-- Counting finds room
-- ---------------------------------------------------------------------------

namespace Node

theorem exists_recordChallenge (h : n.ScopedWithinLife) (room : n.challenges.val + 1 < 2 ^ 64) :
    ∃ n', n.recordChallenge p = .ok n' := by
  have within : n.periodChallenges.val ≤ n.challenges.val := h.challenges
  have inPeriod : (if n.lastChallenged = some p then n.periodChallenges else 0 : Word).val + 1 <
      2 ^ 64 := by
    split
    · omega
    · exact Nat.lt_of_le_of_lt (Nat.succ_le_succ (Nat.zero_le _)) room
  obtain ⟨challenges, hc⟩ := Quantity.exists_succOrTrap room
  obtain ⟨periodChallenges, hp⟩ := Quantity.exists_succOrTrap inPeriod
  simp only [recordChallenge, enterPeriod_eq, Procedure.bind_ok]
  exact ⟨_, challenges, hc, periodChallenges, hp, rfl⟩

theorem exists_recordPass (h : n.ScopedWithinLife) (room : n.passed.val + 1 < 2 ^ 64) :
    ∃ n', n.recordPass p = .ok n' := by
  have within : n.periodPassed.val ≤ n.passed.val := h.passed
  obtain ⟨passed, hp⟩ := Quantity.exists_succOrTrap room
  obtain ⟨periodPassed, hq⟩ := Quantity.exists_succOrTrap (a := n.periodPassed) (by omega)
  simp only [recordPass, hp, hq]
  split <;> exact ⟨_, rfl⟩

end Node

namespace Registry.CountersAgree

variable (hr : r.CountersAgree)
include hr

theorem challenges_le (hn : r.nodes[a]? = some n) : n.challenges ≤ r.challengesIssued := by
  show n.challenges.val ≤ r.challengesIssued.val
  rw [(hr.lifetime a n hn).1, hr.total]
  exact challengesOf_le_size

theorem issued_le (p : Period) : (r.statsAt p).issued ≤ r.challengesIssued := by
  show (r.statsAt p).issued.val ≤ r.challengesIssued.val
  rw [(hr.periods p).1, hr.total]
  exact challengesOf_le_size

/-- A pending challenge is not counted as passed yet. -/
theorem passed_lt (hc : r.challenges[id]? = some c) (pending : c.isResolved = false) :
    (∀ p, (r.statsAt p).passed < r.challengesIssued) ∧
      ∀ (a : Account) (n : Node), r.nodes[a]? = some n → n.passed < r.challengesIssued := by
  have hp := pending_of_not_resolved pending
  constructor
  · intro p
    show (r.statsAt p).passed.val < r.challengesIssued.val
    rw [(hr.periods p).2, hr.total]
    exact challengesOf_lt_size hc (by simp [hp])
  · intro a n hn
    show n.passed.val < r.challengesIssued.val
    rw [(hr.lifetime a n hn).2, hr.total]
    exact challengesOf_lt_size hc (by simp [hp])

/-- Each pass of a pending challenge can be counted. -/
theorem exists_countsPass (hs : r.ScopedWithinLife) (hc : r.challenges[id]? = some c)
    (pending : c.isResolved = false) (p : Period) :
    (∃ passed, (r.statsAt p).passed.succOrTrap = .ok passed) ∧
      ∃ nodes, CountsPass r.nodes c.node p nodes := by
  obtain ⟨records, nodes⟩ := hr.passed_lt hc pending
  have bound := r.challengesIssued.isLt
  constructor
  · have : (r.statsAt p).passed.val < r.challengesIssued.val := records p
    exact Quantity.exists_succOrTrap (by omega)
  · cases found : r.nodes[c.node]? with
    | none => exact ⟨_, .unknown found⟩
    | some n =>
      have : n.passed.val < r.challengesIssued.val := nodes c.node n found
      obtain ⟨n', hn⟩ := Node.exists_recordPass (p := p) (hs _ n found) (by omega)
      exact ⟨_, .known found hn⟩

end Registry.CountersAgree

end StorageIncentives
