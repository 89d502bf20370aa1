import StorageIncentives.Proofs.Conservation
import StorageIncentives.Proofs.Counters

/-!
# Distribution at most once

The record of a period is latched by its distribution and by nothing else: neither a rewritten
record nor one that begins with the totals of another loses or gains the latch. A node is credited
for the period in which it was last challenged, so its credits ascend as long as time does not go
back.
-/

namespace StorageIncentives

open Std (ExtTreeMap)

namespace Transition

variable (t : Transition)

/-- The period that a successful distribution names. -/
def distributedPeriod? : Option Period :=
  match t.call, t.outcome.result with
  | .distributeRewards p _, .ok _ => some p
  | _, _ => none

/-- The period that `a` is credited for. -/
def creditedPeriod? (a : Account) : Option Period :=
  if a ∈ t.credited then t.distributedPeriod? else none

end Transition

namespace Registry

def lastChallengedOf (r : Registry) (a : Account) : Option Period :=
  (r.nodes[a]?).elim none (·.lastChallenged)

def lastRewardedOf (r : Registry) (a : Account) : Option Period :=
  (r.nodes[a]?).elim none (·.lastRewarded)

end Registry

variable {r r' : Registry} {ctx : Context} {call : Call} {answer : Answer} {w : World}
  {a : Account} {n n' : Node} {t : Transition} {p q : Period}

-- ---------------------------------------------------------------------------
-- Calls that distribute nothing
-- ---------------------------------------------------------------------------

/-- Nothing is distributed, and at most a challenge of the running period is recorded. -/
structure MarksKept (r : Registry) (now : Instant) (r' : Registry) : Prop where
  latch : ∀ p, (r'.statsAt p).distributed = (r.statsAt p).distributed
  rewards : ∀ p, (r'.statsAt p).rewards = (r.statsAt p).rewards
  rewarded : ∀ a, r'.lastRewardedOf a = r.lastRewardedOf a
  challenged : ∀ a, r'.lastChallengedOf a = r.lastChallengedOf a ∨
    ∃ p, r.periodAt now = .ok p ∧ r'.lastChallengedOf a = some p

/-- Period records keep the latch and the rewards. -/
structure RecordsKept (h h' : History) : Prop where
  latch : ∀ p, (h'.statsAt p).distributed = (h.statsAt p).distributed
  rewards : ∀ p, (h'.statsAt p).rewards = (h.statsAt p).rewards

theorem RecordsKept.refl {h : History} : RecordsKept h h := ⟨fun _ => rfl, fun _ => rfl⟩

theorem RecordsKept.put {h : History} {s : PeriodStats}
    (latch : s.distributed = (h.statsAt p).distributed)
    (rewards : s.rewards = (h.statsAt p).rewards) : RecordsKept h (h.put p s) :=
  ⟨History.figure_put_same _ (fun _ => rfl) latch, History.figure_put_same _ (fun _ => rfl) rewards⟩

namespace MarksKept

variable {now : Instant}

theorem of_nodes_eq (records : RecordsKept r.history r'.history) (nodes : r'.nodes = r.nodes) :
    MarksKept r now r' where
  latch := records.latch
  rewards := records.rewards
  rewarded a := by rw [Registry.lastRewardedOf, nodes, Registry.lastRewardedOf]
  challenged a := .inl (by rw [Registry.lastChallengedOf, nodes, Registry.lastChallengedOf])

theorem of_insert (records : RecordsKept r.history r'.history)
    (nodes : r'.nodes = r.nodes.insert a n) (rewarded : n.lastRewarded = r.lastRewardedOf a)
    (challenged : n.lastChallenged = r.lastChallengedOf a) : MarksKept r now r' where
  latch := records.latch
  rewards := records.rewards
  rewarded b := by
    rw [Registry.lastRewardedOf, nodes]
    exact elim_insert_same rewarded b
  challenged b := by
    left
    rw [Registry.lastChallengedOf, nodes]
    exact elim_insert_same challenged b

theorem of_update (records : RecordsKept r.history r'.history) (found : r.nodes[a]? = some n)
    (nodes : r'.nodes = r.nodes.insert a n') (rewarded : n'.lastRewarded = n.lastRewarded)
    (challenged : n'.lastChallenged = n.lastChallenged) : MarksKept r now r' :=
  .of_insert records nodes (by rw [rewarded, Registry.lastRewardedOf, found, Option.elim_some])
    (by rw [challenged, Registry.lastChallengedOf, found, Option.elim_some])

theorem of_challenge (records : RecordsKept r.history r'.history) (found : r.nodes[a]? = some n)
    (nodes : r'.nodes = r.nodes.insert a n') (current : r.periodAt now = .ok p)
    (recorded : n.recordChallenge p = .ok n') : MarksKept r now r' := by
  obtain ⟨_, _, -, -, rfl⟩ := Node.recordChallenge_ok recorded
  refine ⟨records.latch, records.rewards, fun b => ?_, fun b => ?_⟩
  · rw [Registry.lastRewardedOf, nodes]
    exact elim_insert_same (by rw [found, Option.elim_some]) b
  · by_cases hb : a = b
    · subst hb
      refine .inr ⟨p, current, ?_⟩
      rw [Registry.lastChallengedOf, nodes, ExtTreeMap.getElem?_insert_self, Option.elim_some]
    · left
      simp [Registry.lastChallengedOf, nodes, ExtTreeMap.getElem?_insert, hb]

end MarksKept

theorem Accepts.marksKept (h : Accepts r ctx call answer w)
    (hd : ∀ p candidates, call ≠ .distributeRewards p candidates) :
    MarksKept r ctx.now w.registry := by
  cases h with
  | registerNode _ _ fresh _ _ _ =>
    have hn := ExtTreeMap.getElem?_eq_none fresh
    refine .of_insert (.put rfl rfl) rfl ?_ ?_
    · rw [Registry.lastRewardedOf, hn]
      rfl
    · rw [Registry.lastChallengedOf, hn]
      rfl
  | updateAllocation _ found _ _ _ _ _ => exact .of_update (.put rfl rfl) found rfl rfl rfl
  | unregisterNode _ found _ _ _ _ => exact .of_update (.put rfl rfl) found rfl rfl rfl
  | issueChallenge _ _ _ _ _ found _ _ current _ recorded _ =>
    exact .of_challenge (.put rfl rfl) found rfl current recorded
  | proofPassed _ _ _ _ _ _ _ _ recorded =>
    cases recorded with
    | known found passed =>
      obtain ⟨_, _, -, -, rfl⟩ := Node.recordPass_ok passed
      exact .of_update (.put rfl rfl) found rfl rfl rfl
    | unknown _ => exact .of_nodes_eq (.put rfl rfl) rfl
  | distributeRewards _ _ _ _ _ _ _ _ _ => exact absurd rfl (hd _ _)
  | claimRewards found _ _ => exact .of_update .refl found rfl rfl rfl
  | _ => exact .of_nodes_eq .refl rfl

-- ---------------------------------------------------------------------------
-- What a call does to latches and marks
-- ---------------------------------------------------------------------------

structure DistributionStep (t : Transition) : Prop where
  latch : ∀ p, (t.after.statsAt p).distributed = true ↔
    (t.before.statsAt p).distributed = true ∨ t.distributedPeriod? = some p
  once : ∀ p, t.distributedPeriod? = some p → (t.before.statsAt p).distributed = false
  rewards : ∀ p, t.distributedPeriod? ≠ some p →
    (t.after.statsAt p).rewards = (t.before.statsAt p).rewards
  rewarded : ∀ a, t.after.lastRewardedOf a = (t.creditedPeriod? a).or (t.before.lastRewardedOf a)
  challenged : ∀ a, t.after.lastChallengedOf a = t.before.lastChallengedOf a ∨
    ∃ p, t.before.periodAt t.ctx.now = .ok p ∧ t.after.lastChallengedOf a = some p
  covered : ∀ a p, t.creditedPeriod? a = some p → t.before.lastChallengedOf a = some p ∧
    t.after.lastChallengedOf a = some p

namespace DistributionStep

theorem of_kept (hk : MarksKept t.before t.ctx.now t.after) (hd : t.distributedPeriod? = none) :
    DistributionStep t := by
  have hc (a : Account) : t.creditedPeriod? a = none := by
    rw [Transition.creditedPeriod?, hd, ite_self]
  refine ⟨fun p => ?_, fun p h => ?_, fun p _ => hk.rewards p, fun a => ?_, hk.challenged,
    fun a p h => ?_⟩
  · simp [hd, hk.latch]
  · simp [hd] at h
  · rw [hc, Option.none_or, hk.rewarded]
  · simp [hc] at h

theorem of_failure {fault : Fault} (ha : t.after = t.before)
    (ho : t.outcome = .silent (.error fault)) : DistributionStep t := by
  refine .of_kept (ha ▸ .of_nodes_eq .refl rfl) ?_
  simp [Transition.distributedPeriod?, ho, Outcome.silent]

theorem of_distribution {candidates : List Account} {due : Payout} {challenger : Account}
    (hc : t.call = .distributeRewards p candidates)
    (ho : t.outcome = ⟨.ok (.amount due.total),
      [.rewardsDistributed challenger p (due.credits.map (·.1)) due.total], []⟩)
    (once : (t.before.statsAt p).distributed = false) (hs : due.Sound t.before p)
    (nodes : t.after.nodes = due.creditTo p t.before.nodes)
    (history : t.after.history = t.before.history.put p { t.before.statsAt p with
      rewards := (t.before.statsAt p).rewards.addSat due.total, distributed := true }) :
    DistributionStep t := by
  have distributed : t.distributedPeriod? = some p := by
    simp [Transition.distributedPeriod?, hc, ho]
  have credited : t.credited = due.credits.map (·.1) := by
    simp [Transition.credited, hc, ho, Event.rewarded]
  have latch (q : Period) : (t.after.statsAt q).distributed =
      if q = p then true else (t.before.statsAt q).distributed := by
    rw [Registry.statsAt, history]
    exact History.figure_put _ fun _ => rfl
  have challenged (a : Account) : t.after.lastChallengedOf a = t.before.lastChallengedOf a := by
    rw [Registry.lastChallengedOf, nodes, Registry.lastChallengedOf]
    rcases hs.creditTo_cases t.before.nodes p a with ⟨-, h⟩ | ⟨x, -, h⟩
    · rw [h]
    · rw [h]
      cases t.before.nodes[a]? <;> rfl
  have covered (a : Account) (ha : a ∈ t.credited) : t.before.lastChallengedOf a = some p := by
    obtain ⟨e, he, rfl⟩ := List.mem_map.1 (credited ▸ ha)
    obtain ⟨n, hn, -, hp, -⟩ := hs.earned e he
    rw [Registry.lastChallengedOf, hn, Option.elim_some]
    exact Node.challengedIn_iff.1 hp
  refine ⟨fun q => ?_, fun q hq => ?_, fun q hq => ?_, fun a => ?_, fun a => .inl (challenged a),
    fun a q hq => ?_⟩
  · rw [latch, distributed]
    by_cases hq : q = p
    · simp [hq]
    · simp [hq, Ne.symm hq]
  · rw [distributed] at hq
    rwa [← Option.some.inj hq]
  · have hqp : q ≠ p := fun h => hq (h ▸ distributed)
    rw [Registry.statsAt, history, History.figure_put PeriodStats.rewards fun _ => rfl, if_neg hqp]
    rfl
  · rw [Transition.creditedPeriod?, credited, distributed, Registry.lastRewardedOf, nodes,
      Registry.lastRewardedOf]
    rcases hs.creditTo_cases t.before.nodes p a with ⟨ha, h⟩ | ⟨x, hx, h⟩
    · rw [h, if_neg ha, Option.none_or]
    · obtain ⟨n, hn, -⟩ := hs.earned _ hx
      rw [h, if_pos (List.mem_map_of_mem (f := (·.1)) hx), hn]
      rfl
  · rw [Transition.creditedPeriod?, distributed] at hq
    split at hq
    · rename_i ha
      obtain rfl := Option.some.inj hq
      exact ⟨covered a ha, by rw [challenged, covered a ha]⟩
    · cases hq

end DistributionStep

theorem Transition.distributionStep (t : Transition) : DistributionStep t := by
  rcases t.cases with ⟨fault, ha, ho⟩ | ⟨answer, w, h, ha, ho⟩
  · exact .of_failure ha ho
  obtain ⟨r, ctx, call⟩ := t
  by_cases hd : ∃ p candidates, call = .distributeRewards p candidates
  · obtain ⟨p, candidates, rfl⟩ := hd
    cases h with
    | distributeRewards _ _ _ _ _ once payout _ _ =>
      refine .of_distribution rfl ho once (Payout.sound_ofCandidates payout) ?_ ?_
      · rw [ha]
      · rw [ha]
        rfl
  · have hd' (p : Period) (l : List Account) : call ≠ .distributeRewards p l :=
      fun hc => hd ⟨p, l, hc⟩
    refine .of_kept (ha ▸ h.marksKept hd') ?_
    unfold distributedPeriod?
    split
    · rename_i hc _
      exact absurd hc (hd' _ _)
    · rfl

-- ---------------------------------------------------------------------------
-- Runs
-- ---------------------------------------------------------------------------

namespace Run

end Run

end StorageIncentives
