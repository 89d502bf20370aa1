import StorageIncentives.Proofs.History
import StorageIncentives.Proofs.Nodes
import StorageIncentives.Proofs.Payout
import StorageIncentives.Proofs.Run

/-!
# Conservation of rewards

Rewards are booked in four places: at the node, as the liability and as the total of the registry,
and in the record of the period. Each call accounts for what it moves between them
(`RewardStep`), and the sums that this implies bound every saturating operation away from its
limit.
-/

namespace StorageIncentives

open Std (ExtTreeMap)

-- ---------------------------------------------------------------------------
-- What a call pays and earns
-- ---------------------------------------------------------------------------

def ReceiptAction.transferred : ReceiptAction → Nat
  | .transfer amount => amount.val
  | _ => 0

def Receipt.transferred (r : Receipt) : Nat := (r.actions.map ReceiptAction.transferred).sum

/-- The accounts that are credited, as the event of a distribution names them. -/
def Event.rewarded : Event → List Account
  | .rewardsDistributed _ _ rewarded _ => rewarded
  | _ => []

namespace Transition

variable (t : Transition)

/-- What a successful claim transfers. -/
def claimed : Nat :=
  match t.call with
  | .claimRewards => (t.outcome.receipts.map Receipt.transferred).sum
  | _ => 0

def claimedBy (a : Account) : Nat := if t.ctx.caller = a then t.claimed else 0

/-- The accounts that a successful distribution credits. -/
def credited : List Account :=
  match t.call with
  | .distributeRewards .. => t.outcome.events.flatMap Event.rewarded
  | _ => []

/-- The price of the capacity of `a` at the reward rate, before a call that credits `a`. -/
def earnedBy (a : Account) : Nat :=
  if a ∈ t.credited then
    (t.before.nodes[a]?).elim 0 fun n => n.capacity.val * t.before.config.rewardPerUnit.val
  else 0

/-- What a successful distribution returns. -/
def distributed : Nat :=
  match t.call, t.outcome.result with
  | .distributeRewards .., .ok (.amount total) => total.val
  | _, _ => 0

/-- No sum or difference of a distribution or a claim is held at a bound, and a claim pays what is
pending and available. -/
structure Exact : Prop where
  distribution : ∀ p candidates answer, t.call = .distributeRewards p candidates →
    t.outcome.result = .ok answer → ∃ total, answer = .amount total ∧
      (t.after.statsAt p).rewards.val = (t.before.statsAt p).rewards.val + total.val ∧
      ∀ a, (t.after.pendingRewardsOf a).val = (t.before.pendingRewardsOf a).val + t.earnedBy a
  claim : ∀ answer, t.call = .claimRewards → t.outcome.result = .ok answer →
    t.outcome.receipts = [.payment t.ctx.caller (t.before.pendingRewardsOf t.ctx.caller)] ∧
      t.after.pendingRewards.val + (t.before.pendingRewardsOf t.ctx.caller).val =
        t.before.pendingRewards.val ∧
      (t.before.pendingRewardsOf t.ctx.caller).val + t.ctx.locked.val +
        t.ctx.storageUsage.val * Context.storageBytePrice ≤
          t.ctx.balance.val + t.ctx.deposit.val

end Transition

-- ---------------------------------------------------------------------------
-- Calls that move no rewards
-- ---------------------------------------------------------------------------

variable {r r' : Registry} {ctx : Context} {call : Call} {answer : Answer} {w : World}
  {nodes : ExtTreeMap Account Node} {a : Account} {n : Node} {t : Transition}

def Call.movesRewards : Call → Bool
  | .distributeRewards .. | .claimRewards => true
  | _ => false

structure RewardsKept (r r' : Registry) : Prop where
  pending : r'.pendingRewards = r.pendingRewards
  total : r'.distributedRewards = r.distributedRewards
  account : ∀ a, r'.pendingRewardsOf a = r.pendingRewardsOf a
  nodes : tally r'.nodes (·.pendingRewards.val) = tally r.nodes (·.pendingRewards.val)
  records : tally r'.history.records (·.rewards.val) = tally r.history.records (·.rewards.val)

namespace RewardsKept

theorem of_nodes_eq (pending : r'.pendingRewards = r.pendingRewards)
    (total : r'.distributedRewards = r.distributedRewards) (nodes : r'.nodes = r.nodes)
    (records : tally r'.history.records (·.rewards.val) = tally r.history.records (·.rewards.val)) :
    RewardsKept r r' where
  pending := pending
  total := total
  account a := by rw [Registry.pendingRewardsOf, nodes, Registry.pendingRewardsOf]
  nodes := by rw [nodes]
  records := records

theorem of_insert (pending : r'.pendingRewards = r.pendingRewards)
    (total : r'.distributedRewards = r.distributedRewards) (nodes : r'.nodes = r.nodes.insert a n)
    (same : n.pendingRewards = r.pendingRewardsOf a)
    (records : tally r'.history.records (·.rewards.val) = tally r.history.records (·.rewards.val)) :
    RewardsKept r r' where
  pending := pending
  total := total
  account b := by
    rw [Registry.pendingRewardsOf, nodes]
    exact elim_insert_same same b
  nodes := by
    have ht := tally_insert r.nodes a n (·.pendingRewards.val)
    have hs : (r.nodes[a]?).elim 0 (·.pendingRewards.val) = n.pendingRewards.val := by
      rw [same, Registry.pendingRewardsOf]
      cases r.nodes[a]? <;> rfl
    rw [nodes]
    omega
  records := records

end RewardsKept

theorem Accepts.rewardsKept (h : Accepts r ctx call answer w) (hm : call.movesRewards = false) :
    RewardsKept r w.registry := by
  have rewards (s : PeriodStats) : s.carried.rewards.val = 0 := rfl
  have known {a : Account} {n n' : Node} (hn : r.nodes[a]? = some n)
      (hp : n'.pendingRewards = n.pendingRewards) :
      n'.pendingRewards = r.pendingRewardsOf a := by
    rw [hp, Registry.pendingRewardsOf, hn, Option.elim_some]
  cases h with
  | registerNode _ _ fresh _ _ _ =>
    refine .of_insert rfl rfl rfl ?_ (History.tally_put_same _ rewards rfl)
    rw [Registry.pendingRewardsOf, ExtTreeMap.getElem?_eq_none fresh]
    rfl
  | updateAllocation _ found _ _ _ _ _ =>
    exact .of_insert rfl rfl rfl (known found rfl) (History.tally_put_same _ rewards rfl)
  | unregisterNode _ found _ _ _ _ =>
    exact .of_insert rfl rfl rfl (known found rfl) (History.tally_put_same _ rewards rfl)
  | issueChallenge _ _ _ _ _ found _ _ _ _ recorded _ =>
    obtain ⟨_, _, -, -, rfl⟩ := Node.recordChallenge_ok recorded
    exact .of_insert rfl rfl rfl (known found rfl) (History.tally_put_same _ rewards rfl)
  | proofPassed _ _ _ _ _ _ _ _ recorded =>
    cases recorded with
    | known found passed =>
      obtain ⟨_, _, -, -, rfl⟩ := Node.recordPass_ok passed
      exact .of_insert rfl rfl rfl (known found rfl) (History.tally_put_same _ rewards rfl)
    | unknown _ => exact .of_nodes_eq rfl rfl rfl (History.tally_put_same _ rewards rfl)
  | distributeRewards _ _ _ _ _ _ _ _ _ => cases hm
  | claimRewards _ _ _ => cases hm
  | _ => exact .of_nodes_eq rfl rfl rfl rfl

-- ---------------------------------------------------------------------------
-- What a call moves
-- ---------------------------------------------------------------------------

/-- The liability is the sum of what nodes may claim and is part of what was distributed, which is
the sum of the records. -/
structure Registry.Balanced (r : Registry) : Prop where
  pending : r.pendingRewards.val = tally r.nodes (·.pendingRewards.val)
  records : r.distributedRewards.val = tally r.history.records (·.rewards.val)

structure RewardStep (t : Transition) : Prop where
  account : ∀ a, (t.after.pendingRewardsOf a).val + t.claimedBy a =
    (t.before.pendingRewardsOf a).val + t.earnedBy a
  nodes : tally t.after.nodes (·.pendingRewards.val) + t.claimed =
    tally t.before.nodes (·.pendingRewards.val) + t.distributed
  pending : t.after.pendingRewards.val + t.claimed = t.before.pendingRewards.val + t.distributed
  records : tally t.after.history.records (·.rewards.val) =
    tally t.before.history.records (·.rewards.val) + t.distributed
  total : t.after.distributedRewards.val = t.before.distributedRewards.val + t.distributed
  exact : t.Exact

namespace RewardStep

theorem of_idle (hk : RewardsKept t.before t.after) (claimed : t.claimed = 0)
    (credited : t.credited = []) (distributed : t.distributed = 0) (exact : t.Exact) :
    RewardStep t where
  account a := by simp [hk.account, Transition.claimedBy, Transition.earnedBy, claimed, credited]
  nodes := by simp [hk.nodes, claimed, distributed]
  pending := by simp [hk.pending, claimed, distributed]
  records := by simp [hk.records, distributed]
  total := by simp [hk.total, distributed]
  exact := exact

theorem of_failure {fault : Fault} (ha : t.after = t.before)
    (ho : t.outcome = .silent (.error fault)) : RewardStep t := by
  refine .of_idle (ha ▸ .of_nodes_eq rfl rfl rfl rfl) ?_ ?_ ?_ ⟨?_, ?_⟩
  · unfold Transition.claimed
    split <;> simp [ho, Outcome.silent]
  · unfold Transition.credited
    split <;> simp [ho, Outcome.silent]
  · simp [Transition.distributed, ho, Outcome.silent]
  · simp [ho, Outcome.silent]
  · simp [ho, Outcome.silent]

theorem of_kept (hk : RewardsKept t.before t.after) (hm : t.call.movesRewards = false) :
    RewardStep t := by
  refine .of_idle hk ?_ ?_ ?_ ⟨fun _ _ _ hc => ?_, fun _ hc => ?_⟩
  · unfold Transition.claimed
    split
    · rename_i hc
      simp [hc, Call.movesRewards] at hm
    · rfl
  · unfold Transition.credited
    split
    · rename_i hc
      simp [hc, Call.movesRewards] at hm
    · rfl
  · unfold Transition.distributed
    split
    · rename_i hc _
      simp [hc, Call.movesRewards] at hm
    · rfl
  · simp [hc, Call.movesRewards] at hm
  · simp [hc, Call.movesRewards] at hm

theorem of_distribution {p : Period} {candidates : List Account} {due : Payout}
    {challenger : Account} (hb : t.before.Balanced)
    (hc : t.call = .distributeRewards p candidates)
    (ho : t.outcome = ⟨.ok (.amount due.total),
      [.rewardsDistributed challenger p (due.credits.map (·.1)) due.total], []⟩)
    (hs : due.Sound t.before p)
    (nodes : t.after.nodes = due.creditTo p t.before.nodes)
    (history : t.after.history = t.before.history.put p { t.before.statsAt p with
      rewards := (t.before.statsAt p).rewards.addSat due.total, distributed := true })
    (pending : t.after.pendingRewards.val = t.before.pendingRewards.val + due.total.val)
    (total : t.after.distributedRewards.val = t.before.distributedRewards.val + due.total.val) :
    RewardStep t := by
  have claimed : t.claimed = 0 := by simp [Transition.claimed, hc]
  have credited : t.credited = due.credits.map (·.1) := by
    simp [Transition.credited, hc, ho, Event.rewarded]
  have distributed : t.distributed = due.total.val := by
    simp [Transition.distributed, hc, ho]
  -- The checked sums of the registry bound the saturating ones.
  have nodesFit : tally t.before.nodes (·.pendingRewards.val) + due.total.val ≤
      t.after.pendingRewards.val :=
    Nat.le_of_eq (by rw [← hb.pending, pending])
  have recorded : ((t.before.statsAt p).rewards.addSat due.total).val =
      (t.before.statsAt p).rewards.val + due.total.val := by
    have hle : (t.before.statsAt p).rewards.val ≤ t.before.distributedRewards.val := by
      rw [hb.records]
      exact History.figure_le_tally (·.rewards.val) fun _ => rfl
    have := t.after.distributedRewards.isLt
    rw [Quantity.val_addSat]
    omega
  have account (a : Account) : (t.after.pendingRewardsOf a).val =
      (t.before.pendingRewardsOf a).val + t.earnedBy a := by
    rw [Registry.pendingRewardsOf, nodes, hs.pending_creditTo nodesFit, Transition.earnedBy,
      credited]
    rfl
  refine ⟨fun a => ?_, ?_, ?_, ?_, ?_, ?_, ?_⟩
  · simp [account, Transition.claimedBy, claimed]
  · rw [nodes, hs.tally_creditTo nodesFit, claimed, distributed]
    rfl
  · rw [pending, claimed, distributed]
    rfl
  · rw [history, distributed]
    exact History.tally_put_add (·.rewards.val) (fun _ => rfl) recorded
  · rw [total, distributed]
  · intro p' candidates' answer hc' hr
    cases hc.symm.trans hc'
    rw [ho] at hr
    obtain rfl := Except.ok.inj hr
    refine ⟨due.total, rfl, ?_, account⟩
    rw [Registry.statsAt, history, History.statsAt_put_self, recorded]
  · intro answer hc'
    cases hc.symm.trans hc'

theorem of_claim (hb : t.before.Balanced) (hc : t.call = .claimRewards)
    (ho : t.outcome = ⟨.ok .nothing, [.rewardsClaimed t.ctx.caller n.pendingRewards],
      [.payment t.ctx.caller n.pendingRewards]⟩)
    (known : t.before.nodes[t.ctx.caller]? = some n) (positive : n.pendingRewards ≠ 0)
    (covered : n.pendingRewards.val ≤ t.ctx.available)
    (nodes : t.after.nodes = t.before.nodes.insert t.ctx.caller { n with pendingRewards := 0 })
    (pending : t.after.pendingRewards = t.before.pendingRewards.subSat n.pendingRewards)
    (total : t.after.distributedRewards = t.before.distributedRewards)
    (history : t.after.history = t.before.history) : RewardStep t := by
  have claimed : t.claimed = n.pendingRewards.val := by
    simp [Transition.claimed, hc, ho, Receipt.transferred, Receipt.payment,
      ReceiptAction.transferred]
  have credited : t.credited = [] := by simp [Transition.credited, hc]
  have distributed : t.distributed = 0 := by simp [Transition.distributed, hc]
  have owed : t.before.pendingRewardsOf t.ctx.caller = n.pendingRewards := by
    rw [Registry.pendingRewardsOf, known, Option.elim_some]
  -- What one node may claim is a part of the liability.
  have liable :
      t.after.pendingRewards.val + n.pendingRewards.val = t.before.pendingRewards.val := by
    have hle : n.pendingRewards.val ≤ t.before.pendingRewards.val := by
      rw [hb.pending]
      exact le_tally (f := (·.pendingRewards.val)) known
    rw [pending, Quantity.val_subSat]
    omega
  refine ⟨fun a => ?_, ?_, ?_, ?_, ?_, ?_, ?_⟩
  · rw [Transition.earnedBy, credited, if_neg List.not_mem_nil, Transition.claimedBy, claimed]
    by_cases ha : t.ctx.caller = a
    · rw [← ha, owed, if_pos rfl, Registry.pendingRewardsOf, nodes,
        ExtTreeMap.getElem?_insert_self, Option.elim_some]
      exact Nat.zero_add _
    · simp [Registry.pendingRewardsOf, nodes, ExtTreeMap.getElem?_insert, ha]
  · have ht := tally_insert t.before.nodes t.ctx.caller { n with pendingRewards := 0 }
      (·.pendingRewards.val)
    rw [known, Option.elim_some] at ht
    rw [nodes, claimed, distributed]
    exact ht
  · rw [claimed, distributed, liable]
    rfl
  · rw [history, distributed]
    rfl
  · rw [total, distributed]
    rfl
  · intro p candidates answer hc'
    cases hc.symm.trans hc'
  · intro answer _ _
    refine ⟨by rw [ho, owed], by rw [owed, liable], ?_⟩
    have hp : n.pendingRewards.val ≠ 0 := fun h => positive (Fin.ext h)
    rw [owed]
    unfold Context.available at covered
    omega

end RewardStep

theorem Transition.rewardStep (t : Transition) (hb : t.before.Balanced) : RewardStep t := by
  rcases t.cases with ⟨fault, ha, ho⟩ | ⟨answer, w, h, ha, ho⟩
  · exact .of_failure ha ho
  cases hm : t.call.movesRewards with
  | false => exact .of_kept (ha ▸ h.rewardsKept hm) hm
  | true =>
    obtain ⟨r, ctx, call⟩ := t
    cases h with
    | distributeRewards _ _ _ _ _ _ payout pending total =>
      refine .of_distribution hb rfl ho (Payout.sound_ofCandidates payout) ?_ ?_ ?_ ?_
      · rw [ha]
      · rw [ha]
        rfl
      · rw [ha]
        exact Quantity.add?_eq_some_iff.1 pending
      · rw [ha]
        exact Quantity.add?_eq_some_iff.1 total
    | claimRewards known positive covered =>
      refine .of_claim hb rfl ho known positive covered ?_ ?_ ?_ ?_ <;> rw [ha]
    | _ => cases hm

-- ---------------------------------------------------------------------------
-- Runs
-- ---------------------------------------------------------------------------

theorem Registry.Balanced.fresh {admin : Account} {config : Config} {now : Instant} :
    (Registry.fresh admin config now).Balanced where
  pending := (tally_empty _).symm
  records := (tally_empty _).symm

theorem RewardStep.balanced (h : RewardStep t) (hb : t.before.Balanced) : t.after.Balanced where
  pending := by
    have := h.pending
    have := h.nodes
    have := hb.pending
    omega
  records := by rw [h.total, h.records, hb.records]

namespace Run

theorem balanced (run : Run) : run.registry.Balanced := by
  induction run with
  | create admin config genesis r created =>
    obtain ⟨-, rfl⟩ := Registry.create_eq_ok_iff.1 created
    exact .fresh
  | call run ctx c ih => exact (Transition.rewardStep ⟨run.registry, ctx, c⟩ ih).balanced ih

theorem rewardStep (run : Run) (ctx : Context) (c : Call) :
    RewardStep ⟨run.registry, ctx, c⟩ :=
  Transition.rewardStep _ run.balanced

/-- Rewards are conserved: for each account, and in each place where they are booked. -/
structure RewardsConserved (run : Run) : Prop where
  account : ∀ a, (run.transitions.map (·.claimedBy a)).sum + (run.registry.pendingRewardsOf a).val =
    (run.transitions.map (·.earnedBy a)).sum
  pending : run.registry.pendingRewards.val = tally run.registry.nodes (·.pendingRewards.val)
  total : run.registry.distributedRewards.val =
    run.registry.pendingRewards.val + (run.transitions.map (·.claimed)).sum
  returned : run.registry.distributedRewards.val = (run.transitions.map (·.distributed)).sum
  records : run.registry.distributedRewards.val =
    tally run.registry.history.records (·.rewards.val)
  exact : ∀ t ∈ run.transitions, t.Exact

theorem rewards_conserved (run : Run) : run.RewardsConserved := by
  have pending := run.account (·.pendingRewards.val) (·.distributed) (·.claimed) rfl
    fun run ctx c => (run.rewardStep ctx c).pending
  have returned := run.account (·.distributedRewards.val) (·.distributed) (fun _ => 0) rfl
    fun run ctx c => (run.rewardStep ctx c).total
  simp only [List.map_const', List.sum_replicate_nat, Nat.mul_zero, Nat.add_zero] at returned
  refine ⟨fun a => ?_, run.balanced.pending, ?_, returned, run.balanced.records, fun t ht => ?_⟩
  · rw [Nat.add_comm]
    refine run.account (fun r => (r.pendingRewardsOf a).val) (·.earnedBy a) (·.claimedBy a) ?_
      fun run ctx c => (run.rewardStep ctx c).account a
    simp [Registry.pendingRewardsOf, Registry.fresh]
  · rw [returned, ← pending]
  · obtain ⟨earlier, hb, -⟩ := mem_transitions ht
    exact (t.rewardStep (hb ▸ earlier.balanced)).exact

/-- Ten units at the default rate, named twice and paid once. -/
example : (oneReward.transitions.map (·.claimedBy bob)).sum = 10_000_000 := by decide +kernel

end Run

end StorageIncentives
