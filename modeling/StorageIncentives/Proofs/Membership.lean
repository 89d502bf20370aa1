import StorageIncentives.Proofs.Failure
import StorageIncentives.Proofs.PeriodTotals
import StorageIncentives.Proofs.Roster

/-!
# Membership

Three structures tell which nodes are active: the records, the slots of the roster and the
positions in it; and the allocated total is the sum of what the active nodes hold. A call touches
them in one of four ways (`MembershipStep`), and all of these keep them in agreement. So a node that
is active is always found in the roster, and its capacity can be taken off the total.
-/

namespace StorageIncentives

open Std (ExtTreeMap)

/-- What membership reads of a node's record. -/
structure Holding where
  account : Account
  capacity : Word
  active : Bool

def Node.holding (n : Node) : Holding := ⟨n.account, n.capacity, n.active⟩

/-- The capacity that a node adds to the total. -/
def Node.activeCapacity (n : Node) : Nat := if n.active then n.capacity.val else 0

namespace Registry

def IsActive (r : Registry) (a : Account) : Prop := ∃ n, r.nodes[a]? = some n ∧ n.active = true

structure MembershipSound (r : Registry) : Prop where
  roster : r.activeNodes.WellFormed
  listed : ∀ a, a ∈ r.activeNodes.slots ↔ r.IsActive a
  nodes : ∀ (a : Account) (n : Node), r.nodes[a]? = some n → n.account = a ∧ 1 ≤ n.capacity
  allocated : r.allocated.val = tally r.nodes Node.activeCapacity

/-- The same account by account, and what the counts shown and an unregistration make of it. -/
structure MembershipAgrees (r : Registry) : Prop where
  nodup : r.activeNodes.slots.Nodup
  slots : ∀ a, a ∈ r.activeNodes.slots ↔ r.IsActive a
  positions : ∀ a, a ∈ r.activeNodes.positions ↔ r.IsActive a
  inverse : ∀ (a : Account) (i : Nat),
    r.activeNodes.positions[a]? = some i ↔ r.activeNodes.slots[i]? = some a
  nodes : ∀ (a : Account) (n : Node), r.nodes[a]? = some n → n.account = a ∧ 1 ≤ n.capacity
  allocated : r.allocated.val = tally r.nodes Node.activeCapacity
  nodeCount : ∀ now, Query.answer r now .nodeCount =
    .ok (.count (count r.nodes fun n => n.active = true))
  overview : ∀ now, ∃ o, Query.answer r now .overview = .ok (.overview o) ∧
    o.activeNodes = count r.nodes fun n => n.active = true
  found : ∀ (ctx : Context) (a : Account),
    (r.perform ctx .unregisterNode).2.result ≠ .error (.rejected (.missingFromIndex a))

end Registry

variable {r r' : Registry} {ctx : Context} {call : Call} {answer : Answer} {w : World}
  {a b : Account} {n : Node} {t : Transition}

-- ---------------------------------------------------------------------------
-- What a call does to membership
-- ---------------------------------------------------------------------------

/-- Each node holds what it held. -/
def HoldingsKept (nodes nodes' : ExtTreeMap Account Node) : Prop :=
  ∀ a : Account, (nodes'[a]?).map Node.holding = (nodes[a]?).map Node.holding

inductive MembershipStep (r r' : Registry) : Prop
  | kept (nodes : HoldingsKept r.nodes r'.nodes) (roster : r'.activeNodes = r.activeNodes)
      (allocated : r'.allocated = r.allocated)
  | joined {a : Account} {n : Node} (fresh : r.nodes[a]? = none)
      (nodes : r'.nodes = r.nodes.insert a n) (account : n.account = a)
      (active : n.active = true) (positive : 1 ≤ n.capacity)
      (roster : r'.activeNodes = r.activeNodes.push a)
      (allocated : r'.allocated.val = r.allocated.val + n.capacity.val)
  | resized {a : Account} {n : Node} {capacity : Word} (found : r.nodes[a]? = some n)
      (active : n.active = true) (nodes : r'.nodes = r.nodes.insert a { n with capacity })
      (positive : 1 ≤ capacity) (roster : r'.activeNodes = r.activeNodes)
      (allocated : r'.allocated.val + n.capacity.val = r.allocated.val + capacity.val)
  | left {a : Account} {n : Node} (found : r.nodes[a]? = some n) (active : n.active = true)
      (nodes : r'.nodes = r.nodes.insert a { n with active := false })
      (roster : r.activeNodes.erase? a = some r'.activeNodes)
      (allocated : r'.allocated.val + n.capacity.val = r.allocated.val)

theorem Config.one_le_of_checkCapacity {config : Config} {capacity : Word}
    (hv : config.validate = .ok ()) (hc : config.checkCapacity capacity = .ok ()) :
    1 ≤ capacity := by
  have hmin : 0 < config.minCapacity.val := (Config.validate_eq_ok_iff.1 hv).1.2.1
  have hle : config.minCapacity.val ≤ capacity.val := (Config.checkCapacity_eq_ok_iff.1 hc).1
  show 1 ≤ capacity.val
  omega

theorem Accepts.membershipStep (h : Accepts r ctx call answer w) (hs : r.ClockSound) :
    MembershipStep r w.registry := by
  cases h with
  | registerNode _ inRange fresh total _ _ =>
    exact .joined (ExtTreeMap.getElem?_eq_none fresh) rfl rfl rfl
      (Config.one_le_of_checkCapacity hs.valid inRange) rfl (Quantity.add?_eq_some_iff.1 total)
  | @updateAllocation capacity others allocated node _ _ found inRange active rest total _ =>
    refine .resized found active rfl (Config.one_le_of_checkCapacity hs.valid inRange) rfl ?_
    have hrest := Quantity.subOrTrap_eq_ok_iff.1 rest
    have htotal := Quantity.add?_eq_some_iff.1 total
    show allocated.val + node.capacity.val = _
    omega
  | unregisterNode _ found active listed _ rest =>
    exact .left found active rfl listed (Quantity.subOrTrap_eq_ok_iff.1 rest)
  | issueChallenge _ _ _ _ _ found _ _ _ _ recorded _ =>
    obtain ⟨_, _, -, -, rfl⟩ := Node.recordChallenge_ok recorded
    exact .kept (map_insert_same found rfl) rfl rfl
  | proofPassed _ _ _ _ _ _ _ _ recorded =>
    cases recorded with
    | known found passed =>
      obtain ⟨_, _, -, -, rfl⟩ := Node.recordPass_ok passed
      exact .kept (map_insert_same found rfl) rfl rfl
    | unknown _ => exact .kept (fun _ => rfl) rfl rfl
  | distributeRewards _ _ _ _ _ _ payout _ _ =>
    exact .kept ((Payout.sound_ofCandidates payout).map_creditTo fun _ _ => rfl) rfl rfl
  | claimRewards found _ _ => exact .kept (map_insert_same found rfl) rfl rfl
  | _ => exact .kept (fun _ => rfl) rfl rfl

-- ---------------------------------------------------------------------------
-- Agreement
-- ---------------------------------------------------------------------------

theorem Registry.isActive_insert (nodes : r'.nodes = r.nodes.insert a n) (b : Account) :
    r'.IsActive b ↔ if a = b then n.active = true else r.IsActive b := by
  rw [IsActive, nodes, ExtTreeMap.getElem?_insert]
  by_cases hab : a = b
  · simp [hab]
  · simp [hab, IsActive]

theorem HoldingsKept.isActive_iff (h : HoldingsKept r.nodes r'.nodes) (a : Account) :
    r'.IsActive a ↔ r.IsActive a := by
  have read (r : Registry) :
      r.IsActive a ↔ ((r.nodes[a]?).map Node.holding).any (·.active) = true := by
    rw [Registry.IsActive]
    cases r.nodes[a]? <;> simp [Node.holding]
  rw [read, read, h a]

theorem HoldingsKept.exists_of_some (h : HoldingsKept r.nodes r'.nodes)
    (hn : r'.nodes[a]? = some n) : ∃ k, r.nodes[a]? = some k ∧ k.holding = n.holding := by
  have := h a
  rw [hn, Option.map_some] at this
  exact Option.map_eq_some_iff.1 this.symm

namespace Registry.MembershipSound

theorem fresh {admin : Account} {config : Config} {now : Instant} :
    (Registry.fresh admin config now).MembershipSound where
  roster := .empty
  listed a := by simp [Registry.fresh, Roster.empty, IsActive]
  nodes a n hn := by simp [Registry.fresh] at hn
  allocated := (tally_empty _).symm

theorem le_allocated (h : r.MembershipSound) (found : r.nodes[a]? = some n)
    (active : n.active = true) : n.capacity ≤ r.allocated := by
  have hle := le_tally (f := Node.activeCapacity) found
  rw [← h.allocated, Node.activeCapacity, if_pos active] at hle
  exact hle

/-- The total follows a record that changes. -/
theorem allocated_insert {n' : Node} (hr : r.MembershipSound) (found : r.nodes[a]? = some n)
    (nodes : r'.nodes = r.nodes.insert a n')
    (change : r'.allocated.val + n.activeCapacity = r.allocated.val + n'.activeCapacity) :
    r'.allocated.val = tally r'.nodes Node.activeCapacity := by
  have sum := tally_insert_old (v := n') (f := Node.activeCapacity) found
  have before := hr.allocated
  rw [nodes]
  omega

theorem step (h : MembershipStep r r') (hr : r.MembershipSound) : r'.MembershipSound := by
  cases h with
  | kept nodes roster allocated =>
    refine ⟨roster ▸ hr.roster, fun a => ?_, fun a n hn => ?_, ?_⟩
    · rw [roster, nodes.isActive_iff]
      exact hr.listed a
    · obtain ⟨k, hk, he⟩ := nodes.exists_of_some hn
      have := hr.nodes a k hk
      rwa [show k.account = n.account from congrArg Holding.account he,
        show k.capacity = n.capacity from congrArg Holding.capacity he] at this
    · rw [allocated, hr.allocated]
      refine (tally_congr fun a => ?_).symm
      have := congrArg (Option.map fun h : Holding => if h.active then h.capacity.val else 0)
        (nodes a)
      rwa [Option.map_map, Option.map_map] at this
  | @joined a n fresh nodes account active positive roster allocated =>
    have absent : a ∉ r.activeNodes.slots := by
      rw [hr.listed]
      rintro ⟨k, hk, -⟩
      rw [fresh] at hk
      cases hk
    refine ⟨roster ▸ hr.roster.push absent, fun b => ?_, ?_, ?_⟩
    · rw [isActive_insert nodes, roster]
      show b ∈ r.activeNodes.slots ++ [a] ↔ _
      rw [List.mem_append, List.mem_singleton, hr.listed]
      by_cases hab : a = b
      · simp [hab, active]
      · simp [hab, Ne.symm hab]
    · rw [nodes]
      exact forall_getElem?_insert hr.nodes ⟨account, positive⟩
    · rw [nodes, tally_insert_new fresh, allocated, hr.allocated, Node.activeCapacity,
        if_pos active]
  | @resized a n capacity found active nodes positive roster allocated =>
    refine ⟨roster ▸ hr.roster, fun b => ?_, ?_, hr.allocated_insert found nodes ?_⟩
    · rw [isActive_insert nodes, roster, hr.listed]
      by_cases hab : a = b
      · subst hab
        exact iff_of_true ⟨n, found, active⟩ (by simpa using active)
      · simp [hab]
    · rw [nodes]
      exact forall_getElem?_insert hr.nodes ⟨(hr.nodes a n found).1, positive⟩
    · have old : n.activeCapacity = n.capacity.val := if_pos active
      have new : Node.activeCapacity { n with capacity } = capacity.val := if_pos active
      rw [old, new, allocated]
  | @left a n found active nodes roster allocated =>
    obtain ⟨wellFormed, mem⟩ := hr.roster.erase? roster
    refine ⟨wellFormed, fun b => ?_, ?_, hr.allocated_insert found nodes ?_⟩
    · rw [isActive_insert nodes, mem, hr.listed]
      by_cases hab : a = b
      · simp [hab]
      · simp [hab, Ne.symm hab]
    · rw [nodes]
      exact forall_getElem?_insert hr.nodes (hr.nodes a n found)
    · have old : n.activeCapacity = n.capacity.val := if_pos active
      have new : Node.activeCapacity { n with active := false } = 0 := if_neg Bool.false_ne_true
      rw [old, new, allocated, Nat.add_zero]

/-- Whoever passes the guards of an unregistration stands in the roster. -/
theorem unregisterNode_ne_missingFromIndex (h : r.MembershipSound) :
    (r.perform ctx .unregisterNode).2.result ≠ .error (.rejected (.missingFromIndex a)) := by
  intro hf
  obtain ⟨n, found, active, missing⟩ : ∃ n, r.nodes[ctx.caller]? = some n ∧ n.active = true ∧
      r.activeNodes.erase? ctx.caller = none := by
    rw [perform_eq_error_iff] at hf
    simp [Call.procedure, Call.quiet, Operation.unregisterNode, and_assoc] at hf
    obtain ⟨-, n, found, active, missing, -⟩ := hf
    exact ⟨n, found, active, missing⟩
  obtain ⟨roster, listed⟩ := h.roster.exists_erase? ((h.listed _).2 ⟨n, found, active⟩)
  rw [missing] at listed
  cases listed

end Registry.MembershipSound

-- ---------------------------------------------------------------------------
-- Runs
-- ---------------------------------------------------------------------------

namespace Run

theorem membershipSound (run : Run) : run.registry.MembershipSound := by
  refine (run.invariant (P := fun r => r.ClockSound ∧ r.MembershipSound) ?_ ?_).2
  · exact fun hv => ⟨.fresh hv, .fresh⟩
  · exact fun h hr => ⟨hr.1.step h, hr.2.step (h.membershipStep hr.1)⟩

theorem overview_answered (run : Run) (now : Instant) : ∃ p, run.registry.periodAt now = .ok p ∧
    Query.answer run.registry now .overview = .ok (.overview {
      version := run.registry.version
      currentPeriod := p
      activeNodes := run.registry.activeNodes.size
      allocated := run.registry.allocated
      booked := run.registry.booked
      uploaders := run.registry.bookings.size
      pendingRewards := run.registry.pendingRewards
      distributedRewards := run.registry.distributedRewards
      challengesIssued := run.registry.challengesIssued
      paused := run.registry.paused }) := by
  obtain ⟨p, hp⟩ := run.exists_periodAt now
  exact ⟨p, hp, by rw [Query.answer, Registry.overview, hp]; rfl⟩

/-- After every run, records, roster and total describe the same active nodes. -/
theorem membership_agrees (run : Run) : run.registry.MembershipAgrees := by
  have hs := run.membershipSound
  refine ⟨hs.roster.nodup, hs.listed, fun a => ?_, hs.roster, hs.nodes, hs.allocated,
    fun now => ?_, fun now => ?_, fun ctx a => hs.unregisterNode_ne_missingFromIndex⟩
  · exact (hs.roster.mem_positions a).trans (hs.listed a)
  · exact congrArg (fun n => Except.ok (Answer.count n)) run.rosterCounts
  · obtain ⟨p, -, ho⟩ := run.overview_answered now
    exact ⟨_, ho, run.rosterCounts⟩

end Run

end StorageIncentives
