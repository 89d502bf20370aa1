import StorageIncentives.Proofs.ChallengeLife
import StorageIncentives.Proofs.Membership

/-!
# The life of a node

An account registers once and its record stays. The record is active until the account leaves and
never again (`NodeStep`); it then keeps its capacity and what was counted and credited, pays out
what is pending at most once, and counts nothing but the passes of challenges that were pending when
it left.
-/

namespace StorageIncentives

open Std (ExtTreeMap)

variable {r : Registry} {ctx : Context} {call : Call} {answer : Answer} {w : World}
  {a b : Account} {n n' n'' : Node} {t : Transition} {id : String} {c : Challenge} {p : Period}

-- ---------------------------------------------------------------------------
-- What a call does to a record
-- ---------------------------------------------------------------------------

/-- The call of a transition is made by `a` and accepted. -/
structure Transition.AcceptedFrom (t : Transition) (a : Account) (call : Call) : Prop where
  caller : t.ctx.caller = a
  call : t.call = call
  accepted : ∃ answer, t.outcome.result = .ok answer

/-- What a call makes of the record of `a`. Its node registers, is resized, leaves, passes and
claims by its own calls; it is challenged and credited by those of others, and only while it is
active. -/
inductive NodeStep (t : Transition) (a : Account) : Option Node → Option Node → Prop
  | kept (n? : Option Node) : NodeStep t a n? n?
  | registered {capacity : Word} {period : Period}
      (own : t.AcceptedFrom a (.registerNode capacity))
      (current : t.before.periodAt t.ctx.now = .ok period) :
      NodeStep t a none (some (.register a capacity period))
  | resized {n : Node} {capacity : Word} (own : t.AcceptedFrom a (.updateAllocation capacity))
      (active : n.active = true) : NodeStep t a (some n) (some { n with capacity })
  | left {n : Node} (own : t.AcceptedFrom a .unregisterNode) (active : n.active = true) :
      NodeStep t a (some n) (some { n with active := false })
  | challenged {n n' : Node} {id chunk : String} {nonce : Word} {period : Period}
      (call : t.call = .issueChallenge id a chunk nonce) (active : n.active = true)
      (recorded : n.recordChallenge period = .ok n') : NodeStep t a (some n) (some n')
  | passed {n n' : Node} {id : String} {proof : Bytes} {c : Challenge}
      (own : t.AcceptedFrom a (.submitProof id proof))
      (known : t.before.challenges[id]? = some c) (challenged : c.node = a)
      (pending : c.status = .pending) (recorded : n.recordPass c.issued = .ok n') :
      NodeStep t a (some n) (some n')
  | credited {n : Node} {period : Period} {candidates : List Account} {reward : Amount}
      (call : t.call = .distributeRewards period candidates) (active : n.active = true) :
      NodeStep t a (some n) (some (n.credit period reward))
  | claimed {n : Node} (own : t.AcceptedFrom a .claimRewards) (positive : n.pendingRewards ≠ 0) :
      NodeStep t a (some n) (some { n with pendingRewards := 0 })

/-- A call that stores one record leaves all others alone. -/
theorem NodeStep.of_insert (after : t.after.nodes = t.before.nodes.insert b n)
    (stored : b = a → NodeStep t a t.before.nodes[a]? (some n)) :
    NodeStep t a t.before.nodes[a]? t.after.nodes[a]? := by
  rw [after, ExtTreeMap.getElem?_insert]
  by_cases hb : b = a
  · simpa [hb] using stored hb
  · simpa [hb] using .kept _

theorem NodeStep.of_payout {due : Payout} {candidates : List Account}
    (call : t.call = .distributeRewards p candidates) (sound : due.Sound t.before p)
    (after : t.after.nodes = due.creditTo p t.before.nodes) :
    NodeStep t a t.before.nodes[a]? t.after.nodes[a]? := by
  rw [after]
  rcases sound.creditTo_cases t.before.nodes p a with ⟨-, same⟩ | ⟨reward, listed, credited⟩
  · exact same ▸ .kept _
  · obtain ⟨n, found, active, -⟩ := sound.earned _ listed
    rw [credited, found]
    exact .credited call active

theorem Transition.nodeStep (t : Transition) (a : Account) :
    NodeStep t a t.before.nodes[a]? t.after.nodes[a]? := by
  rcases t.cases with ⟨fault, ha, -⟩ | ⟨answer, w, h, ha, ho⟩
  · exact ha ▸ .kept _
  have accepted : ∃ answer, t.outcome.result = .ok answer := ⟨answer, by rw [ho]⟩
  have after : t.after.nodes = w.registry.nodes := by rw [ha]
  obtain ⟨r, ctx, call⟩ := t
  cases h with
  | registerNode _ _ fresh _ current _ =>
    refine .of_insert after ?_
    rintro rfl
    rw [ExtTreeMap.getElem?_eq_none fresh]
    exact .registered ⟨rfl, rfl, accepted⟩ current
  | updateAllocation _ found _ active _ _ _ =>
    refine .of_insert after ?_
    rintro rfl
    rw [found]
    exact .resized ⟨rfl, rfl, accepted⟩ active
  | unregisterNode _ found active _ _ _ =>
    refine .of_insert after ?_
    rintro rfl
    rw [found]
    exact .left ⟨rfl, rfl, accepted⟩ active
  | issueChallenge _ _ _ _ _ found active _ _ _ recorded _ =>
    refine .of_insert after ?_
    rintro rfl
    rw [found]
    exact .challenged rfl active recorded
  | proofPassed _ _ known pending challenged _ _ _ recorded =>
    cases recorded with
    | known found passed =>
      refine .of_insert after ?_
      rintro rfl
      rw [found]
      exact .passed ⟨rfl, rfl, accepted⟩ known challenged (pending_of_not_resolved pending) passed
    | unknown _ => exact after ▸ .kept _
  | distributeRewards _ _ _ _ _ _ payout _ _ =>
    exact .of_payout rfl (Payout.sound_ofCandidates payout) after
  | claimRewards found positive _ =>
    refine .of_insert after ?_
    rintro rfl
    rw [found]
    exact .claimed ⟨rfl, rfl, accepted⟩ positive
  | _ => exact after ▸ .kept _

/-- Only active nodes are challenged. -/
theorem Transition.isActive_of_issued {chunk : String} {nonce : Word}
    (call : t.call = .issueChallenge id a chunk nonce) (accepted : t.issuedId? = some id) :
    t.before.IsActive a := by
  obtain ⟨_, _, _, _, -, result⟩ := issuedId?_eq_some_iff.1 accepted
  obtain ⟨_, ha, -⟩ := accepts_of_ok result
  rw [call] at ha
  cases ha with
  | issueChallenge _ _ _ _ _ found active _ _ _ _ _ => exact ⟨_, found, active⟩

-- ---------------------------------------------------------------------------
-- How a record ages
-- ---------------------------------------------------------------------------

namespace Node

/-- What stays of the record of an inactive node. -/
structure Retires (n n' : Node) : Prop where
  capacity : n'.capacity = n.capacity
  challenges : n'.challenges = n.challenges
  lastChallenged : n'.lastChallenged = n.lastChallenged
  periodChallenges : n'.periodChallenges = n.periodChallenges
  lastRewarded : n'.lastRewarded = n.lastRewarded
  pendingRewards : n'.pendingRewards = n.pendingRewards ∨ n'.pendingRewards = 0

theorem Retires.refl (n : Node) : n.Retires n := ⟨rfl, rfl, rfl, rfl, rfl, .inl rfl⟩

theorem Retires.trans (h : n.Retires n') (h' : n'.Retires n'') : n.Retires n'' where
  capacity := h'.capacity.trans h.capacity
  challenges := h'.challenges.trans h.challenges
  lastChallenged := h'.lastChallenged.trans h.lastChallenged
  periodChallenges := h'.periodChallenges.trans h.periodChallenges
  lastRewarded := h'.lastRewarded.trans h.lastRewarded
  pendingRewards := by
    rcases h'.pendingRewards with same | claimed
    · exact same ▸ h.pendingRewards
    · exact .inr claimed

/-- What a record may become. -/
structure Ages (n n' : Node) : Prop where
  account : n'.account = n.account
  registered : n'.registered = n.registered
  active : n'.active = true → n.active = true
  challenges : n.challenges ≤ n'.challenges
  passed : n.passed ≤ n'.passed
  retires : n.active = false → n.Retires n'

theorem Ages.refl (n : Node) : n.Ages n :=
  ⟨rfl, rfl, id, Fin.le_refl _, Fin.le_refl _, fun _ => .refl n⟩

theorem Ages.inactive (h : n.Ages n') (inactive : n.active = false) : n'.active = false :=
  Bool.eq_false_iff.2 fun active => Bool.eq_false_iff.1 inactive (h.active active)

theorem Ages.trans (h : n.Ages n') (h' : n'.Ages n'') : n.Ages n'' where
  account := h'.account.trans h.account
  registered := h'.registered.trans h.registered
  active active := h.active (h'.active active)
  challenges := Fin.le_trans h.challenges h'.challenges
  passed := Fin.le_trans h.passed h'.passed
  retires inactive := (h.retires inactive).trans (h'.retires (h.inactive inactive))

/-- What an active node may become needs no account of what stays when it is inactive. -/
theorem Ages.of_active (was : n.active = true) (account : n'.account = n.account)
    (registered : n'.registered = n.registered) (challenges : n.challenges ≤ n'.challenges)
    (passed : n.passed ≤ n'.passed) : n.Ages n' where
  account := account
  registered := registered
  active _ := was
  challenges := challenges
  passed := passed
  retires inactive := absurd was (Bool.eq_false_iff.1 inactive)

theorem Ages.recordChallenge (active : n.active = true) (h : n.recordChallenge p = .ok n') :
    n.Ages n' := by
  obtain ⟨challenges, _, counted, -, rfl⟩ := recordChallenge_ok h
  refine .of_active active rfl rfl ?_ (Fin.le_refl _)
  show n.challenges.val ≤ challenges.val
  omega

theorem Ages.recordPass (h : n.recordPass p = .ok n') : n.Ages n' := by
  obtain ⟨passed, _, counted, -, rfl⟩ := recordPass_ok h
  refine ⟨rfl, rfl, id, Fin.le_refl _, ?_, fun _ => ⟨rfl, rfl, rfl, rfl, rfl, .inl rfl⟩⟩
  show n.passed.val ≤ passed.val
  omega

end Node

theorem NodeStep.ages {after : Option Node} (h : NodeStep t a (some n) after) :
    ∃ n', after = some n' ∧ n.Ages n' := by
  cases h with
  | kept => exact ⟨n, rfl, .refl n⟩
  | resized _ active => exact ⟨_, rfl, .of_active active rfl rfl (Fin.le_refl _) (Fin.le_refl _)⟩
  | left _ active => exact ⟨_, rfl, .of_active active rfl rfl (Fin.le_refl _) (Fin.le_refl _)⟩
  | challenged _ active recorded => exact ⟨_, rfl, .recordChallenge active recorded⟩
  | passed _ _ _ _ recorded => exact ⟨_, rfl, .recordPass recorded⟩
  | credited _ active => exact ⟨_, rfl, .of_active active rfl rfl (Fin.le_refl _) (Fin.le_refl _)⟩
  | claimed _ _ =>
    exact ⟨_, rfl, rfl, rfl, id, Fin.le_refl _, Fin.le_refl _,
      fun _ => ⟨rfl, rfl, rfl, rfl, rfl, .inr rfl⟩⟩

theorem Transition.ages (t : Transition) (h : t.before.nodes[a]? = some n) :
    ∃ n', t.after.nodes[a]? = some n' ∧ n.Ages n' :=
  NodeStep.ages (h ▸ t.nodeStep a)

-- ---------------------------------------------------------------------------
-- Registering and claiming
-- ---------------------------------------------------------------------------

namespace Transition

def Registers (t : Transition) (a : Account) : Prop :=
  ∃ capacity, t.AcceptedFrom a (.registerNode capacity)

/-- The node of `a` is active before the call and not after it. -/
def Deactivates (t : Transition) (a : Account) : Prop :=
  t.before.IsActive a ∧ ¬ t.after.IsActive a

theorem AcceptedFrom.accepts (h : t.AcceptedFrom a call) : ∃ answer w,
    Accepts t.before t.ctx call answer w ∧ t.after = w.registry := by
  obtain ⟨answer, result⟩ := h.accepted
  obtain ⟨w, ha, after⟩ := accepts_of_ok result
  exact ⟨answer, w, h.call ▸ ha, after⟩

theorem Registers.before (h : t.Registers a) : t.before.nodes[a]? = none := by
  obtain ⟨capacity, own⟩ := h
  obtain ⟨_, _, ha, -⟩ := own.accepts
  cases ha with
  | registerNode _ _ fresh _ _ _ => exact ExtTreeMap.getElem?_eq_none (own.caller ▸ fresh)

theorem Registers.after (h : t.Registers a) : a ∈ t.after.nodes := by
  obtain ⟨capacity, own⟩ := h
  obtain ⟨_, _, ha, after⟩ := own.accepts
  rw [after]
  cases ha with
  | registerNode _ _ _ _ _ _ => exact own.caller ▸ ExtTreeMap.mem_insert_self

/-- A claim is of something, and leaves nothing. -/
theorem AcceptedFrom.claimed (h : t.AcceptedFrom a .claimRewards) :
    t.before.pendingRewardsOf a ≠ 0 ∧ t.after.pendingRewardsOf a = 0 := by
  obtain ⟨_, _, ha, after⟩ := h.accepts
  rw [after]
  cases ha with
  | claimRewards found positive _ =>
    rw [← h.caller, Registry.pendingRewardsOf, Registry.pendingRewardsOf, found,
      ExtTreeMap.getElem?_insert_self]
    exact ⟨positive, rfl⟩

end Transition

-- ---------------------------------------------------------------------------
-- Along a run
-- ---------------------------------------------------------------------------

namespace Run

variable {run later : Run} {now : Instant}

/-- A record is there from the registration on. -/
theorem mem_nodes_iff (run : Run) (a : Account) :
    a ∈ run.registry.nodes ↔ ∃ t ∈ run.transitions, t.Registers a := by
  induction run with
  | create admin config genesis r created =>
    obtain ⟨-, rfl⟩ := Registry.create_eq_ok_iff.1 created
    simp [registry, Registry.fresh, transitions]
  | call run ctx call ih =>
    let t : Transition := ⟨run.registry, ctx, call⟩
    have joins : a ∈ t.after.nodes ↔ a ∈ t.before.nodes ∨ t.Registers a := by
      constructor
      · intro member
        have step := t.nodeStep a
        rw [getElem?_pos _ _ member] at step
        cases found : t.before.nodes[a]? with
        | some n => exact .inl (ExtTreeMap.mem_iff_isSome_getElem?.2 (by rw [found]; rfl))
        | none =>
          rw [found] at step
          generalize t.after.nodes[a] = n at step
          cases step with
          | registered own _ => exact .inr ⟨_, own⟩
      · rintro (member | registers)
        · obtain ⟨n', found, -⟩ := t.ages (getElem?_pos t.before.nodes a member)
          exact ExtTreeMap.mem_iff_isSome_getElem?.2 (by rw [found]; rfl)
        · exact registers.after
    show a ∈ t.after.nodes ↔ _
    rw [joins, transitions]
    simp only [List.mem_append, List.mem_singleton, or_and_right, exists_or, exists_eq_left, ← ih]
    rfl

theorem registers_once (run : Run) (a : Account) :
    run.transitions.Pairwise fun t t' => ¬ (t.Registers a ∧ t'.Registers a) := by
  induction run with
  | create => exact List.Pairwise.nil
  | call run ctx call ih =>
    refine List.pairwise_append.2 ⟨ih, List.pairwise_singleton .., ?_⟩
    rintro t ht t' ht' ⟨first, second⟩
    obtain rfl := List.mem_singleton.1 ht'
    have member := (run.mem_nodes_iff a).2 ⟨t, ht, first⟩
    have absent : run.registry.nodes[a]? = none := second.before
    rw [getElem?_pos _ _ member] at absent
    cases absent

theorem node_lasts (run : Run) {t : Transition} (ht : t ∈ run.transitions)
    (h : t.after.nodes[a]? = some n) : ∃ n', run.registry.nodes[a]? = some n' ∧ n.Ages n' := by
  induction run with
  | create => cases ht
  | call run ctx call ih =>
    rcases List.mem_append.1 ht with ht | ht
    · obtain ⟨n', found, ages⟩ := ih ht
      obtain ⟨n'', found', ages'⟩ := Transition.ages ⟨run.registry, ctx, call⟩ found
      exact ⟨n'', found', ages.trans ages'⟩
    · obtain rfl := List.mem_singleton.1 ht
      exact ⟨n, h, .refl n⟩

theorem deactivates_once (run : Run) (a : Account) :
    run.transitions.Pairwise fun t t' => ¬ (t.Deactivates a ∧ t'.Deactivates a) := by
  induction run with
  | create => exact List.Pairwise.nil
  | call run ctx call ih =>
    refine List.pairwise_append.2 ⟨ih, List.pairwise_singleton .., ?_⟩
    rintro t ht t' ht' ⟨⟨⟨n, found, -⟩, left⟩, ⟨k, found', active⟩, -⟩
    obtain rfl := List.mem_singleton.1 ht'
    obtain ⟨n', after, -⟩ := t.ages found
    obtain ⟨_, lasts, ages⟩ := run.node_lasts ht after
    obtain rfl := Option.some.inj (lasts.symm.trans found')
    exact left ⟨n', after, ages.active active⟩

-- ---------------------------------------------------------------------------
-- After a node has left
-- ---------------------------------------------------------------------------

/-- The calls that `later` makes after `run`, which it goes on from. -/
def since (run later : Run) : List Transition := later.transitions.drop run.transitions.length

namespace LeadsTo

theorem length_le (h : run.LeadsTo now later) :
    run.transitions.length ≤ later.transitions.length := by
  induction h with
  | refl => exact Nat.le_refl _
  | call _ ctx call _ ih => exact Nat.le_trans ih (length_transitions_call .. ▸ Nat.le_succ _)

theorem since_call (h : run.LeadsTo now later) (ctx : Context) (call : Call) :
    run.since (later.call ctx call) = run.since later ++ [⟨later.registry, ctx, call⟩] := by
  rw [since, transitions, List.drop_append_of_le_length h.length_le, since]

/-- Each call since `run` meets the registry of a run in between. -/
theorem mem_since (h : run.LeadsTo now later) (ht : t ∈ run.since later) :
    ∃ between, run.LeadsTo now between ∧ t.before = between.registry := by
  induction h with
  | refl => simp [since] at ht
  | @call later h ctx call after ih =>
    rw [h.since_call, List.mem_append, List.mem_singleton] at ht
    rcases ht with ht | rfl
    · exact ih ht
    · exact ⟨later, h, rfl⟩

theorem ages (h : run.LeadsTo now later) (found : run.registry.nodes[a]? = some n) :
    ∃ n', later.registry.nodes[a]? = some n' ∧ n.Ages n' := by
  induction h with
  | refl => exact ⟨n, found, .refl n⟩
  | @call later _ ctx call _ ih =>
    obtain ⟨n', found', ages⟩ := ih
    obtain ⟨n'', found'', ages'⟩ := Transition.ages ⟨later.registry, ctx, call⟩ found'
    exact ⟨n'', found'', ages.trans ages'⟩

/-- Challenges of an inactive node that are pending were so when it was found inactive. -/
theorem pending_before (h : run.LeadsTo now later) (found : run.registry.nodes[a]? = some n)
    (inactive : n.active = false) (known : later.registry.challenges[id]? = some c)
    (challenged : c.node = a) (pending : c.status = .pending) :
    run.registry.challenges[id]? = some c := by
  induction h with
  | refl => exact known
  | @call later h ctx call _ ih =>
    have step := Transition.challengeStep ⟨later.registry, ctx, call⟩ id
    change ChallengeStep _ id later.registry.challenges[id]?
      (later.call ctx call).registry.challenges[id]? at step
    rw [known] at step
    generalize later.registry.challenges[id]? = before at step ih
    cases step with
    | kept _ _ => exact ih rfl
    | @issued node _ _ _ _ call accepted _ _ =>
      obtain rfl : node = a := challenged
      obtain ⟨n', found', ages⟩ := h.ages found
      obtain ⟨k, listed, active⟩ := Transition.isActive_of_issued call accepted
      obtain rfl := Option.some.inj (listed.symm.trans found')
      cases (ages.inactive inactive).symm.trans active
    | @answered c proof _ _ _ _ _ =>
      change ProofScheme.verdict proof = _ at pending
      unfold ProofScheme.verdict at pending
      split at pending <;> cases pending
    | expired _ _ _ _ => cases pending

end LeadsTo

end Run

namespace Registry

/-- What `a` has passed, over its life and in its last challenged period. -/
def passesOf (r : Registry) (a : Account) : Option (Word × Word) :=
  (r.nodes[a]?).map fun n => (n.passed, n.periodPassed)

end Registry

/-- A call pays an inactive node out, or leaves its pending rewards. -/
theorem Transition.pendingRewardsOf_cases (t : Transition) (found : t.before.nodes[a]? = some n)
    (inactive : n.active = false) :
    t.after.pendingRewardsOf a = t.before.pendingRewardsOf a ∨
      t.AcceptedFrom a .claimRewards ∧ t.after.pendingRewardsOf a = 0 := by
  have step := t.nodeStep a
  rw [Registry.pendingRewardsOf, Registry.pendingRewardsOf]
  rw [found] at step ⊢
  generalize t.after.nodes[a]? = after at step ⊢
  cases step with
  | kept | resized _ _ | left _ _ => exact .inl rfl
  | challenged _ active _ => cases inactive.symm.trans active
  | credited _ active => cases inactive.symm.trans active
  | passed _ _ _ _ recorded =>
    obtain ⟨_, _, -, -, rfl⟩ := Node.recordPass_ok recorded
    exact .inl rfl
  | claimed own _ => exact .inr ⟨own, rfl⟩

/-- An inactive node's passes are its own accepted proofs of pending challenges. -/
theorem Transition.proof_of_passesOf_ne (t : Transition) (found : t.before.nodes[a]? = some n)
    (inactive : n.active = false) (changed : t.after.passesOf a ≠ t.before.passesOf a) :
    ∃ id proof c, t.AcceptedFrom a (.submitProof id proof) ∧
      t.before.challenges[id]? = some c ∧ c.node = a ∧ c.status = .pending := by
  have step := t.nodeStep a
  rw [Registry.passesOf, Registry.passesOf] at changed
  rw [found] at step changed
  generalize t.after.nodes[a]? = after at step changed
  cases step with
  | kept | resized _ _ | left _ _ | credited _ _ | claimed _ _ => exact absurd rfl changed
  | challenged _ active _ => cases inactive.symm.trans active
  | passed own known challenged pending _ => exact ⟨_, _, _, own, known, challenged, pending⟩

namespace Run

/-- What calls do to `a`, which `run` leaves inactive with the record `n`. -/
structure Retirement (run : Run) (a : Account) (n : Node) (calls : List Transition) : Prop where
  record : ∀ t ∈ calls, ∃ n', t.after.nodes[a]? = some n' ∧ n'.active = false ∧ n.Retires n'
  rewards : ∀ t ∈ calls, t.after.pendingRewardsOf a = t.before.pendingRewardsOf a ∨
    t.AcceptedFrom a .claimRewards ∧ t.after.pendingRewardsOf a = 0
  claimedOnce : calls.Pairwise fun t t' =>
    ¬ (t.AcceptedFrom a .claimRewards ∧ t'.AcceptedFrom a .claimRewards)
  passes : ∀ t ∈ calls, t.after.passesOf a ≠ t.before.passesOf a →
    ∃ id proof c, t.AcceptedFrom a (.submitProof id proof) ∧
      run.registry.challenges[id]? = some c ∧ c.node = a ∧ c.status = .pending

namespace LeadsTo

variable {run later : Run} {now : Instant}

/-- A claim after which nothing was credited left nothing to claim. -/
theorem pendingRewardsOf_eq_zero (h : run.LeadsTo now later)
    (found : run.registry.nodes[a]? = some n) (inactive : n.active = false)
    (ht : t ∈ run.since later) (claimed : t.AcceptedFrom a .claimRewards) :
    later.registry.pendingRewardsOf a = 0 := by
  induction h with
  | refl => simp [since] at ht
  | @call later h ctx call after ih =>
    rw [h.since_call, List.mem_append, List.mem_singleton] at ht
    rcases ht with ht | rfl
    · obtain ⟨n', found', ages⟩ := h.ages found
      rcases Transition.pendingRewardsOf_cases ⟨later.registry, ctx, call⟩ found'
        (ages.inactive inactive) with same | ⟨-, zero⟩
      · exact same.trans (ih ht)
      · exact zero
    · exact claimed.claimed.2

theorem claims_once (h : run.LeadsTo now later) (found : run.registry.nodes[a]? = some n)
    (inactive : n.active = false) : (run.since later).Pairwise fun t t' =>
      ¬ (t.AcceptedFrom a .claimRewards ∧ t'.AcceptedFrom a .claimRewards) := by
  induction h with
  | refl => simp [since]
  | @call later h ctx call after ih =>
    rw [h.since_call]
    refine List.pairwise_append.2 ⟨ih, List.pairwise_singleton .., ?_⟩
    rintro t ht t' ht' ⟨first, second⟩
    obtain rfl := List.mem_singleton.1 ht'
    exact second.claimed.1 (h.pendingRewardsOf_eq_zero found inactive ht first)

theorem retirement (h : run.LeadsTo now later) (found : run.registry.nodes[a]? = some n)
    (inactive : n.active = false) : run.Retirement a n (run.since later) := by
  have met {t : Transition} (ht : t ∈ run.since later) : ∃ between, run.LeadsTo now between ∧
      t.before = between.registry ∧ ∃ n', t.before.nodes[a]? = some n' ∧ n.Ages n' := by
    obtain ⟨between, leads, before⟩ := h.mem_since ht
    exact ⟨between, leads, before, before ▸ leads.ages found⟩
  refine ⟨fun t ht => ?_, fun t ht => ?_, h.claims_once found inactive, fun t ht changed => ?_⟩
  · obtain ⟨_, -, -, n', found', ages⟩ := met ht
    obtain ⟨n'', found'', ages'⟩ := t.ages found'
    have aged := ages.trans ages'
    exact ⟨n'', found'', aged.inactive inactive, aged.retires inactive⟩
  · obtain ⟨_, -, -, n', found', ages⟩ := met ht
    exact t.pendingRewardsOf_cases found' (ages.inactive inactive)
  · obtain ⟨between, leads, before, n', found', ages⟩ := met ht
    obtain ⟨id, proof, c, own, known, challenged, pending⟩ :=
      t.proof_of_passesOf_ne found' (ages.inactive inactive) changed
    exact ⟨id, proof, c, own,
      leads.pending_before found inactive (before ▸ known) challenged pending, challenged, pending⟩

end LeadsTo

/-- The life of the node of `a` along a run, and beyond it once it is inactive. -/
structure NodeLife (run : Run) (a : Account) : Prop where
  registeredOnce : run.transitions.Pairwise fun t t' => ¬ (t.Registers a ∧ t'.Registers a)
  stored : a ∈ run.registry.nodes ↔ ∃ t ∈ run.transitions, t.Registers a
  step : ∀ t ∈ run.transitions, NodeStep t a t.before.nodes[a]? t.after.nodes[a]?
  lasts : ∀ t ∈ run.transitions, ∀ n, t.after.nodes[a]? = some n →
    ∃ n', run.registry.nodes[a]? = some n' ∧ n.Ages n'
  leavesOnce : run.transitions.Pairwise fun t t' => ¬ (t.Deactivates a ∧ t'.Deactivates a)
  retirement : ∀ n, run.registry.nodes[a]? = some n → n.active = false →
    ∀ later, run.LeadsTo 0 later → run.Retirement a n (run.since later)

/-- Every account of every run registers at most once, leaves at most once and keeps its record,
which after that changes by its own last passes and one claim only. -/
theorem nodes_live_once (run : Run) (a : Account) : run.NodeLife a where
  registeredOnce := run.registers_once a
  stored := run.mem_nodes_iff a
  step t _ := t.nodeStep a
  lasts _ ht _ h := run.node_lasts ht h
  leavesOnce := run.deactivates_once a
  retirement _ found inactive _ h := h.retirement found inactive

end Run

end StorageIncentives
