import StorageIncentives.Proofs.BookingLedger
import StorageIncentives.Proofs.Earners
import StorageIncentives.Proofs.Traps

/-!
# When an internal error is reported

The class `internal` is for figures that outgrow their range and for an index that lost a node. On
the default terms the capacities, the rewards and the deadlines of a run stay far from their bounds,
and no index loses a node. One way to this class is left, and it needs no broken invariant: whoever
asks for more units than money can price is told of an overflow, before the deposit and the headroom
are looked at.
-/

namespace StorageIncentives

open Procedure Operation

def Rejection.IsInternal (cause : Rejection) : Prop :=
  ∃ detail, cause.report = .detailed .internal detail

theorem Rejection.isInternal_iff {cause : Rejection} : cause.IsInternal ↔
    (∃ figure, cause = .overflow figure) ∨ ∃ account, cause = .missingFromIndex account := by
  cases cause with
  | pauseUnchanged paused => cases paused <;> simp [IsInternal, report]
  | _ => simp [IsInternal, report, Report.onlyFor, Report.overflow]

variable {r : Registry} {ctx : Context} {call : Call} {answer : Answer} {w : World} {k : Nat}
  {units : Word} {made : List (Account × Word)} {cause : Rejection} {t : Transition}

namespace Config

variable {c : Config} {capacity : Word}

theorem validate_error (h : c.validate = .error cause) : cause = .configNotPositive ∨
    cause = .capacityBoundsCrossed c.minCapacity c.maxCapacity := by
  unfold validate at h
  split at h
  · exact .inl (Except.error.inj h).symm
  · split at h
    · exact .inr (Except.error.inj h).symm
    · cases h

theorem checkCapacity_error (h : c.checkCapacity capacity = .error cause) :
    cause = .capacityOutOfRange capacity c.minCapacity c.maxCapacity := by
  unfold checkCapacity at h
  split at h
  · cases h
  · exact (Except.error.inj h).symm

end Config

namespace Registry

/-- The call is turned down with an internal error. -/
def FailsInternally (r : Registry) (ctx : Context) (call : Call) : Prop :=
  ∃ cause, (r.perform ctx call).2.result = .error (.rejected cause) ∧ cause.IsInternal

theorem not_failsInternally
    (figures : ∀ figure, ¬ call.procedure.Fails ctx ⟨r, [], []⟩ (.rejected (.overflow figure)))
    (index : ∀ account,
      ¬ call.procedure.Fails ctx ⟨r, [], []⟩ (.rejected (.missingFromIndex account))) :
    ¬ r.FailsInternally ctx call := by
  rintro ⟨cause, failed, internal⟩
  rw [perform_eq_error_iff] at failed
  rcases Rejection.isInternal_iff.1 internal with ⟨figure, rfl⟩ | ⟨account, rfl⟩
  · exact figures figure failed
  · exact index account failed

-- ---------------------------------------------------------------------------
-- Capacities and deadlines
-- ---------------------------------------------------------------------------

theorem not_failsInternally_updateConfig {config : Config} :
    ¬ r.FailsInternally ctx (.updateConfig config) := by
  refine not_failsInternally (fun figure failed => ?_) fun account failed => ?_
  all_goals
    simp [Call.procedure, Call.quiet, updateConfig, and_assoc] at failed
    rcases Config.validate_error failed.2.2 with h | h <;> cases h

theorem not_failsInternally_registerNode {capacity : Word}
    (room : r.allocated.val + r.config.maxCapacity.val < 2 ^ 64) :
    ¬ r.FailsInternally ctx (.registerNode capacity) := by
  refine not_failsInternally (fun figure failed => ?_) fun account failed => ?_
  · simp [Call.procedure, Call.quiet, registerNode, map_error, and_assoc] at failed
    obtain ⟨-, refused | ⟨⟨_, inRange⟩, -, overflow, -⟩⟩ := failed
    · cases Config.checkCapacity_error refused
    · have largest : capacity.val ≤ r.config.maxCapacity.val :=
        (Config.checkCapacity_eq_ok_iff.1 inRange).2
      have := Quantity.add?_eq_none_iff.1 overflow
      omega
  · simp [Call.procedure, Call.quiet, registerNode, map_error] at failed
    cases Config.checkCapacity_error failed.2

theorem not_failsInternally_updateAllocation {capacity : Word}
    (room : r.allocated.val + r.config.maxCapacity.val < 2 ^ 64) :
    ¬ r.FailsInternally ctx (.updateAllocation capacity) := by
  refine not_failsInternally (fun figure failed => ?_) fun account failed => ?_
  · simp [Call.procedure, Call.quiet, updateAllocation, and_assoc] at failed
    obtain ⟨-, n, -, refused | ⟨⟨_, inRange⟩, -, others, rest, overflow, -⟩⟩ := failed
    · cases Config.checkCapacity_error refused
    · have largest : capacity.val ≤ r.config.maxCapacity.val :=
        (Config.checkCapacity_eq_ok_iff.1 inRange).2
      have remaining := Quantity.subOrTrap_eq_ok_iff.1 rest
      have := Quantity.add?_eq_none_iff.1 overflow
      omega
  · simp [Call.procedure, Call.quiet, updateAllocation] at failed
    cases Config.checkCapacity_error failed.2.2

theorem not_failsInternally_unregisterNode (hr : r.MembershipSound) :
    ¬ r.FailsInternally ctx .unregisterNode := by
  refine not_failsInternally (fun figure failed => ?_) fun account failed => ?_
  · simp [Call.procedure, Call.quiet, unregisterNode] at failed
  · exact hr.unregisterNode_ne_missingFromIndex (perform_eq_error_iff.2 failed)

theorem not_failsInternally_updateMetadata {metadata : Metadata} :
    ¬ r.FailsInternally ctx (.updateMetadata metadata) := by
  refine not_failsInternally (fun figure failed => ?_) fun account failed => ?_
  all_goals
    simp [Call.procedure, Call.quiet, updateMetadata] at failed
    rcases fails_requireMetadata failed.2 with h | h | h <;> cases h

theorem not_failsInternally_issueChallenge {id : String} {node : Account} {chunk : String}
    {nonce : Word} (room : ctx.now.val + r.config.challengeTimeout.val < 2 ^ 64) :
    ¬ r.FailsInternally ctx (.issueChallenge id node chunk nonce) := by
  refine not_failsInternally (fun figure failed => ?_) fun account failed => ?_
  · simp [Call.procedure, Call.quiet, issueChallenge, and_assoc] at failed
    obtain ⟨-, -, -, -, -, -, -, n, -, -, overflow, -⟩ := failed
    have := Quantity.add?_eq_none_iff.1 overflow
    omega
  · simp [Call.procedure, Call.quiet, issueChallenge] at failed

/-- Once its guards are passed, a proof is accepted. -/
theorem Sound.not_failsInternally_submitProof (hs : r.Sound) {id : String} {proof : Bytes} :
    ¬ r.FailsInternally ctx (.submitProof id proof) := by
  refine not_failsInternally (fun figure failed => ?_) fun account failed => ?_
  all_goals
    have guards := failed
    simp [Call.procedure, submitProof, and_assoc] at guards
    obtain ⟨running, short, c, known, pending, challenged, inTime, -⟩ := guards
    obtain ⟨w, accepts, -⟩ := hs.counters.accepts_submitProof hs.withinLife running known pending
      challenged.symm short inTime
    exact accepts.not_fails failed

theorem not_failsInternally_expireChallenges {ids : List String} :
    ¬ r.FailsInternally ctx (.expireChallenges ids) := by
  refine not_failsInternally (fun figure failed => ?_) fun account failed => ?_
  all_goals
    have guards := failed
    simp [Call.procedure, expireChallenges, and_assoc] at guards
    exact (Accepts.expireChallenges guards.1 guards.2.1).not_fails failed

-- ---------------------------------------------------------------------------
-- Rewards
-- ---------------------------------------------------------------------------

theorem not_failsInternally_distributeRewards {p : Period} {candidates : List Account}
    (pending : r.pendingRewards.val + r.dueSum (r.earners p candidates) < 2 ^ 128)
    (total : r.distributedRewards.val + r.dueSum (r.earners p candidates) < 2 ^ 128) :
    ¬ r.FailsInternally ctx (.distributeRewards p candidates) := by
  have payout {cause : Rejection} (refused : Payout.ofCandidates r p candidates = .error cause) :
      ∃ a, cause = .incompleteCoverage a p := by
    rcases Payout.ofCandidates_error refused with ⟨a, -, h, -⟩ | overflow
    · exact ⟨a, h⟩
    · omega
  refine not_failsInternally (fun figure failed => ?_) fun account failed => ?_
  · simp [Call.procedure, distributeRewards, and_assoc] at failed
    obtain ⟨-, -, _, -, -, -, -, refused | ⟨due, paid, failed⟩⟩ := failed
    · obtain ⟨_, refused⟩ := payout refused
      cases refused
    · have sum := (Payout.ofCandidates_ok paid).2.2
      rcases failed with ⟨overflow, -⟩ | ⟨-, overflow, -⟩
      · have := Quantity.add?_eq_none_iff.1 overflow
        omega
      · have := Quantity.add?_eq_none_iff.1 overflow
        omega
  · simp [Call.procedure, distributeRewards] at failed
    obtain ⟨-, -, _, -, -, -, -, refused⟩ := failed
    obtain ⟨_, refused⟩ := payout refused
    cases refused

-- ---------------------------------------------------------------------------
-- Bookings
-- ---------------------------------------------------------------------------

theorem perform_bookCapacity_unpriced (running : r.paused = false)
    (unpriced : 2 ^ 128 ≤ units.val * r.config.pricePerUnit.val) :
    r.perform ctx (.bookCapacity units) =
      (r, .silent (.error (.rejected (.overflow .bookingPrice)))) := by
  have none : Amount.ofUnits? units r.config.pricePerUnit = none :=
    Quantity.ofNat?_eq_none_iff.2 unpriced
  have positive : units ≠ 0 := by
    rintro rfl
    simp at unpriced
  refine perform_of_fails ?_
  simp [Call.procedure, Call.quiet, bookCapacity, and_assoc, running, positive, none]

theorem not_failsInternally_bookCapacity_paused (paused : r.paused = true) :
    ¬ r.FailsInternally ctx (.bookCapacity units) := by
  refine not_failsInternally (fun figure => ?_) fun account => ?_ <;>
    simp [Call.procedure, Call.quiet, bookCapacity, paused]

/-- A booking that can be priced is accepted once its guards are passed. -/
theorem LedgerOf.not_failsInternally_bookCapacity (hl : r.LedgerOf made)
    (priced : units.val * r.config.pricePerUnit.val < 2 ^ 128) :
    ¬ r.FailsInternally ctx (.bookCapacity units) := by
  obtain ⟨price, known⟩ : ∃ price, Amount.ofUnits? units r.config.pricePerUnit = some price :=
    ⟨⟨_, priced⟩, Quantity.ofNat?_eq_some_iff.2 rfl⟩
  refine not_failsInternally (fun figure failed => ?_) fun account failed => ?_
  all_goals
    have guards := failed
    simp [Call.procedure, Call.quiet, bookCapacity, and_assoc, known] at guards
    obtain ⟨running, positive, paid, fits, -⟩ := guards
    rw [← ne_eq, ← Quantity.pos_iff_ne_zero] at positive
    have can : r.CanBook ctx units := {
      running
      positive
      priced
      paid := Quantity.ofNat?_eq_some_iff.1 known ▸ paid
      room := (r.le_headroom_iff positive).1 fits }
    obtain ⟨answer, w, accepts⟩ := hl.exists_accepts can
    exact accepts.not_fails failed

end Registry

-- ---------------------------------------------------------------------------
-- Default terms
-- ---------------------------------------------------------------------------

namespace Registry

/-- What the default configuration bounds after `k` calls. -/
structure Modest (r : Registry) (k : Nat) : Prop where
  config : r.config = .default
  allocated : r.allocated.val ≤ k * 1_000_000
  pending : r.pendingRewards.val ≤ k * 2 ^ 72
  distributed : r.distributedRewards.val ≤ k * 2 ^ 72

namespace Modest

theorem fresh {admin : Account} {now : Instant} :
    (Registry.fresh admin .default now).Modest 0 where
  config := rfl
  allocated := Nat.le_refl _
  pending := Nat.le_refl _
  distributed := Nat.le_refl _

theorem mono {k' : Nat} (hr : r.Modest k) (hk : k ≤ k') : r.Modest k' where
  config := hr.config
  allocated := Nat.le_trans hr.allocated (Nat.mul_le_mul_right _ hk)
  pending := Nat.le_trans hr.pending (Nat.mul_le_mul_right _ hk)
  distributed := Nat.le_trans hr.distributed (Nat.mul_le_mul_right _ hk)

theorem capacity_le {capacity : Word} (hr : r.Modest k)
    (inRange : r.config.checkCapacity capacity = .ok ()) : capacity.val ≤ 1_000_000 := by
  have largest := (Config.checkCapacity_eq_ok_iff.1 inRange).2
  rw [hr.config] at largest
  exact largest

/-- A distribution pays each active node once. -/
theorem dueSum_le {p : Period} {l : List Account} (hr : r.Modest k) (hm : r.MembershipSound)
    (few : k < 2 ^ 32) : r.dueSum (r.earners p l) ≤ 2 ^ 72 := by
  have rate : r.config.rewardPerUnit.val = 1_000_000 := by
    rw [hr.config]
    rfl
  have shares := hm.dueSum_le (p := p) (l := l)
  have allocated := hr.allocated
  rw [rate] at shares
  omega

theorem step (h : Accepts r ctx call answer w) (hr : r.Modest k) (hm : r.MembershipSound)
    (few : k < 2 ^ 32) (keeps : ∀ config, call ≠ .updateConfig config) :
    w.registry.Modest (k + 1) := by
  have later := hr.mono (Nat.le_succ k)
  have before := hr.allocated
  cases h with
  | updateConfig _ _ _ _ => exact absurd rfl (keeps _)
  | @registerNode _ allocated _ _ _ inRange _ total _ _ =>
    have capacity := hr.capacity_le inRange
    have sum := Quantity.add?_eq_some_iff.1 total
    refine { later with allocated := ?_ }
    show allocated.val ≤ _
    omega
  | @updateAllocation _ others allocated _ _ _ _ inRange _ rest total _ =>
    have capacity := hr.capacity_le inRange
    have remaining := Quantity.subOrTrap_eq_ok_iff.1 rest
    have sum := Quantity.add?_eq_some_iff.1 total
    refine { later with allocated := ?_ }
    show allocated.val ≤ _
    omega
  | @unregisterNode allocated _ _ _ _ _ _ _ _ rest =>
    have remaining := Quantity.subOrTrap_eq_ok_iff.1 rest
    refine { later with allocated := ?_ }
    show allocated.val ≤ _
    omega
  | @distributeRewards period _ candidates due pendingRewards distributedRewards _ _ _ _ _ _ payout
      pending total =>
    have paid : due.total.val ≤ 2 ^ 72 :=
      (Payout.ofCandidates_ok payout).2.2 ▸ hr.dueSum_le hm few
    have pendingBefore := hr.pending
    have totalBefore := hr.distributed
    have pendingSum := Quantity.add?_eq_some_iff.1 pending
    have totalSum := Quantity.add?_eq_some_iff.1 total
    refine { later with pending := ?_, distributed := ?_ }
    · show pendingRewards.val ≤ _
      omega
    · show distributedRewards.val ≤ _
      omega
  | @claimRewards node _ _ _ =>
    refine { later with pending := ?_ }
    exact Nat.le_trans (Nat.sub_le r.pendingRewards.val node.pendingRewards.val) later.pending
  | _ => exact { later with }

/-- Only what cannot be priced fails internally. -/
theorem not_failsInternally (hr : r.Modest k) (hs : r.Sound) (hl : r.LedgerOf made)
    (few : k < 2 ^ 32) (inTime : ctx.now.val + Config.default.challengeTimeout.val < 2 ^ 64)
    (priced : r.paused = false → ∀ units, call = .bookCapacity units →
      units.val * Config.default.pricePerUnit.val < 2 ^ 128) :
    ¬ r.FailsInternally ctx call := by
  have allocated := hr.allocated
  have room : r.allocated.val + r.config.maxCapacity.val < 2 ^ 64 := by
    have largest : r.config.maxCapacity.val = 1_000_000 := by
      rw [hr.config]
      rfl
    omega
  cases call with
  | updateConfig _ => exact not_failsInternally_updateConfig
  | registerNode _ => exact not_failsInternally_registerNode room
  | updateAllocation _ => exact not_failsInternally_updateAllocation room
  | unregisterNode => exact not_failsInternally_unregisterNode hs.membership
  | updateMetadata _ => exact not_failsInternally_updateMetadata
  | issueChallenge _ _ _ _ => exact not_failsInternally_issueChallenge (hr.config ▸ inTime)
  | submitProof _ _ => exact hs.not_failsInternally_submitProof
  | expireChallenges _ => exact not_failsInternally_expireChallenges
  | distributeRewards period candidates =>
    have paid := hr.dueSum_le (p := period) (l := candidates) hs.membership few
    have pending := hr.pending
    have distributed := hr.distributed
    exact not_failsInternally_distributeRewards (by omega) (by omega)
  | bookCapacity units =>
    cases running : r.paused with
    | true => exact not_failsInternally_bookCapacity_paused running
    | false => exact hl.not_failsInternally_bookCapacity (hr.config ▸ priced running units rfl)
  | _ =>
    refine Registry.not_failsInternally (fun figure => ?_) fun account => ?_ <;>
      simp [Call.procedure, Call.quiet, transferAdmin, addChallenger, removeChallenger,
        addStorageAdmin, removeStorageAdmin, setPaused, fund, updateContract, migrate, claimRewards]

end Modest

end Registry

/-- The call asks for more units than money can price, and no pause is in the way. -/
def Transition.Unpriced (t : Transition) : Prop :=
  t.before.paused = false ∧ ∃ units, t.call = .bookCapacity units ∧
    2 ^ 128 ≤ units.val * Config.default.pricePerUnit.val

namespace Run

/-- The registry is created with the default configuration, no call replaces it, and the deadline of
a challenge issued at any call's time can be expressed. -/
def OnDefaultTerms : Run → Prop
  | .create _ config _ _ _ => config = .default
  | .call run ctx call => run.OnDefaultTerms ∧
    ctx.now.val + Config.default.challengeTimeout.val < 2 ^ 64 ∧
    ∀ config answer, call = .updateConfig config →
      (run.registry.perform ctx call).2.result ≠ .ok answer

theorem modest (run : Run) (terms : run.OnDefaultTerms) (few : run.transitions.length < 2 ^ 32) :
    run.registry.Modest run.transitions.length := by
  induction run with
  | create admin config genesis r created =>
    obtain ⟨-, rfl⟩ := Registry.create_eq_ok_iff.1 created
    obtain rfl : config = .default := terms
    exact .fresh
  | call run ctx call ih =>
    rw [length_transitions_call] at few ⊢
    have before := ih terms.1 (by omega)
    refine Transition.after_of_accepts (P := fun r => r.Modest _) ⟨run.registry, ctx, call⟩
      (before.mono (Nat.le_succ _)) fun {answer _} accepts => ?_
    refine before.step accepts run.membershipSound (by omega) fun config same => ?_
    exact terms.2.2 config answer same (by rw [perform_of_accepts accepts])

/-- Each call before the end of a run on default terms is a call on default terms. -/
theorem OnDefaultTerms.earlier {run : Run} (terms : run.OnDefaultTerms)
    (ht : t ∈ run.transitions) : ∃ earlier : Run, t.before = earlier.registry ∧
      earlier.OnDefaultTerms ∧ earlier.transitions.length ≤ run.transitions.length ∧
      t.ctx.now.val + Config.default.challengeTimeout.val < 2 ^ 64 := by
  induction run with
  | create => cases ht
  | call run ctx call ih =>
    have length := run.length_transitions_call ctx call
    rcases List.mem_append.1 ht with ht | ht
    · obtain ⟨earlier, before, kept, shorter, inTime⟩ := ih terms.1 ht
      exact ⟨earlier, before, kept, by omega, inTime⟩
    · obtain rfl := List.mem_singleton.1 ht
      exact ⟨run, rfl, terms.1, by omega, terms.2.1⟩

/-- On the default terms, a call fails internally if it asks for units that money cannot price, and
for no other reason. -/
theorem internal_errors_are_unpriced_bookings (run : Run) (terms : run.OnDefaultTerms)
    (few : run.transitions.length < 2 ^ 32) : ∀ t ∈ run.transitions,
      (t.before.FailsInternally t.ctx t.call ↔ t.Unpriced) ∧
      (t.Unpriced → t.outcome.result = .error (.rejected (.overflow .bookingPrice))) := by
  intro t ht
  obtain ⟨earlier, before, terms, shorter, inTime⟩ := terms.earlier ht
  have modest := earlier.modest terms (by omega)
  rw [← before] at modest
  have reported (unpriced : t.Unpriced) :
      t.outcome.result = .error (.rejected (.overflow .bookingPrice)) := by
    obtain ⟨running, units, call, large⟩ := unpriced
    rw [Transition.outcome, call,
      Registry.perform_bookCapacity_unpriced running (modest.config ▸ large)]
    rfl
  refine ⟨⟨fun internal => ?_, fun unpriced => ?_⟩, reported⟩
  · by_contra priced
    refine modest.not_failsInternally (before ▸ earlier.sound) (before ▸ earlier.ledgerOf)
      (by omega) inTime (fun running units call => ?_) internal
    exact Nat.lt_of_not_le fun large => priced ⟨running, units, call, large⟩
  · exact ⟨_, reported unpriced, Rejection.isInternal_iff.2 (.inl ⟨_, rfl⟩)⟩

theorem internal_errors_oneReward : oneReward.OnDefaultTerms ∧
    oneReward.transitions.length < 2 ^ 32 ∧
    ∀ t ∈ oneReward.transitions, ¬ t.before.FailsInternally t.ctx t.call := by
  have terms : oneReward.OnDefaultTerms := by
    refine ⟨⟨⟨⟨⟨rfl, ?_⟩, ?_⟩, ?_⟩, ?_⟩, ?_⟩ <;>
      exact ⟨by decide, fun _ _ update => nomatch update⟩
  refine ⟨terms, by decide, fun t ht internal => ?_⟩
  obtain ⟨-, units, call, -⟩ :=
    (internal_errors_are_unpriced_bookings oneReward terms (by decide) t ht).1.1 internal
  simp only [oneReward, transitions, List.nil_append, List.cons_append, List.mem_cons,
    List.not_mem_nil, or_false] at ht
  rcases ht with rfl | rfl | rfl | rfl | rfl <;> cases call

/-- Bob asks for as many units as a call can name. -/
def overpriced : Run :=
  let started := Run.create alice .default 0 (.fresh alice .default 0) create_default
  started.call (.plain bob 0) (.bookCapacity 18_446_744_073_709_551_615)

/-- Nothing is allocated, and the answer is an internal error. -/
theorem overpriced_fails_internally : overpriced.OnDefaultTerms ∧
    overpriced.transitions.length < 2 ^ 32 ∧
    ∃ t ∈ overpriced.transitions, t.before.FailsInternally t.ctx t.call := by
  refine ⟨⟨rfl, by decide, fun _ _ update => nomatch update⟩, by decide, _,
    List.mem_singleton.2 rfl, ?_⟩
  have unpriced : (Registry.fresh alice .default 0).perform (.plain bob 0)
      (.bookCapacity 18_446_744_073_709_551_615) = _ :=
    Registry.perform_bookCapacity_unpriced rfl (by decide)
  exact ⟨_, congrArg (·.2.result) unpriced, Rejection.isInternal_iff.2 (.inl ⟨_, rfl⟩)⟩

end Run

end StorageIncentives
