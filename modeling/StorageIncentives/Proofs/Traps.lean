import StorageIncentives.Proofs.BookingLedger
import StorageIncentives.Proofs.Expiry
import StorageIncentives.Proofs.Membership

/-!
# No trap is reachable

Each piece of arithmetic that could trap is covered by an invariant: the clock's by its anchor, the
subtractions from the allocated total by the sum that it is, the booked total by the headroom, the
counters by the number of challenges. Only that number and the counts of active nodes have no bound
of their own; they grow by one in a call, and no run is long enough to fill a word.
-/

namespace StorageIncentives

open Procedure Operation

variable {r : Registry} {ctx : Context} {a : Account} {n : Node} {trap : Trap} {k : Nat}

/-- What is left unbooked fits on top of what is booked, also where more is booked than allocated. -/
theorem Registry.exists_addOrTrap_booked {units : Word} (positive : units ≠ 0)
    (fits : units ≤ r.headroom) : ∃ booked, r.booked.addOrTrap units = .ok booked := by
  have room := (r.le_headroom_iff (Quantity.pos_iff_ne_zero.2 positive)).1 fits
  exact ⟨⟨_, Nat.lt_of_le_of_lt room r.allocated.isLt⟩, Quantity.addOrTrap_eq_ok_iff.2 rfl⟩

/-- Metadata is refused for one of its limits. -/
theorem fails_requireMetadata {metadata : Metadata} {w : World} {fault : Fault}
    (h : (requireMetadata metadata).Fails ctx w fault) :
    fault = .rejected .endpointTooLong ∨ fault = .rejected .tooManyPeerAddresses ∨
      fault = .rejected (.badLength .peerAddress) := by
  have labels (texts : List String)
      (h : (texts.forM (requireLabel .peerAddress)).Fails ctx w fault) :
      fault = .rejected (.badLength .peerAddress) := by
    induction texts with
    | nil => simp at h
    | cons text texts ih =>
      simp only [List.forM_eq_forM, List.forM_cons, fails_bind, fails_requireLabel,
        returns_requireLabel] at h
      rcases h with ⟨-, h⟩ | ⟨_, _, ⟨-, rfl⟩, h⟩
      · exact h.symm
      · exact ih h
  simp only [requireMetadata, fails_bind, fails_require, returns_require] at h
  rcases h with ⟨-, h⟩ | ⟨_, _, ⟨-, rfl⟩, ⟨-, h⟩ | ⟨_, _, ⟨-, rfl⟩, h⟩⟩
  · exact .inl h.symm
  · exact .inr (.inl h.symm)
  · exact .inr (.inr (labels _ h))

-- ---------------------------------------------------------------------------
-- Calls
-- ---------------------------------------------------------------------------

namespace Registry

/-- What the arithmetic of calls relies on. -/
structure Sound (r : Registry) : Prop where
  clock : r.ClockSound
  membership : r.MembershipSound
  counters : r.CountersAgree
  withinLife : r.ScopedWithinLife

/-- The call does not trap. -/
def Spares (r : Registry) (ctx : Context) (call : Call) : Prop :=
  ∀ trap, (r.perform ctx call).2.result ≠ .error (.trapped trap)

theorem spares_of_not_fails {call : Call}
    (h : ∀ trap, ¬ call.procedure.Fails ctx ⟨r, [], []⟩ (.trapped trap)) : r.Spares ctx call :=
  fun trap hf => h trap (perform_eq_error_iff.1 hf)

namespace Sound

variable (hs : r.Sound)
include hs

theorem periodAt_ne_error (t : Instant) : r.periodAt t ≠ .error trap :=
  ne_error_of_ok (hs.clock.wellFormed.exists_periodAt t)

theorem spares_updateConfig {config : Config} : r.Spares ctx (.updateConfig config) := by
  refine spares_of_not_fails fun trap hf => ?_
  simp [Call.procedure, Call.quiet, updateConfig, and_assoc] at hf
  obtain ⟨-, -, ⟨_, valid⟩, hf | ⟨clock, reanchored, hf⟩⟩ := hf
  · exact ne_error_of_ok (hs.clock.wellFormed.exists_reanchor _ _) hf
  · have positive := (Config.validate_eq_ok_iff.1 valid).1.2.2.2.2.1
    have wellFormed := hs.clock.wellFormed.reanchor positive reanchored
    exact ne_error_of_ok (wellFormed.exists_periodAt ctx.now) hf

theorem spares_registerNode {capacity : Word} (counted : r.history.CountsAtMost k)
    (room : k + 1 < 2 ^ 64) : r.Spares ctx (.registerNode capacity) := by
  refine spares_of_not_fails fun trap hf => ?_
  simp [Call.procedure, Call.quiet, registerNode, map_error, and_assoc] at hf
  obtain ⟨-, -, -, -, hf | ⟨p, -, hf⟩⟩ := hf
  · exact hs.periodAt_ne_error _ hf
  · have bound : (r.statsAt p).activeNodes.val ≤ k := counted.statsAt p
    exact ne_error_of_ok (Quantity.exists_succOrTrap (by omega)) hf

theorem spares_updateAllocation {capacity : Word} : r.Spares ctx (.updateAllocation capacity) := by
  refine spares_of_not_fails fun trap hf => ?_
  simp [Call.procedure, Call.quiet, updateAllocation, and_assoc] at hf
  obtain ⟨-, n, found, -, active, hf | ⟨-, -, -, hf⟩⟩ := hf
  · exact ne_error_of_ok (Quantity.exists_subOrTrap (hs.membership.le_allocated found active)) hf
  · exact hs.periodAt_ne_error _ hf

theorem spares_unregisterNode : r.Spares ctx .unregisterNode := by
  refine spares_of_not_fails fun trap hf => ?_
  simp [Call.procedure, Call.quiet, unregisterNode, and_assoc] at hf
  obtain ⟨-, n, found, active, -, hf | ⟨-, hf⟩⟩ := hf
  · exact hs.periodAt_ne_error _ hf
  · exact ne_error_of_ok (Quantity.exists_subOrTrap (hs.membership.le_allocated found active)) hf

theorem spares_issueChallenge {id : String} {node : Account} {chunk : String} {nonce : Word}
    (issued : r.challengesIssued.val ≤ k) (room : k + 1 < 2 ^ 64) :
    r.Spares ctx (.issueChallenge id node chunk nonce) := by
  refine spares_of_not_fails fun trap hf => ?_
  simp [Call.procedure, Call.quiet, issueChallenge, map_error, and_assoc] at hf
  obtain ⟨-, -, -, -, -, -, -, n, found, -, -, hf | ⟨p, -, hf | ⟨-, hf | ⟨-, hf⟩⟩⟩⟩ := hf
  · exact hs.periodAt_ne_error _ hf
  · have bound : (r.statsAt p).issued.val ≤ r.challengesIssued.val := hs.counters.issued_le p
    exact ne_error_of_ok (Quantity.exists_succOrTrap (by omega)) hf
  · have bound : n.challenges.val ≤ r.challengesIssued.val := hs.counters.challenges_le found
    exact ne_error_of_ok (Node.exists_recordChallenge (hs.withinLife _ n found) (by omega)) hf
  · exact ne_error_of_ok (Quantity.exists_succOrTrap (by omega)) hf

/-- A proof that passes its guards is accepted. -/
theorem spares_submitProof {id : String} {proof : Bytes} : r.Spares ctx (.submitProof id proof) := by
  intro trap hf
  have guards := perform_eq_error_iff.1 hf
  simp [Call.procedure, submitProof, and_assoc] at guards
  obtain ⟨running, short, c, known, pending, challenged, inTime, -⟩ := guards
  obtain ⟨w, accepts, -⟩ := hs.counters.accepts_submitProof hs.withinLife running known pending
    challenged.symm short inTime
  rw [perform_of_accepts accepts] at hf
  cases hf

theorem spares_distributeRewards {p : Period} {candidates : List Account} :
    r.Spares ctx (.distributeRewards p candidates) := by
  refine spares_of_not_fails fun trap hf => ?_
  simp [Call.procedure, distributeRewards, and_assoc] at hf
  exact hs.periodAt_ne_error _ hf.2.2

end Sound

theorem spares_updateMetadata {metadata : Metadata} : r.Spares ctx (.updateMetadata metadata) := by
  refine spares_of_not_fails fun trap hf => ?_
  simp [Call.procedure, Call.quiet, updateMetadata, and_assoc] at hf
  rcases fails_requireMetadata hf.2 with h | h | h <;> cases h

/-- An expiry that passes its guards is accepted. -/
theorem spares_expireChallenges {ids : List String} : r.Spares ctx (.expireChallenges ids) := by
  intro trap hf
  have guards := perform_eq_error_iff.1 hf
  simp [Call.procedure, expireChallenges, and_assoc] at guards
  rw [perform_of_accepts (.expireChallenges guards.1 guards.2.1)] at hf
  cases hf

theorem spares_bookCapacity {units : Word} : r.Spares ctx (.bookCapacity units) := by
  refine spares_of_not_fails fun trap hf => ?_
  simp [Call.procedure, Call.quiet, bookCapacity, and_assoc] at hf
  obtain ⟨-, positive, _, -, -, fits, _, -, hf | ⟨_, -, hf⟩⟩ := hf
  · exact ne_error_of_ok (exists_addOrTrap_booked positive fits) hf
  · split at hf <;> simp at hf

/-- No call traps as long as one more challenge and one more node can be counted. -/
theorem Sound.spares (hs : r.Sound) (sizes : r.SizesWithin k) (room : k + 1 < 2 ^ 64)
    (ctx : Context) (call : Call) : r.Spares ctx call := by
  cases call with
  | updateConfig _ => exact hs.spares_updateConfig
  | registerNode _ => exact hs.spares_registerNode sizes.counted room
  | updateAllocation _ => exact hs.spares_updateAllocation
  | unregisterNode => exact hs.spares_unregisterNode
  | updateMetadata _ => exact spares_updateMetadata
  | issueChallenge _ _ _ _ => exact hs.spares_issueChallenge sizes.issued room
  | submitProof _ _ => exact hs.spares_submitProof
  | expireChallenges _ => exact spares_expireChallenges
  | distributeRewards _ _ => exact hs.spares_distributeRewards
  | bookCapacity _ => exact spares_bookCapacity
  | _ =>
    refine spares_of_not_fails fun trap => ?_
    simp [Call.procedure, Call.quiet, transferAdmin, addChallenger, removeChallenger,
      addStorageAdmin, removeStorageAdmin, setPaused, fund, updateContract, migrate, claimRewards]

theorem Sound.exists_answer (hs : r.Sound) (now : Instant) (q : Query) :
    ∃ answer, Query.answer r now q = .ok answer := by
  obtain ⟨p, hp⟩ := hs.clock.wellFormed.exists_periodAt now
  have current : r.periodAt now = .ok p := hp
  cases q with
  | overview => exact ⟨_, by rw [Query.answer, overview, current]; rfl⟩
  | currentPeriod => exact ⟨_, by rw [Query.answer, current]; rfl⟩
  | _ => exact ⟨_, rfl⟩

-- ---------------------------------------------------------------------------
-- Arithmetic on numbers that are not checked
-- ---------------------------------------------------------------------------

/-- A booking is paid for before its price is taken off the deposit. -/
theorem refund_of_bookCapacity {units : Word} {e : Event}
    (he : e ∈ (r.perform ctx (.bookCapacity units)).2.events) :
    ∃ total price refund, e = .uploaderRegistered ctx.caller units total price refund ∧
      price.val + refund.val = ctx.deposit.val := by
  rcases perform_cases r ctx (.bookCapacity units) with ⟨_, h⟩ | ⟨answer, w, ha, h⟩
  · rw [h] at he
    cases he
  · rw [h] at he
    cases ha with
    | @bookCapacity _ total _ price _ _ _ paid _ _ _ =>
      exact ⟨total, price, ctx.deposit.subSat price, List.mem_singleton.1 he,
        Quantity.add_subSat paid⟩

theorem count_of_expireChallenges {ids : List String} {n : Nat}
    (h : (r.perform ctx (.expireChallenges ids)).2.result = .ok (.count n)) :
    n ≤ maxExpiryBatch := by
  rcases perform_cases r ctx (.expireChallenges ids) with ⟨_, hp⟩ | ⟨answer, w, ha, hp⟩
  · rw [hp] at h
    cases h
  · rw [hp] at h
    cases ha with
    | expireChallenges _ short =>
      obtain rfl := Answer.count.inj (Except.ok.inj h)
      rw [events_expireAll, List.nil_append, List.length_map]
      exact Nat.le_trans length_overdueOf_le short

end Registry

/-- What is held against the storage fits in the range of money. -/
theorem Context.storageCost_lt (ctx : Context) :
    ctx.storageUsage.val * Context.storageBytePrice < 2 ^ 128 := by
  have bound := ctx.storageUsage.isLt
  unfold Context.storageBytePrice
  omega

-- ---------------------------------------------------------------------------
-- Runs
-- ---------------------------------------------------------------------------

/-- Nothing that may be asked of the registry next traps or leaves the range of its numbers. -/
structure Registry.TrapFree (r : Registry) : Prop where
  calls : ∀ (ctx : Context) (call : Call) (trap : Trap),
    (r.perform ctx call).2.result ≠ .error (.trapped trap)
  queries : ∀ now q, ∃ answer, Query.answer r now q = .ok answer
  clock : r.clock.length = r.config.periodLength ∧ 0 < r.config.periodLength ∧
    r.clock.anchorPeriod ≤ r.clock.anchorInstant
  current : ∀ now, ∃ p, r.periodAt now = .ok p
  sizes : r.SizesWithin (2 ^ 32 - 1)
  positions : r.activeNodes.WellFormed ∧ r.challengers.WellFormed ∧ r.storageAdmins.WellFormed
  refunds : ∀ (ctx : Context) (units : Word) (e : Event),
    e ∈ (r.perform ctx (.bookCapacity units)).2.events →
      ∃ total price refund, e = .uploaderRegistered ctx.caller units total price refund ∧
        price.val + refund.val = ctx.deposit.val
  expiries : ∀ (ctx : Context) (ids : List String) (n : Nat),
    (r.perform ctx (.expireChallenges ids)).2.result = .ok (.count n) → n ≤ maxExpiryBatch
  storage : ∀ ctx : Context, ctx.storageUsage.val * Context.storageBytePrice < 2 ^ 128

namespace Run

theorem sound (run : Run) : run.registry.Sound :=
  ⟨run.clockSound, run.membershipSound, run.countersAgree, run.scopedWithinLife⟩

theorem trapFree (run : Run) (few : run.transitions.length < 2 ^ 32) :
    run.registry.TrapFree where
  calls := run.sound.spares run.sizesWithin (by omega)
  queries := run.sound.exists_answer
  clock := ⟨run.clockSound.length, (Config.validate_eq_ok_iff.1 run.clockSound.valid).1.2.2.2.2.1,
    run.clockSound.wellFormed.anchored⟩
  current := run.exists_periodAt
  sizes := run.sizesWithin.mono (by omega)
  positions := ⟨run.membershipSound.roster, run.rolesWellFormed.challengers,
    run.rolesWellFormed.storageAdmins⟩
  refunds _ _ _ := Registry.refund_of_bookCapacity
  expiries _ _ _ := Registry.count_of_expireChallenges
  storage := Context.storageCost_lt

/-- A run of fewer calls than 32 bits can count never traps: none of its calls did, and whatever is
called or asked next, after it or at any point of it, does not. -/
theorem never_traps (run : Run) (few : run.transitions.length < 2 ^ 32) :
    (∀ t ∈ run.transitions, t.before.TrapFree ∧
      ∀ trap, t.outcome.result ≠ .error (.trapped trap)) ∧ run.registry.TrapFree := by
  refine ⟨fun t ht => ?_, run.trapFree few⟩
  suffices before : t.before.TrapFree from ⟨before, before.calls t.ctx t.call⟩
  induction run with
  | create => cases ht
  | call run ctx c ih =>
    have length := run.length_transitions_call ctx c
    rcases List.mem_append.1 ht with ht | ht
    · exact ih (by omega) ht
    · rw [List.mem_singleton.1 ht]
      exact run.trapFree (by omega)

theorem never_traps_oneReward : oneReward.transitions.length < 2 ^ 32 ∧
    oneReward.transitions.length = 5 ∧ oneReward.registry.TrapFree :=
  ⟨by decide, rfl, (never_traps oneReward (by decide)).2⟩

end Run

end StorageIncentives
