import StorageIncentives.Proofs.Failure
import StorageIncentives.Proofs.Run

/-!
# A rejection leaves no trace

A procedure that is turned down has written nothing, so nothing has to be undone for it. Every call
is put together in one way: first it reads and decides (`Checks`), then it writes what nothing can
turn down any more (`Commits`). The second half may still trap, and a trap can fall between two
writes; only rejections are free of traces.
-/

namespace StorageIncentives

open Procedure Operation

namespace Procedure

variable {α β : Type} {w : World}

/-- The procedure reads and may fail, and never writes. -/
def Checks (p : Procedure α) : Prop := ∀ ctx w, (p.runIn ctx w).2 = w

/-- The procedure is never turned down. -/
def Commits (p : Procedure α) : Prop := ∀ ctx w cause, ¬ p.Fails ctx w (.rejected cause)

/-- Wherever the procedure is turned down, it leaves the world that it met. -/
def Atomic (p : Procedure α) : Prop :=
  ∀ ctx w cause w', p.runIn ctx w = (.error (.rejected cause), w') → w' = w

/-- To write first and to decide afterwards is not atomic. -/
theorem not_atomic_update_reject {f : Registry → Registry} {cause : Rejection}
    (hf : f w.registry ≠ w.registry) :
    ¬ (update f >>= fun _ => (reject cause : Procedure α)).Atomic := by
  intro h
  have hw := h (.plain alice 0) w cause { w with registry := f w.registry } rfl
  exact hf (congrArg World.registry hw)

-- ---------------------------------------------------------------------------
-- Sequences
-- ---------------------------------------------------------------------------

theorem Checks.bind {x : Procedure α} {f : α → Procedure β} (hx : x.Checks)
    (hf : ∀ a, (f a).Checks) : (x >>= f).Checks := by
  intro ctx w
  have hw := hx ctx w
  rw [runIn_bind]
  cases hr : x.runIn ctx w with
  | mk result v =>
    obtain rfl : v = w := by rwa [hr] at hw
    cases result with
    | ok a => exact hf a ctx v
    | error _ => rfl

theorem Commits.bind {x : Procedure α} {f : α → Procedure β} (hx : x.Commits)
    (hf : ∀ a, (f a).Commits) : (x >>= f).Commits := by
  intro ctx w cause h
  rcases fails_bind.1 h with h | ⟨a, v, -, h⟩
  · exact hx ctx w cause h
  · exact hf a ctx v cause h

theorem Commits.ite {p : Prop} [Decidable p] {x y : Procedure α} (hx : x.Commits)
    (hy : y.Commits) : (if p then x else y).Commits := by
  split
  · exact hx
  · exact hy

theorem Atomic.of_commits {x : Procedure α} (hx : x.Commits) : x.Atomic :=
  fun ctx w cause w' h => absurd ⟨w', h⟩ (hx ctx w cause)

/-- What is checked before atomic work leaves it atomic. -/
theorem Atomic.check {x : Procedure α} {f : α → Procedure β} (hx : x.Checks)
    (hf : ∀ a, (f a).Atomic) : (x >>= f).Atomic := by
  intro ctx w cause w' h
  have hw := hx ctx w
  rw [runIn_bind] at h
  cases hr : x.runIn ctx w with
  | mk result v =>
    obtain rfl : v = w := by rwa [hr] at hw
    rw [hr] at h
    cases result with
    | ok a => exact hf a ctx v cause w' h
    | error _ => exact (Prod.mk.inj h).2.symm

/-- What follows atomic work may write, if it cannot be turned down. -/
theorem Atomic.bind_commits {x : Procedure α} {f : α → Procedure β} (hx : x.Atomic)
    (hf : ∀ a, (f a).Commits) : (x >>= f).Atomic := by
  intro ctx w cause w' h
  rw [runIn_bind] at h
  cases hr : x.runIn ctx w with
  | mk result v =>
    rw [hr] at h
    cases result with
    | ok a => exact absurd ⟨w', h⟩ (hf a ctx v cause)
    | error fault =>
      obtain ⟨he, rfl⟩ := Prod.mk.inj h
      obtain rfl := Except.error.inj he
      exact hx ctx w cause v hr

theorem Atomic.quiet {x : Procedure Unit} (hx : x.Atomic) : (Call.quiet x).Atomic :=
  hx.bind_commits fun _ => by simp [Commits]

theorem Atomic.answer {x : Procedure α} (hx : x.Atomic) (f : α → Answer) :
    (x >>= fun a => pure (f a)).Atomic :=
  hx.bind_commits fun _ => by simp [Commits]

-- ---------------------------------------------------------------------------
-- Checks
-- ---------------------------------------------------------------------------

namespace Checks

theorem pure {a : α} : (pure a : Procedure α).Checks := fun _ _ => rfl
theorem read : (read : Procedure Context).Checks := fun _ _ => rfl
theorem registry : registry.Checks := fun _ _ => rfl
theorem caller : caller.Checks := fun _ _ => rfl
theorem now : now.Checks := fun _ _ => rfl

theorem require {p : Prop} [Decidable p] {cause : Rejection} : (require p cause).Checks :=
  fun _ _ => by rw [runIn_require]

theorem found {value : Option α} {cause : Rejection} : (found value cause).Checks :=
  fun _ _ => by rw [runIn_found]

theorem accepted {e : Except Rejection α} : (accepted e).Checks :=
  fun _ _ => by rw [runIn_accepted]

theorem computed {e : Except Trap α} : (computed e).Checks :=
  fun _ _ => by rw [runIn_computed]

theorem currentPeriod : currentPeriod.Checks :=
  .bind .registry fun _ => .bind .now fun _ => .computed

theorem requireUnpaused : requireUnpaused.Checks := .bind .registry fun _ => .require

theorem requireAdmin : requireAdmin.Checks :=
  .bind .caller fun _ => .bind .registry fun _ => .require

theorem requireChallenger : requireChallenger.Checks :=
  .bind .registry fun _ => .bind .caller fun _ => .require

theorem requireOneYocto : requireOneYocto.Checks := .bind .read fun _ => .require

theorem forM_requireLabel {label : Label} {texts : List String} :
    (texts.forM (requireLabel label)).Checks := by
  induction texts with
  | nil => exact .pure
  | cons text texts ih => exact .bind .require fun _ => ih

theorem requireMetadata {metadata : Metadata} : (requireMetadata metadata).Checks :=
  .bind .require fun _ => .bind .require fun _ => .forM_requireLabel

end Checks

/-- The guards of administration come before anything else. -/
theorem Atomic.byAdmin {x : Procedure α} (hx : x.Atomic) :
    (requireOneYocto >>= fun _ => requireAdmin >>= fun _ => x).Atomic :=
  .check .requireOneYocto fun _ => .check .requireAdmin fun _ => hx

end Procedure

-- ---------------------------------------------------------------------------
-- Calls
-- ---------------------------------------------------------------------------

/-!
Each proof goes down the checks of its procedure, in their order, to the first write. From there
on the laws of `Fails` leave no rejection.
-/

namespace Operation

theorem atomic_transferAdmin {successor : Account} : (transferAdmin successor).Atomic :=
  .byAdmin <| .check .registry fun _ => .check .require fun _ => .of_commits (by simp [Commits])

theorem atomic_addChallenger {account : Account} : (addChallenger account).Atomic :=
  .byAdmin <| .check .registry fun _ => .check .found fun _ => .of_commits (by simp [Commits])

theorem atomic_removeChallenger {account : Account} : (removeChallenger account).Atomic :=
  .byAdmin <| .check .registry fun _ => .check .found fun _ => .of_commits (by simp [Commits])

theorem atomic_addStorageAdmin {account : Account} : (addStorageAdmin account).Atomic :=
  .byAdmin <| .check .registry fun _ => .check .found fun _ => .of_commits (by simp [Commits])

theorem atomic_removeStorageAdmin {account : Account} : (removeStorageAdmin account).Atomic :=
  .byAdmin <| .check .registry fun _ => .check .found fun _ => .of_commits (by simp [Commits])

theorem atomic_updateConfig {config : Config} : (updateConfig config).Atomic :=
  .byAdmin <| .check .accepted fun _ => .of_commits (by simp [Commits])

theorem atomic_setPaused {paused : Bool} : (setPaused paused).Atomic :=
  .byAdmin <| .check .registry fun _ => .check .require fun _ => .of_commits (by simp [Commits])

theorem atomic_fund : fund.Atomic :=
  .check .read fun _ => .check .require fun _ => .of_commits (by simp [Commits])

theorem atomic_updateContract : updateContract.Atomic :=
  .byAdmin <| .check .read fun _ => .check .require fun _ => .of_commits (by simp [Commits])

theorem atomic_migrate : migrate.Atomic := .of_commits (by simp [Commits, migrate])

theorem atomic_registerNode {capacity : Word} : (registerNode capacity).Atomic :=
  .check .requireUnpaused fun _ => .check .caller fun _ => .check .registry fun _ =>
    .check .accepted fun _ => .check .require fun _ => .check .found fun _ =>
    .of_commits (by simp [Commits])

theorem atomic_updateAllocation {capacity : Word} : (updateAllocation capacity).Atomic :=
  .check .requireUnpaused fun _ => .check .caller fun _ => .check .registry fun _ =>
    .check .found fun _ => .check .accepted fun _ => .check .require fun _ =>
    .check .computed fun _ => .check .found fun _ => .of_commits (by simp [Commits])

theorem atomic_unregisterNode : unregisterNode.Atomic :=
  .check .requireUnpaused fun _ => .check .caller fun _ => .check .registry fun _ =>
    .check .found fun _ => .check .require fun _ => .check .found fun _ =>
    .of_commits (by simp [Commits])

theorem atomic_updateMetadata {metadata : Metadata} : (updateMetadata metadata).Atomic :=
  .check .caller fun _ => .check .registry fun _ => .check .require fun _ =>
    .check .requireMetadata fun _ => .of_commits (by simp [Commits])

theorem atomic_issueChallenge {id chunk : String} {node : Account} {nonce : Word} :
    (issueChallenge id node chunk nonce).Atomic :=
  .check .requireUnpaused fun _ => .check .caller fun _ => .check .requireChallenger fun _ =>
    .check .require fun _ => .check .require fun _ => .check .registry fun _ =>
    .check .require fun _ => .check .found fun _ => .check .require fun _ =>
    .check .now fun _ => .check .found fun _ => .of_commits (by simp [Commits])

theorem commits_recordPass {node : Account} {issued : Period} :
    (recordPass node issued).Commits :=
  .bind (by simp [Commits]) fun _ => .bind (by simp [Commits]) fun _ => by
    split <;> simp [Commits]

/-- The verdict decides what is written, and neither verdict can be turned down. -/
theorem atomic_submitProof {id : String} {proof : Bytes} : (submitProof id proof).Atomic :=
  .check .requireUnpaused fun _ => .check .registry fun _ => .check .require fun _ =>
    .check .found fun _ => .check .require fun _ => .check .caller fun _ =>
    .check .require fun _ => .check .now fun _ => .check .require fun _ =>
    .of_commits <| .ite (.bind commits_recordPass fun _ => by simp [Commits]) (by simp [Commits])

theorem commits_expireChallenge {id : String} : (expireChallenge id).Commits :=
  .bind (by simp [Commits]) fun _ => by
    split
    · simp [Commits]
    · exact .bind (by simp [Commits]) fun _ => .ite (by simp [Commits]) (by simp [Commits])

theorem commits_expireAll {ids : List String} {k : Nat} :
    (ids.foldlM (fun count id => do
      return if ← expireChallenge id then count + 1 else count) k).Commits := by
  induction ids generalizing k with
  | nil => simp [Commits]
  | cons id ids ih =>
    rw [List.foldlM_cons]
    exact .bind (.bind commits_expireChallenge fun _ => by simp [Commits]) fun _ => ih

theorem atomic_expireChallenges {ids : List String} : (expireChallenges ids).Atomic :=
  .check .requireUnpaused fun _ => .check .require fun _ => .of_commits commits_expireAll

theorem atomic_distributeRewards {period : Period} {candidates : List Account} :
    (distributeRewards period candidates).Atomic :=
  .check .requireUnpaused fun _ => .check .caller fun _ => .check .requireChallenger fun _ =>
    .check .currentPeriod fun _ => .check .require fun _ => .check .require fun _ =>
    .check .registry fun _ => .check .require fun _ => .check .accepted fun _ =>
    .check .found fun _ => .check .found fun _ => .of_commits (by simp [Commits])

theorem atomic_claimRewards : claimRewards.Atomic :=
  .check .caller fun _ => .check .registry fun _ => .check .found fun _ =>
    .check .require fun _ => .check .read fun _ => .check .require fun _ =>
    .of_commits (by simp [Commits])

theorem atomic_bookCapacity {units : Word} : (bookCapacity units).Atomic :=
  .check .requireUnpaused fun _ => .check .caller fun _ => .check .read fun _ =>
    .check .registry fun _ => .check .require fun _ => .check .found fun _ =>
    .check .require fun _ => .check .require fun _ => .check .found fun _ =>
    .of_commits <| .bind (by simp [Commits]) fun _ => .bind (by simp [Commits]) fun _ =>
    .bind (by simp [Commits]) fun _ => .ite (by simp [Commits]) (by simp [Commits])

end Operation

namespace Call

theorem atomic (call : Call) : call.procedure.Atomic := by
  cases call with
  | transferAdmin _ => exact atomic_transferAdmin.quiet
  | addChallenger _ => exact atomic_addChallenger.quiet
  | removeChallenger _ => exact atomic_removeChallenger.quiet
  | addStorageAdmin _ => exact atomic_addStorageAdmin.quiet
  | removeStorageAdmin _ => exact atomic_removeStorageAdmin.quiet
  | updateConfig _ => exact atomic_updateConfig.quiet
  | setPaused _ => exact atomic_setPaused.quiet
  | fund => exact atomic_fund.quiet
  | updateContract => exact atomic_updateContract.quiet
  | migrate => exact atomic_migrate.quiet
  | registerNode _ => exact atomic_registerNode.quiet
  | updateAllocation _ => exact atomic_updateAllocation.quiet
  | unregisterNode => exact atomic_unregisterNode.quiet
  | updateMetadata _ => exact atomic_updateMetadata.quiet
  | issueChallenge _ _ _ _ => exact atomic_issueChallenge.quiet
  | submitProof _ _ => exact atomic_submitProof.answer .flag
  | expireChallenges _ => exact atomic_expireChallenges.answer .count
  | distributeRewards _ _ => exact atomic_distributeRewards.answer .amount
  | claimRewards => exact atomic_claimRewards.quiet
  | bookCapacity _ => exact atomic_bookCapacity.quiet

/-- A call that is turned down leaves the registry, the events and the receipts as it met them,
whatever they are. Nobody undoes anything here: what a body wrote before it stops is in `w'`. -/
theorem rejection_leaves_world {call : Call} {ctx : Context} {w w' : World} {cause : Rejection}
    (h : call.procedure.runIn ctx w = (.error (.rejected cause), w')) : w' = w :=
  call.atomic ctx w cause w' h

/-- At the end of time no deadline can be told, which shows after all other checks. -/
theorem rejection_leaves_world_endOfTime :
    ∃ w', (issueChallenge "second" bob "chunk" 0).procedure.runIn
        (.plain alice 18_446_744_073_709_551_615) ⟨Run.oneReward.registry, [], []⟩ =
          (.error (.rejected (.overflow .challengeDeadline)), w') ∧
      w' = ⟨Run.oneReward.registry, [], []⟩ := by
  have running : Run.oneReward.registry.paused = false := by decide +kernel
  have challenger : Run.oneReward.registry.isChallenger alice = true := by decide +kernel
  have fresh : "second" ∉ Run.oneReward.registry.challenges := by decide +kernel
  have known : Run.oneReward.registry.nodes[bob]? = some { Node.register bob 10 0 with
      challenges := 1, passed := 1, lastChallenged := some 0, lastRewarded := some 0
      periodChallenges := 1, periodPassed := 1 } := by decide +kernel
  have late : Quantity.add? 18_446_744_073_709_551_615
      Run.oneReward.registry.config.challengeTimeout = none := by decide +kernel
  have fails : (issueChallenge "second" bob "chunk" 0).procedure.Fails
      (.plain alice 18_446_744_073_709_551_615) ⟨Run.oneReward.registry, [], []⟩
      (.rejected (.overflow .challengeDeadline)) := by
    simp [Call.procedure, Call.quiet, Operation.issueChallenge, and_assoc, Context.plain, running,
      challenger, fresh, known, late, Node.register]
    decide
  obtain ⟨w', h⟩ := fails
  exact ⟨w', h, rejection_leaves_world h⟩

end Call

end StorageIncentives
