import StorageIncentives.Proofs.Conservation
import StorageIncentives.Proofs.NodeLife

/-!
# Pause

A pause stops the calls that move the economy, each at its first step. Of the others only a claim
touches what the economy holds, and it pays out what the caller is owed. All that a pause does not
stop does not look at the flag (`IgnoresPause`), so it goes on as if there were no pause.
-/

namespace StorageIncentives

open Std (ExtTreeMap)

/-- The calls that a pause stops. -/
def Call.stopsInPause : Call → Bool
  | .registerNode _ | .updateAllocation _ | .unregisterNode | .issueChallenge .. | .submitProof ..
  | .expireChallenges _ | .distributeRewards .. | .bookCapacity _ => true
  | _ => false

/-- The queries that tell whether there is a pause. -/
def Query.tellsPause : Query → Bool
  | .isPaused | .overview => true
  | _ => false

/-- A record without what its node may claim. -/
def Node.settled (n : Node) : Node := { n with pendingRewards := 0 }

/-- What a pause freezes. -/
structure Economy where
  challenges : ExtTreeMap String Challenge
  history : History
  bookings : Bookings
  booked : Word
  nodes : Account → Option Node
  activeNodes : Roster
  allocated : Word
  distributedRewards : Amount
  challengesIssued : Word

namespace Registry

def economy (r : Registry) : Economy where
  challenges := r.challenges
  history := r.history
  bookings := r.bookings
  booked := r.booked
  nodes a := (r.nodes[a]?).map Node.settled
  activeNodes := r.activeNodes
  allocated := r.allocated
  distributedRewards := r.distributedRewards
  challengesIssued := r.challengesIssued

def withPause (r : Registry) (paused : Bool) : Registry := { r with paused }

/-- What a pause does to a registry: it turns some calls down. All others, and the queries, go as
they would without it. -/
structure StopsOnlyEconomy (r : Registry) : Prop where
  stopped : ∀ (ctx : Context) (call : Call), call.stopsInPause = true →
    r.perform ctx call = (r, .silent (.error (.rejected .paused)))
  unaffected : ∀ (ctx : Context) (call : Call), call.stopsInPause = false →
    (∀ paused, call ≠ .setPaused paused) →
      (r.perform ctx call).1.paused = r.paused ∧
        (r.withPause false).perform ctx call =
          ((r.perform ctx call).1.withPause false, (r.perform ctx call).2)
  queries : ∀ (now : Instant) (q : Query), q.tellsPause = false →
    Query.answer (r.withPause false) now q = Query.answer r now q
  overview : ∀ now, (r.withPause false).overview now =
    (r.overview now).map fun o => { o with paused := false }

end Registry

def World.withPause (w : World) (paused : Bool) : World :=
  { w with registry := w.registry.withPause paused }

def Transition.SwitchesPause (t : Transition) : Prop :=
  ∃ paused answer, t.call = .setPaused paused ∧ t.outcome.result = .ok answer

/-- What `later` keeps of the registry that `run` leaves: all but what nodes claim in between. -/
structure Run.Freezes (run later : Run) : Prop where
  paused : later.registry.paused = true
  economy : later.registry.economy = run.registry.economy
  rewards : ∀ a, later.registry.pendingRewardsOf a = run.registry.pendingRewardsOf a ∨
    later.registry.pendingRewardsOf a = 0 ∧ ∃ t ∈ run.since later,
      t.AcceptedFrom a .claimRewards ∧
        t.outcome.receipts = [.payment a (run.registry.pendingRewardsOf a)]

variable {r : Registry} {ctx : Context} {call : Call} {answer : Answer} {w : World} {a : Account}

-- ---------------------------------------------------------------------------
-- The economy
-- ---------------------------------------------------------------------------

theorem Accepts.economy_paused (h : Accepts r ctx call answer w) (paused : r.paused = true) :
    w.registry.economy = r.economy := by
  cases h with
  | @claimRewards node known _ _ =>
    have nodes := funext (map_insert_same (f := Node.settled) (v := node.settled) known rfl)
    exact congrArg (fun nodes => { r.economy with nodes }) nodes
  | registerNode running _ _ _ _ _ | updateAllocation running _ _ _ _ _ _
  | unregisterNode running _ _ _ _ _ | issueChallenge running _ _ _ _ _ _ _ _ _ _ _
  | proofPassed running _ _ _ _ _ _ _ _ | proofFailed running _ _ _ _ _ _
  | expireChallenges running _ | distributeRewards running _ _ _ _ _ _ _ _
  | bookCapacity running _ _ _ _ _ _ => cases paused.symm.trans running
  | _ => rfl

theorem Accepts.paused_kept (h : Accepts r ctx call answer w)
    (other : ∀ paused, call ≠ .setPaused paused) : w.registry.paused = r.paused := by
  cases h with
  | setPaused _ _ => exact absurd rfl (other _)
  | _ => rfl

namespace Transition

theorem economy_paused (t : Transition) (paused : t.before.paused = true) :
    t.after.economy = t.before.economy :=
  t.after_of_accepts (P := fun r => r.economy = t.before.economy) rfl (·.economy_paused paused)

theorem paused_kept (t : Transition) (quiet : ¬ t.SwitchesPause) :
    t.after.paused = t.before.paused := by
  rcases t.cases with ⟨_, same, -⟩ | ⟨answer, w, accepts, same, outcome⟩
  · rw [same]
  · rw [same]
    exact accepts.paused_kept fun paused call => quiet ⟨paused, answer, call, by rw [outcome]⟩

/-- In a pause a call pays out all that is pending for its caller, or leaves it. -/
theorem pendingRewardsOf_paused (t : Transition) (paused : t.before.paused = true) (a : Account) :
    t.after.pendingRewardsOf a = t.before.pendingRewardsOf a ∨
      t.after.pendingRewardsOf a = 0 ∧ t.AcceptedFrom a .claimRewards ∧
        t.outcome.receipts = [.payment a (t.before.pendingRewardsOf a)] := by
  rcases t.cases with ⟨_, same, -⟩ | ⟨answer, w, accepts, same, outcome⟩
  · exact .inl (by rw [same])
  cases moves : t.call.movesRewards with
  | false =>
    rw [same]
    exact .inl ((accepts.rewardsKept moves).account a)
  | true =>
    obtain ⟨r, ctx, call⟩ := t
    cases accepts with
    | distributeRewards running _ _ _ _ _ _ _ _ => cases paused.symm.trans running
    | @claimRewards node known _ _ =>
      rw [same, outcome]
      by_cases own : ctx.caller = a
      · subst own
        refine .inr ⟨?_, ⟨rfl, rfl, _, by rw [outcome]⟩, ?_⟩
        · simp [Registry.pendingRewardsOf]
        · simp [Registry.pendingRewardsOf, known]
      · left
        simp [Registry.pendingRewardsOf, getElem?_insert_of_ne (Ne.symm own)]
    | _ => cases moves

end Transition

namespace Run.LeadsTo

variable {run later : Run} {now : Instant}

/-- As long as nobody lifts the pause, the economy stands still. -/
theorem freezes (h : run.LeadsTo now later) (paused : run.registry.paused = true)
    (quiet : ∀ t ∈ run.since later, ¬ t.SwitchesPause) : run.Freezes later := by
  induction h with
  | refl => exact ⟨paused, rfl, fun _ => .inl rfl⟩
  | @call later h ctx call after ih =>
    let t : Transition := ⟨later.registry, ctx, call⟩
    rw [h.since_call] at quiet
    obtain ⟨still, economy, rewards⟩ := ih fun t ht => quiet t (List.mem_append_left _ ht)
    have last : t ∈ run.since later ++ [t] := List.mem_append_right _ (List.mem_singleton_self t)
    refine ⟨(t.paused_kept (quiet t last)).trans still, (t.economy_paused still).trans economy,
      fun a => ?_⟩
    rw [h.since_call]
    rcases t.pendingRewardsOf_paused still a with kept | ⟨nothing, own, receipts⟩
    · refine (rewards a).imp kept.trans ?_
      rintro ⟨nothing, t', ht', paid⟩
      exact ⟨kept.trans nothing, t', List.mem_append_left _ ht', paid⟩
    · -- What was paid out before cannot be claimed again.
      have owed : later.registry.pendingRewardsOf a = run.registry.pendingRewardsOf a :=
        (rewards a).resolve_right fun paid => own.claimed.1 paid.1
      exact .inr ⟨nothing, t, last, own, owed ▸ receipts⟩

end Run.LeadsTo

-- ---------------------------------------------------------------------------
-- Procedures that do not look at the flag
-- ---------------------------------------------------------------------------

namespace Procedure

variable {α β : Type}

/-- The procedure does the same whatever the flag is, and keeps it. -/
def IgnoresPause (p : Procedure α) : Prop := ∀ (paused : Bool) (ctx : Context) (w : World),
  p.runIn ctx (w.withPause paused) = ((p.runIn ctx w).1, (p.runIn ctx w).2.withPause paused)

namespace IgnoresPause

theorem bind {x : Procedure α} {f : α → Procedure β} (hx : x.IgnoresPause)
    (hf : ∀ a, (f a).IgnoresPause) : (x >>= f).IgnoresPause := by
  intro paused ctx w
  rw [runIn_bind, runIn_bind, hx]
  cases x.runIn ctx w with
  | mk result v =>
    cases result with
    | ok a => exact hf a paused ctx v
    | error _ => rfl

/-- What is read of the registry must not be the flag. -/
theorem registry {f : Registry → Procedure β} (blind : ∀ r paused, f (r.withPause paused) = f r)
    (hf : ∀ r, (f r).IgnoresPause) : (Procedure.registry >>= f).IgnoresPause := by
  intro paused ctx w
  rw [runIn_bind, runIn_bind]
  show (f (w.registry.withPause paused)).runIn ctx _ = _
  rw [blind]
  exact hf w.registry paused ctx w

theorem update {f : Registry → Registry}
    (keeps : ∀ r paused, f (r.withPause paused) = (f r).withPause paused) :
    (update f).IgnoresPause := by
  intro paused ctx w
  rw [runIn_update, runIn_update]
  show (_, { w with registry := f (w.registry.withPause paused) }) = _
  rw [keeps]
  rfl

theorem pure {a : α} : (pure a : Procedure α).IgnoresPause := fun _ _ _ => rfl
theorem read : (read : Procedure Context).IgnoresPause := fun _ _ _ => rfl
theorem caller : caller.IgnoresPause := fun _ _ _ => rfl
theorem now : now.IgnoresPause := fun _ _ _ => rfl
theorem emit {e : Event} : (emit e).IgnoresPause := fun _ _ _ => rfl
theorem promise {r : Receipt} : (promise r).IgnoresPause := fun _ _ _ => rfl

theorem require {p : Prop} [Decidable p] {cause : Rejection} : (require p cause).IgnoresPause :=
  fun _ _ _ => by rw [runIn_require, runIn_require]

theorem found {value : Option α} {cause : Rejection} : (found value cause).IgnoresPause :=
  fun _ _ _ => by rw [runIn_found, runIn_found]

theorem accepted {e : Except Rejection α} : (accepted e).IgnoresPause :=
  fun _ _ _ => by rw [runIn_accepted, runIn_accepted]

theorem computed {e : Except Trap α} : (computed e).IgnoresPause :=
  fun _ _ _ => by rw [runIn_computed, runIn_computed]

theorem currentPeriod : currentPeriod.IgnoresPause :=
  .registry (fun _ _ => rfl) fun _ => .bind .now fun _ => .computed

theorem requireOneYocto : requireOneYocto.IgnoresPause := .bind .read fun _ => .require

theorem requireAdmin : requireAdmin.IgnoresPause :=
  .bind .caller fun _ => .registry (fun _ _ => rfl) fun _ => .require

theorem setNode {a : Account} {n : Node} : (setNode a n).IgnoresPause := .update fun _ _ => rfl

theorem forM_requireLabel {label : Label} {texts : List String} :
    (texts.forM (requireLabel label)).IgnoresPause := by
  induction texts with
  | nil => exact .pure
  | cons text texts ih => exact .bind .require fun _ => ih

end IgnoresPause

theorem IgnoresPause.byAdmin {x : Procedure α} (hx : x.IgnoresPause) :
    (Procedure.requireOneYocto >>= fun _ => Procedure.requireAdmin >>= fun _ => x).IgnoresPause :=
  .bind .requireOneYocto fun _ => .bind .requireAdmin fun _ => hx

theorem IgnoresPause.write {f : Registry → Registry} {e : Event}
    (keeps : ∀ r paused, f (r.withPause paused) = (f r).withPause paused) :
    (Procedure.update f >>= fun _ => Procedure.emit e).IgnoresPause :=
  .bind (.update keeps) fun _ => .emit

theorem IgnoresPause.quiet {x : Procedure Unit} (hx : x.IgnoresPause) :
    (Call.quiet x).IgnoresPause :=
  .bind hx fun _ => .pure

end Procedure

-- ---------------------------------------------------------------------------
-- Calls that go on
-- ---------------------------------------------------------------------------

namespace Operation

open Procedure

theorem ignoresPause_transferAdmin {successor : Account} :
    (transferAdmin successor).IgnoresPause :=
  .byAdmin <| .registry (fun _ _ => rfl) fun _ => .bind .require fun _ =>
    .write fun _ _ => rfl

theorem ignoresPause_addChallenger : (addChallenger a).IgnoresPause :=
  .byAdmin <| .registry (fun _ _ => rfl) fun _ => .bind .found fun _ =>
    .write fun _ _ => rfl

theorem ignoresPause_removeChallenger : (removeChallenger a).IgnoresPause :=
  .byAdmin <| .registry (fun _ _ => rfl) fun _ => .bind .found fun _ =>
    .write fun _ _ => rfl

theorem ignoresPause_addStorageAdmin : (addStorageAdmin a).IgnoresPause :=
  .byAdmin <| .registry (fun _ _ => rfl) fun _ => .bind .found fun _ =>
    .write fun _ _ => rfl

theorem ignoresPause_removeStorageAdmin : (removeStorageAdmin a).IgnoresPause :=
  .byAdmin <| .registry (fun _ _ => rfl) fun _ => .bind .found fun _ =>
    .write fun _ _ => rfl

theorem ignoresPause_updateConfig {config : Config} : (updateConfig config).IgnoresPause :=
  .byAdmin <| .bind .accepted fun _ => .registry (fun _ _ => rfl) fun _ => .bind .now fun _ =>
    .bind .computed fun _ => .bind (.update fun _ _ => rfl) fun _ =>
      .bind .currentPeriod fun _ => .emit

theorem ignoresPause_fund : fund.IgnoresPause :=
  .bind .read fun _ => .bind .require fun _ => .bind .caller fun _ => .emit

theorem ignoresPause_updateContract : updateContract.IgnoresPause :=
  .byAdmin <| .bind .read fun _ => .bind .require fun _ => .promise

theorem ignoresPause_migrate : migrate.IgnoresPause :=
  .registry (fun _ _ => rfl) fun _ => .bind (.update fun _ _ => rfl) fun _ =>
    .bind .read fun _ => .emit

theorem ignoresPause_updateMetadata {metadata : Metadata} :
    (updateMetadata metadata).IgnoresPause :=
  .bind .caller fun _ => .registry (fun _ _ => rfl) fun _ => .bind .require fun _ =>
    .bind (.bind .require fun _ => .bind .require fun _ => .forM_requireLabel) fun _ =>
      .bind .emit fun _ => .update fun _ _ => rfl

theorem ignoresPause_claimRewards : claimRewards.IgnoresPause :=
  .bind .caller fun _ => .registry (fun _ _ => rfl) fun _ => .bind .found fun _ =>
    .bind .require fun _ => .bind .read fun _ => .bind .require fun _ => .bind .setNode fun _ =>
      .bind (.update fun _ _ => rfl) fun _ => .bind .emit fun _ => .promise

end Operation

open Operation

theorem Call.ignoresPause (goesOn : call.stopsInPause = false)
    (other : ∀ paused, call ≠ .setPaused paused) : call.procedure.IgnoresPause := by
  cases call with
  | transferAdmin => exact ignoresPause_transferAdmin.quiet
  | addChallenger => exact ignoresPause_addChallenger.quiet
  | removeChallenger => exact ignoresPause_removeChallenger.quiet
  | addStorageAdmin => exact ignoresPause_addStorageAdmin.quiet
  | removeStorageAdmin => exact ignoresPause_removeStorageAdmin.quiet
  | updateConfig => exact ignoresPause_updateConfig.quiet
  | setPaused paused => exact absurd rfl (other paused)
  | fund => exact ignoresPause_fund.quiet
  | updateContract => exact ignoresPause_updateContract.quiet
  | migrate => exact ignoresPause_migrate.quiet
  | updateMetadata => exact ignoresPause_updateMetadata.quiet
  | claimRewards => exact ignoresPause_claimRewards.quiet
  | _ => cases goesOn

/-- A call that a pause stops asks first whether there is one. -/
theorem Call.fails_paused (stops : call.stopsInPause = true) (paused : r.paused = true) :
    call.procedure.Fails ctx ⟨r, [], []⟩ (.rejected .paused) := by
  have first : Procedure.requireUnpaused.Fails ctx ⟨r, [], []⟩ (.rejected .paused) :=
    Procedure.fails_requireUnpaused.2 ⟨paused, rfl⟩
  cases call with
  | registerNode | updateAllocation | unregisterNode | issueChallenge | submitProof
  | expireChallenges | distributeRewards | bookCapacity =>
    exact Procedure.fails_bind.2 (.inl (Procedure.fails_bind.2 (.inl first)))
  | _ => cases stops

namespace Registry

theorem perform_withPause {paused : Bool} (h : call.procedure.IgnoresPause) :
    (r.withPause paused).perform ctx call =
      ((r.perform ctx call).1.withPause paused, (r.perform ctx call).2) := by
  have same := h paused ctx ⟨r, [], []⟩
  change call.procedure.runIn ctx ⟨r.withPause paused, [], []⟩ = _ at same
  rw [perform, perform, same]
  cases call.procedure.runIn ctx ⟨r, [], []⟩ with
  | mk result v => cases result <;> rfl

theorem overview_withPause (r : Registry) (paused : Bool) (now : Instant) :
    (r.withPause paused).overview now = (r.overview now).map fun o => { o with paused } := by
  unfold overview
  show (r.periodAt now >>= _) = _
  cases r.periodAt now <;> rfl

theorem stopsOnlyEconomy (paused : r.paused = true) : r.StopsOnlyEconomy where
  stopped ctx call stops := perform_of_fails (call.fails_paused stops paused)
  unaffected ctx call goesOn other := by
    have kept : (Transition.after ⟨r, ctx, call⟩).paused = r.paused := by
      apply Transition.paused_kept
      rintro ⟨paused, -, switches, -⟩
      exact other paused switches
    exact ⟨kept, perform_withPause (call.ignoresPause goesOn other)⟩
  queries now q blind := by
    cases q with
    | isPaused | overview => cases blind
    | _ => rfl
  overview now := r.overview_withPause false now

end Registry

namespace Run

/-- While a pause lasts the economy stands still, except that nodes claim what they are owed. All
else goes on as it would without the pause. -/
theorem pause_freezes_economy (run : Run) (paused : run.registry.paused = true) :
    (∀ now later, run.LeadsTo now later → (∀ t ∈ run.since later, ¬ t.SwitchesPause) →
      run.Freezes later) ∧ run.registry.StopsOnlyEconomy :=
  ⟨fun _ _ goesOn quiet => goesOn.freezes paused quiet, Registry.stopsOnlyEconomy paused⟩

/-- Alice pauses the registry when it owes bob the reward of the first period. -/
def pausedOwing : Run :=
  let started := Run.create alice .default 0 (.fresh alice .default 0) create_default
  let registered := started.call (.plain bob 5) (.registerNode 10)
  let issued := registered.call (.plain alice 7) (.issueChallenge "first" bob "chunk" 0)
  let passed := issued.call (.plain bob 8) (.submitProof "first" [1])
  let paid := passed.call (.plain alice nanosPerHour) (.distributeRewards 0 [bob])
  paid.call { Context.plain alice nanosPerHour with deposit := 1 } (.setPaused true)

theorem pause_freezes_economy_owing :
    let byBob : Context := .plain bob nanosPerHour
    let later := pausedOwing.call byBob .claimRewards
    pausedOwing.registry.paused = true ∧ pausedOwing.LeadsTo 0 later ∧
      (∀ t ∈ pausedOwing.since later, ¬ t.SwitchesPause) ∧ pausedOwing.Freezes later ∧
      pausedOwing.registry.pendingRewardsOf bob = 10_000_000 ∧
      later.registry.pendingRewardsOf bob = 0 ∧
      (pausedOwing.registry.perform byBob .unregisterNode).2.result =
        .error (.rejected .paused) := by
  intro byBob later
  have paused : pausedOwing.registry.paused = true := by decide +kernel
  have goesOn : pausedOwing.LeadsTo 0 later := .call .refl byBob .claimRewards (Fin.zero_le _)
  have quiet : ∀ t ∈ pausedOwing.since later, ¬ t.SwitchesPause := by
    intro t ht
    have own : t ∈ [⟨pausedOwing.registry, byBob, .claimRewards⟩] := ht
    rintro ⟨paused, answer, call, -⟩
    rw [List.mem_singleton.1 own] at call
    cases call
  obtain ⟨freezes, stops⟩ := pause_freezes_economy pausedOwing paused
  exact ⟨paused, goesOn, quiet, freezes 0 later goesOn quiet, by decide +kernel, by decide +kernel,
    congrArg (·.2.result) (stops.stopped byBob .unregisterNode rfl)⟩

end Run

end StorageIncentives
