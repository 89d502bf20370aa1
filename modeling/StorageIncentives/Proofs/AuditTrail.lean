import StorageIncentives.Proofs.EventLog
import StorageIncentives.Proofs.Failure
import StorageIncentives.Proofs.Payout
import StorageIncentives.Proofs.Roster
import StorageIncentives.Proofs.Run

/-!
# The log determines the registry

An auditor who holds a registry and reads its events can follow it (`Registry.follow`): what an
event leaves out is in the registry before it, such as the capacities that rewards are paid for.
Each accepted call leaves the registry that its events lead to, except for the clock. So two runs
that begin alike and log the same lines end alike, however the events were spread over calls.
-/

namespace StorageIncentives

open Std (ExtTreeMap)

variable {r : Registry} {ctx : Context} {call : Call} {answer : Answer} {w : World}
  {nodes nodes' : ExtTreeMap Account Node} {a : Account} {n n' : Node} {p : Period}
  {f : Node → Node} {bits : Nat}

-- ---------------------------------------------------------------------------
-- Following a registry
-- ---------------------------------------------------------------------------

/-- The records with one of them rewritten, if there is one. -/
def amendNode (nodes : ExtTreeMap Account Node) (a : Account) (f : Node → Node) :
    ExtTreeMap Account Node :=
  match nodes[a]? with
  | some n => nodes.insert a (f n)
  | none => nodes

namespace Registry

/-- What the capacity of a node earns in a period. -/
def rewardOf (r : Registry) (a : Account) : Amount :=
  ((r.nodes[a]?).bind fun n => Amount.ofUnits? n.capacity r.config.rewardPerUnit).getD 0

/-- A payout told from the accounts that it credits. -/
def payoutTo (r : Registry) (rewarded : List Account) (total : Amount) : Payout :=
  ⟨rewarded.map fun a => (a, r.rewardOf a), total⟩

/-- The registry after an event, told from the event and the registry before it. -/
def follow (r : Registry) : Event → Registry
  | .contractUpgraded _ _ new => { r with version := new }
  | .adminTransferred _ new => { r with admin := new }
  | .challengerAdded _ account => { r with challengers := r.challengers.push account }
  | .challengerRemoved _ account =>
    { r with challengers := (r.challengers.erase? account).getD r.challengers }
  | .storageAdminAdded _ account => { r with storageAdmins := r.storageAdmins.push account }
  | .storageAdminRemoved _ account =>
    { r with storageAdmins := (r.storageAdmins.erase? account).getD r.storageAdmins }
  | .configUpdated _ config _ => { r with config }
  | .pauseChanged _ paused => { r with paused }
  | .contractFunded _ _ => r
  | .nodeRegistered account capacity period =>
    { r.withStats period { r.statsAt period with
          capacity := (r.statsAt period).capacity.addSat capacity
          activeNodes := (r.statsAt period).activeNodes.addSat 1 } with
      nodes := r.nodes.insert account (.register account capacity period)
      activeNodes := r.activeNodes.push account
      allocated := r.allocated.addSat capacity }
  | .allocationUpdated account old new period =>
    { r.withStats period { r.statsAt period with
          capacity := ((r.statsAt period).capacity.subSat old).addSat new } with
      nodes := amendNode r.nodes account fun n => { n with capacity := new }
      allocated := (r.allocated.subSat old).addSat new }
  | .nodeUnregistered account released period =>
    { r.withStats period { r.statsAt period with
          capacity := (r.statsAt period).capacity.subSat released
          activeNodes := (r.statsAt period).activeNodes.subSat 1 } with
      nodes := amendNode r.nodes account fun n => { n with active := false }
      activeNodes := (r.activeNodes.erase? account).getD r.activeNodes
      metadata := r.metadata.erase account
      allocated := r.allocated.subSat released }
  | .metadataUpdated account metadata =>
    { r with metadata := r.metadata.insert account metadata }
  | .challengeIssued _ id node chunk nonce issued deadline =>
    { r.withStats issued { r.statsAt issued with
          issued := (r.statsAt issued).issued.addSat 1 } with
      nodes := amendNode r.nodes node fun n => (n.recordChallenge issued).toOption.getD n
      challenges := r.challenges.insert id ⟨node, chunk, nonce, issued, deadline, .pending⟩
      challengesIssued := r.challengesIssued.addSat 1 }
  | .proofSubmitted node id passed =>
    match r.challenges[id]?, passed with
    | some c, true =>
      { r.withStats c.issued { r.statsAt c.issued with
            passed := (r.statsAt c.issued).passed.addSat 1 } with
        nodes := amendNode r.nodes node fun n => (n.recordPass c.issued).toOption.getD n
        challenges := r.challenges.insert id { c with status := .passed } }
    | some c, false => { r with challenges := r.challenges.insert id { c with status := .failed } }
    | none, _ => r
  | .challengeExpired _ id _ =>
    match r.challenges[id]? with
    | some c => { r with challenges := r.challenges.insert id { c with status := .expired } }
    | none => r
  | .rewardsDistributed _ period rewarded total =>
    { r.withStats period { r.statsAt period with
          rewards := (r.statsAt period).rewards.addSat total
          distributed := true } with
      nodes := (r.payoutTo rewarded total).creditTo period r.nodes
      pendingRewards := r.pendingRewards.addSat total
      distributedRewards := r.distributedRewards.addSat total }
  | .rewardsClaimed account amount =>
    { r with
      nodes := amendNode r.nodes account fun n => { n with pendingRewards := 0 }
      pendingRewards := r.pendingRewards.subSat amount }
  | .uploaderRegistered account units booked _ _ =>
    { r with bookings := r.bookings.set account booked, booked := r.booked.addSat units }

def withClock (r : Registry) (c : Clock) : Registry := { r with clock := c }

/-- No event is read with the help of the clock. -/
theorem follow_withClock (r : Registry) (c : Clock) (e : Event) :
    (r.withClock c).follow e = (r.follow e).withClock c := by
  cases e with
  | proofSubmitted node id passed =>
    simp only [follow, withClock]
    cases r.challenges[id]? with
    | none => rfl
    | some _ => cases passed <;> rfl
  | challengeExpired caller id node =>
    simp only [follow, withClock]
    cases r.challenges[id]? <;> rfl
  | _ => rfl

theorem foldl_follow_withClock (events : List Event) (r : Registry) (c : Clock) :
    events.foldl follow (r.withClock c) = (events.foldl follow r).withClock c := by
  induction events generalizing r with
  | nil => rfl
  | cons e events ih => rw [List.foldl_cons, follow_withClock, ih, List.foldl_cons]

end Registry

-- ---------------------------------------------------------------------------
-- What an event leaves out
-- ---------------------------------------------------------------------------

theorem amendNode_of_some (h : nodes[a]? = some n) : amendNode nodes a f = nodes.insert a (f n) := by
  rw [amendNode, h]

theorem CountsPass.eq_amendNode (h : CountsPass nodes a p nodes') :
    amendNode nodes a (fun n => (n.recordPass p).toOption.getD n) = nodes' := by
  cases h with
  | known found passed =>
    rw [amendNode_of_some found, passed]
    rfl
  | unknown missing => rw [amendNode, missing]

theorem Quantity.addSat_one_of_succOrTrap {q next : Word} (h : q.succOrTrap = .ok next) :
    q.addSat 1 = next :=
  addSat_of_add? (add?_eq_some_iff.2 (succOrTrap_eq_ok_iff.1 h))

theorem Quantity.addSat_of_addOrTrap {x y z : Quantity bits} (h : x.addOrTrap y = .ok z) :
    x.addSat y = z := addSat_of_add? (add?_eq_some_iff.2 (addOrTrap_eq_ok_iff.1 h))

/-- The credits of a payout follow from the capacities of those who are credited. -/
theorem Payout.Sound.payoutTo_credits {due : Payout} (hs : due.Sound r p) :
    r.payoutTo (due.credits.map (·.1)) due.total = due := by
  have credit (e : Account × Amount) (he : e ∈ due.credits) : (e.1, r.rewardOf e.1) = e := by
    obtain ⟨node, found, -, -, -, reward⟩ := hs.earned e he
    have priced : Amount.ofUnits? node.capacity r.config.rewardPerUnit = some e.2 :=
      Quantity.ofNat?_eq_some_iff.2 reward
    rw [Registry.rewardOf, found, Option.bind_some, priced, Option.getD_some]
  have credits : (due.credits.map (·.1)).map (fun a => (a, r.rewardOf a)) = due.credits := by
    rw [List.map_map]
    exact (List.map_congr_left credit).trans (List.map_id _)
  rw [Registry.payoutTo, credits]

-- ---------------------------------------------------------------------------
-- Each call is followed
-- ---------------------------------------------------------------------------

section

attribute [local simp] Registry.follow Registry.withClock Registry.withStats

/-- Each expiry of a batch is told by its event. -/
theorem foldl_follow_expireAll (ids : List String) (r : Registry)
    (s : ExtTreeMap String Challenge × List Event)
    (hs : s.2.foldl Registry.follow r = { r with challenges := s.1 }) :
    (ids.foldl (expireOne ctx) s).2.foldl Registry.follow r =
      { r with challenges := (ids.foldl (expireOne ctx) s).1 } := by
  induction ids generalizing s with
  | nil => exact hs
  | cons id ids ih =>
    refine ih (expireOne ctx s id) ?_
    cases hc : s.1[id]? with
    | none =>
      rw [expireOne, hc]
      exact hs
    | some c =>
      by_cases overdue : c.isOverdue ctx.now
      · simp [expireOne, hc, overdue, hs]
      · simpa [expireOne, hc, overdue] using hs

theorem Accepts.followed (h : Accepts r ctx call answer w) :
    w.registry.withClock r.clock = w.events.foldl Registry.follow r := by
  cases h with
  | addChallenger _ inserted =>
    obtain ⟨-, rfl⟩ := Roster.eq_push_of_insert? inserted
    rfl
  | removeChallenger _ erased => simp [erased]
  | addStorageAdmin _ inserted =>
    obtain ⟨-, rfl⟩ := Roster.eq_push_of_insert? inserted
    rfl
  | removeStorageAdmin _ erased => simp [erased]
  | registerNode _ _ _ total _ counted =>
    simp [Quantity.addSat_of_add? total, Quantity.addSat_one_of_succOrTrap counted]
  | updateAllocation _ found _ _ rest total _ =>
    simp [amendNode_of_some found, Quantity.subSat_of_subOrTrap rest,
      Quantity.addSat_of_add? total]
  | unregisterNode _ found _ erased _ rest =>
    simp [amendNode_of_some found, erased, Quantity.subSat_of_subOrTrap rest]
  | issueChallenge _ _ _ _ _ found _ _ _ periodTotal recorded total =>
    simp [amendNode_of_some found, Quantity.addSat_one_of_succOrTrap periodTotal, recorded,
      Quantity.addSat_one_of_succOrTrap total, Except.toOption]
  | proofPassed _ _ known _ _ _ _ periodTotal recorded =>
    simp [known, Quantity.addSat_one_of_succOrTrap periodTotal, recorded.eq_amendNode]
  | proofFailed _ _ known _ _ _ _ => simp [known]
  | expireChallenges _ _ => exact (foldl_follow_expireAll _ r (r.challenges, []) rfl).symm
  | distributeRewards _ _ _ _ _ _ payout pending total =>
    simp [(Payout.sound_ofCandidates payout).payoutTo_credits, Quantity.addSat_of_add? pending,
      Quantity.addSat_of_add? total]
  | claimRewards found _ _ => simp [amendNode_of_some found]
  | bookCapacity _ _ _ _ _ _ all => simp [Quantity.addSat_of_addOrTrap all]
  | _ => rfl

end

-- ---------------------------------------------------------------------------
-- Runs
-- ---------------------------------------------------------------------------

namespace Run

/-- What the registry was created with. -/
def genesis : Run → Account × Config × Instant
  | .create admin config genesis _ _ => (admin, config, genesis)
  | .call run _ _ => run.genesis

/-- The registry as it was created. -/
def origin (run : Run) : Registry :=
  match run.genesis with
  | (admin, config, genesis) => .fresh admin config genesis

def events (run : Run) : List Event := run.transitions.flatMap fun t => t.outcome.events

/-- The lines that the calls of a run log, in the order of time. -/
def logs (run : Run) : List String :=
  run.transitions.flatMap fun t => t.outcome.events.map Event.log

theorem logs_eq (run : Run) : run.logs = run.events.map Event.log := by
  rw [logs, events, List.map_flatMap]

theorem events_call (run : Run) (ctx : Context) (c : Call) :
    (run.call ctx c).events = run.events ++ (Transition.outcome ⟨run.registry, ctx, c⟩).events := by
  simp [events, transitions]

/-- The events of a run lead from the registry that was created to the one that it leaves. -/
theorem followed (run : Run) :
    run.registry.withClock run.origin.clock = run.events.foldl Registry.follow run.origin := by
  induction run with
  | create admin config genesis r created =>
    obtain ⟨-, rfl⟩ := Registry.create_eq_ok_iff.1 created
    rfl
  | call run ctx c ih =>
    have origin : (run.call ctx c).origin = run.origin := rfl
    show (Transition.after ⟨run.registry, ctx, c⟩).withClock _ = _
    rw [events_call, List.foldl_append, origin, ← ih]
    rcases Transition.cases ⟨run.registry, ctx, c⟩ with ⟨_, ha, ho⟩ | ⟨_, w, h, ha, ho⟩
    · rw [ha, ho]
      rfl
    · rw [ha, ho, Registry.foldl_follow_withClock, ← h.followed]
      rfl

theorem events_eq_of_logs {run run' : Run} (logs : run.logs = run'.logs) :
    run.events = run'.events := by
  rw [logs_eq, logs_eq] at logs
  exact (List.map_inj_right fun _ _ => Event.log_inj).1 logs

/-- Runs that begin alike and log the same lines leave the same registry, except for its clock. -/
theorem log_determines_registry (run run' : Run) (genesis : run.genesis = run'.genesis)
    (logs : run.logs = run'.logs) :
    run.registry.withClock run'.registry.clock = run'.registry := by
  have origin : run.origin = run'.origin := by rw [Run.origin, genesis, Run.origin]
  have same : run.registry.withClock run.origin.clock =
      run'.registry.withClock run.origin.clock := by
    rw [run.followed, events_eq_of_logs logs, origin, run'.followed]
  exact congrArg (·.withClock run'.registry.clock) same

/-- Two challenges of bob expire in one batch. -/
def batchedExpiries : Run :=
  let started := Run.create alice .default 0 (.fresh alice .default 0) create_default
  let registered := started.call (.plain bob 5) (.registerNode 10)
  let first := registered.call (.plain alice 7) (.issueChallenge "first" bob "chunk" 0)
  let second := first.call (.plain alice 8) (.issueChallenge "second" bob "chunk \"2\"" 1)
  second.call (.plain bob 700_000_000_000) (.expireChallenges ["first", "second"])

/-- The same challenges expire one by one, among calls that fail or find nothing to do. -/
def singleExpiries : Run :=
  let started := Run.create alice .default 0 (.fresh alice .default 0) create_default
  let registered := started.call (.plain bob 6) (.registerNode 10)
  let first := registered.call (.plain alice 7) (.issueChallenge "first" bob "chunk" 0)
  let second := first.call (.plain alice 8) (.issueChallenge "second" bob "chunk \"2\"" 1)
  let early := second.call (.plain bob 9) (.expireChallenges ["second"])
  let expired := early.call (.plain bob 800_000_000_000) (.expireChallenges ["first", "first"])
  let refused := expired.call (.plain bob 800_000_000_000) .claimRewards
  refused.call (.plain bob 900_000_000_000) (.expireChallenges ["third", "second"])

theorem log_determines_registry_expiries :
    batchedExpiries.genesis = singleExpiries.genesis ∧ batchedExpiries.logs = singleExpiries.logs ∧
      batchedExpiries.events.length = 5 ∧ singleExpiries.transitions.length = 7 ∧
      batchedExpiries.registry.withClock singleExpiries.registry.clock =
        singleExpiries.registry := by
  have events : batchedExpiries.events = singleExpiries.events := by decide +kernel
  have logs : batchedExpiries.logs = singleExpiries.logs := by rw [logs_eq, logs_eq, events]
  exact ⟨rfl, logs, by decide +kernel, rfl,
    log_determines_registry batchedExpiries singleExpiries rfl logs⟩

end Run

end StorageIncentives
