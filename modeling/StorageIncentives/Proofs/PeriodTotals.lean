import StorageIncentives.Proofs.Counters

/-!
# Period totals are a history

The capacity and the node count that a period shows are those of the registry after the last call
made in that period or before it. Calls write them for the running period only, so they end the
index of the history; any other record takes over the totals that its period shows already.
-/

namespace StorageIncentives

open Std (ExtTreeMap)

namespace Registry

/-- Period `p` shows the live totals. -/
def Shows (r : Registry) (p : Period) : Prop :=
  (r.statsAt p).capacity = r.allocated ∧ (r.statsAt p).activeNodes.val = r.activeNodes.size

/-- The roster is as long as there are active nodes. -/
def RosterCounts (r : Registry) : Prop :=
  r.activeNodes.size = count r.nodes fun n => n.active = true

end Registry

variable {r r' : Registry} {ctx : Context} {call : Call} {answer : Answer} {w : World}
  {a : Account} {n n' : Node} {t : Transition} {p q : Period}

-- ---------------------------------------------------------------------------
-- The roster of active nodes
-- ---------------------------------------------------------------------------

namespace Roster

variable {s s' : Roster}

theorem size_push : (s.push a).size = s.size + 1 := by simp [push, size]

theorem size_erase? (h : s.erase? a = some s') : s'.size = s.size - 1 := by
  obtain ⟨i, -, rfl⟩ := Option.map_eq_some_iff.1 h
  have hl : (swapErase s.slots i).length = s.slots.length - 1 := by
    unfold swapErase
    split
    · simp
    · rename_i hn
      simp [List.getLast?_eq_none_iff.1 hn]
  simp only [eraseAt, size]
  split <;> exact hl

end Roster

namespace Registry.RosterCounts

theorem fresh {admin : Account} {config : Config} {now : Instant} :
    (Registry.fresh admin config now).RosterCounts := (tally_empty _).symm

theorem of_update (hr : r.RosterCounts) (found : r.nodes[a]? = some n)
    (nodes : r'.nodes = r.nodes.insert a n') (active : n'.active = n.active)
    (roster : r'.activeNodes = r.activeNodes) : r'.RosterCounts := by
  rw [RosterCounts, roster, hr, nodes]
  exact (count_insert_same found (by rw [active])).symm

theorem of_new (hr : r.RosterCounts) (fresh : r.nodes[a]? = none)
    (nodes : r'.nodes = r.nodes.insert a n) (active : n.active = true)
    (roster : r'.activeNodes = r.activeNodes.push a) : r'.RosterCounts := by
  rw [RosterCounts, roster, Roster.size_push, hr, nodes, count_insert_new fresh, if_pos active]

theorem pos (hr : r.RosterCounts) (found : r.nodes[a]? = some n) (active : n.active = true) :
    0 < r.activeNodes.size := hr ▸ count_pos found active

theorem step (h : Accepts r ctx call answer w) (hr : r.RosterCounts) :
    w.registry.RosterCounts := by
  cases h with
  | registerNode _ _ fresh _ _ _ =>
    exact hr.of_new (ExtTreeMap.getElem?_eq_none fresh) rfl rfl rfl
  | updateAllocation _ found _ _ _ _ _ => exact hr.of_update found rfl rfl rfl
  | @unregisterNode _ roster node _ _ found active listed _ _ =>
    show roster.size = _
    have hi := count_insert (v := { node with active := false }) (p := (·.active = true)) found
    rw [if_pos active, if_neg Bool.false_ne_true] at hi
    rw [Roster.size_erase? listed, hr]
    exact Nat.sub_eq_of_eq_add hi.symm
  | issueChallenge _ _ _ _ _ found _ _ _ _ recorded _ =>
    obtain ⟨_, _, -, -, rfl⟩ := Node.recordChallenge_ok recorded
    exact hr.of_update found rfl rfl rfl
  | proofPassed _ _ _ _ _ _ _ _ recorded =>
    cases recorded with
    | known found passed =>
      obtain ⟨_, _, -, -, rfl⟩ := Node.recordPass_ok passed
      exact hr.of_update found rfl rfl rfl
    | unknown _ => exact hr
  | distributeRewards _ _ _ _ _ _ _ _ _ =>
    exact hr.trans (Payout.tally_creditTo_same fun _ _ => rfl).symm
  | claimRewards found _ _ => exact hr.of_update found rfl rfl rfl
  | _ => exact hr

end Registry.RosterCounts

-- ---------------------------------------------------------------------------
-- What a call writes to the totals
-- ---------------------------------------------------------------------------

/-- What a call does to the totals: it moves them and writes them for the running period, or it
keeps them, and with them what every period shows. -/
inductive TotalsStep (r : Registry) (ctx : Context) (r' : Registry) : Prop
  | kept (allocated : r'.allocated = r.allocated) (roster : r'.activeNodes = r.activeNodes)
      (carried : ∀ q, (r'.statsAt q).carried = (r.statsAt q).carried)
  | moved {p : Period} {s : PeriodStats} (current : r.periodAt ctx.now = .ok p)
      (history : r'.history = r.history.put p s) (capacity : s.capacity = r'.allocated)
      (active : s.activeNodes.val = r'.activeNodes.size)

theorem Accepts.totalsStep (h : Accepts r ctx call answer w) (hw : r.history.WellFormed)
    (hs : ∀ p, r.periodAt ctx.now = .ok p → r.Shows p) : TotalsStep r ctx w.registry := by
  cases h with
  | @registerNode capacity allocated activeNodes period _ _ _ total current counted =>
    obtain ⟨hc, ha⟩ := hs _ current
    refine .moved current rfl ?_ ?_
    · show (r.statsAt period).capacity.addSat capacity = allocated
      rw [hc, Quantity.addSat_of_add? total]
    · show activeNodes.val = (r.activeNodes.push ctx.caller).size
      rw [Roster.size_push, ← ha]
      exact Quantity.succOrTrap_eq_ok_iff.1 counted
  | @updateAllocation capacity others allocated node period _ _ _ _ rest total current =>
    obtain ⟨hc, ha⟩ := hs _ current
    refine .moved current rfl ?_ ha
    show ((r.statsAt period).capacity.subSat node.capacity).addSat capacity = allocated
    rw [hc, Quantity.subSat_of_subOrTrap rest, Quantity.addSat_of_add? total]
  | @unregisterNode allocated roster node period _ _ _ listed current rest =>
    obtain ⟨hc, ha⟩ := hs _ current
    refine .moved current rfl ?_ ?_
    · show (r.statsAt period).capacity.subSat node.capacity = allocated
      rw [hc, Quantity.subSat_of_subOrTrap rest]
    · show (r.statsAt period).activeNodes.val - 1 = roster.size
      rw [ha, Roster.size_erase? listed]
  | issueChallenge _ _ _ _ _ _ _ _ _ _ _ _ => exact .kept rfl rfl (hw.carried_put rfl)
  | proofPassed _ _ _ _ _ _ _ _ _ => exact .kept rfl rfl (hw.carried_put rfl)
  | distributeRewards _ _ _ _ _ _ _ _ _ => exact .kept rfl rfl (hw.carried_put rfl)
  | _ => exact .kept rfl rfl fun _ => rfl

/-- What a call that writes the record of period `p` makes of it, where it meets `s`. -/
inductive PeriodWrite (r : Registry) (ctx : Context) (p : Period) (s : PeriodStats) :
    Call → Answer → PeriodStats → Prop
  | registered {capacity activeNodes : Word} (current : r.periodAt ctx.now = .ok p)
      (counted : s.activeNodes.succOrTrap = .ok activeNodes) :
      PeriodWrite r ctx p s (.registerNode capacity) .nothing
        { s with capacity := s.capacity.addSat capacity, activeNodes }
  | resized {capacity : Word} {node : Node} (current : r.periodAt ctx.now = .ok p)
      (known : r.nodes[ctx.caller]? = some node) :
      PeriodWrite r ctx p s (.updateAllocation capacity) .nothing
        { s with capacity := (s.capacity.subSat node.capacity).addSat capacity }
  | left {node : Node} (current : r.periodAt ctx.now = .ok p)
      (known : r.nodes[ctx.caller]? = some node) :
      PeriodWrite r ctx p s .unregisterNode .nothing
        { s with
          capacity := s.capacity.subSat node.capacity
          activeNodes := s.activeNodes.subSat 1 }
  | issued {id chunk : String} {a : Account} {nonce issued : Word}
      (current : r.periodAt ctx.now = .ok p) (counted : s.issued.succOrTrap = .ok issued) :
      PeriodWrite r ctx p s (.issueChallenge id a chunk nonce) .nothing { s with issued }
  | passed {id : String} {proof : Bytes} {c : Challenge} {passed : Word}
      (known : r.challenges[id]? = some c) (own : c.issued = p)
      (counted : s.passed.succOrTrap = .ok passed) :
      PeriodWrite r ctx p s (.submitProof id proof) (.flag true) { s with passed }
  | distributed {candidates : List Account} {current : Period} {total : Amount}
      (now : r.periodAt ctx.now = .ok current) (started : p ≤ current)
      (once : s.distributed = false) :
      PeriodWrite r ctx p s (.distributeRewards p candidates) (.amount total)
        { s with rewards := s.rewards.addSat total, distributed := true }

/-- A call writes the record of one period at most, from what that period showed before. -/
theorem Accepts.periodWrite (h : Accepts r ctx call answer w) :
    w.registry.history = r.history ∨ ∃ p s, w.registry.history = r.history.put p s ∧
      PeriodWrite r ctx p (r.statsAt p) call answer s := by
  cases h with
  | registerNode _ _ _ _ current counted => exact .inr ⟨_, _, rfl, .registered current counted⟩
  | updateAllocation _ known _ _ _ _ current => exact .inr ⟨_, _, rfl, .resized current known⟩
  | unregisterNode _ known _ _ current _ => exact .inr ⟨_, _, rfl, .left current known⟩
  | issueChallenge _ _ _ _ _ _ _ _ current counted _ _ =>
    exact .inr ⟨_, _, rfl, .issued current counted⟩
  | proofPassed _ _ known _ _ _ _ counted _ => exact .inr ⟨_, _, rfl, .passed known rfl counted⟩
  | distributeRewards _ _ now started _ once _ _ _ =>
    exact .inr ⟨_, _, rfl, .distributed now started once⟩
  | _ => exact .inl rfl

/-- A record is written for a period that has begun, or in which a challenge was issued. -/
theorem PeriodWrite.begun {s s' : PeriodStats} (h : PeriodWrite r ctx p s call answer s') :
    (∃ current, r.periodAt ctx.now = .ok current ∧ p ≤ current) ∨
      ∃ (id : String) (c : Challenge), r.challenges[id]? = some c ∧ c.issued = p := by
  cases h with
  | passed known own _ => exact .inr ⟨_, _, known, own⟩
  | distributed now started _ => exact .inl ⟨_, now, started⟩
  | registered current _ | resized current _ | left current _ | issued current _ =>
    exact .inl ⟨p, current, Fin.le_refl p⟩

namespace TotalsStep

variable (h : TotalsStep r ctx r') (hw : r.history.WellFormed)
  (current : r.periodAt ctx.now = .ok p) (hi : ∀ x ∈ r.history.index, x ≤ p)

include h hw current hi

/-- No call changes what a finished period shows. -/
theorem past (hq : q < p) : (r'.statsAt q).carried = (r.statsAt q).carried := by
  cases h with
  | kept _ _ carried => exact carried q
  | moved current' history _ _ =>
    obtain rfl := Except.ok.inj (current.symm.trans current')
    rw [Registry.statsAt, history, hw.carried_put_latest hi, if_neg (Fin.not_le.2 hq)]
    rfl

theorem live (hs : r.Shows q) (hq : p ≤ q) : r'.Shows q := by
  cases h with
  | kept allocated roster carried =>
    obtain ⟨hc, ha⟩ := PeriodStats.carried_eq_iff.1 (carried q)
    rw [Registry.Shows, hc, ha, allocated, roster]
    exact hs
  | @moved p' s current' history capacity active =>
    obtain rfl := Except.ok.inj (current.symm.trans current')
    have hp : (r'.statsAt q).carried = s.carried := by
      rw [Registry.statsAt, history, hw.carried_put_latest hi, if_pos hq]
    obtain ⟨hc, ha⟩ := PeriodStats.carried_eq_iff.1 hp
    rw [Registry.Shows, hc, ha]
    exact ⟨capacity, active⟩

end TotalsStep

-- ---------------------------------------------------------------------------
-- Runs
-- ---------------------------------------------------------------------------

namespace Run

theorem rosterCounts (run : Run) : run.registry.RosterCounts :=
  run.invariant (fun _ => .fresh) .step

theorem history_wellFormed (run : Run) : run.registry.history.WellFormed := by
  refine run.invariant (P := fun r => r.history.WellFormed) (fun _ => .empty) ?_
  intro r ctx c answer w h hw
  rcases h.periodWrite with hh | ⟨p, s, hh, -⟩
  · exact hh ▸ hw
  · exact hh ▸ hw.put p s

theorem index_begun (run : Run) (hc : run.Chronological) :
    ∀ p ∈ run.registry.history.index, run.registry.Begun run.now p := by
  refine run.chronological_invariant (P := fun r t => ∀ p ∈ r.history.index, r.Begun t p)
    ?_ ?_ ?_ hc
  · intro _ _ _ p hp
    simp [Registry.fresh, History.empty] at hp
  · exact fun ht hb p hp => (hb p hp).later ht
  · intro run ctx c answer w hc ht h hb p hp
    rcases h.periodWrite with hh | ⟨p', s, hh, write⟩
    · exact (hb p (hh ▸ hp)).step h run.clockSound ht
    rw [hh, History.mem_index_put] at hp
    rcases hp with hp | ⟨-, rfl⟩
    · exact (hb p hp).step h run.clockSound ht
    rcases write.begun with ⟨current, hcurrent, hle⟩ | ⟨id, c, hk, rfl⟩
    · exact ((Registry.Begun.of_periodAt hcurrent).of_le hle).step h run.clockSound (Fin.le_refl _)
    · exact (run.challenge_begun hc hk).step h run.clockSound ht

theorem totalsStep (run : Run) (ctx : Context) (c : Call)
    (hs : ∀ p, run.registry.periodAt ctx.now = .ok p → run.registry.Shows p) :
    TotalsStep run.registry ctx (Transition.after ⟨run.registry, ctx, c⟩) := by
  rcases Transition.cases ⟨run.registry, ctx, c⟩ with ⟨_, h, _⟩ | ⟨_, _, ha, h, _⟩
  · exact h ▸ .kept rfl rfl fun _ => rfl
  · exact h ▸ ha.totalsStep run.history_wellFormed hs

/-- After a call, the periods from its running period on show the live totals, and those before it
what they showed. -/
theorem shows_call (run : Run) (hc : run.Chronological) {ctx : Context} (hn : run.now ≤ ctx.now)
    {current : Period} (hcurrent : run.registry.periodAt ctx.now = .ok current)
    (hs : ∀ p, current ≤ p → run.registry.Shows p) (c : Call) (p : Period) :
    (current ≤ p → (run.call ctx c).registry.Shows p) ∧
      (p < current → ((run.call ctx c).registry.statsAt p).carried =
        (run.registry.statsAt p).carried) := by
  have hw := run.history_wellFormed
  have hi (x : Period) (hx : x ∈ run.registry.history.index) : x ≤ current :=
    run.index_begun hc x hx _ _ hn hcurrent
  have step := run.totalsStep ctx c fun q hq => by
    obtain rfl := Except.ok.inj (hcurrent.symm.trans hq)
    exact hs _ (Fin.le_refl _)
  exact ⟨fun hp => step.live hw hcurrent hi (hs p hp) hp, fun hp => step.past hw hcurrent hi hp⟩

/-- The running period and all later ones show the live totals. -/
theorem shows_live (run : Run) (hc : run.Chronological) {now : Instant} {current p : Period}
    (hn : run.now ≤ now) (hcurrent : run.registry.periodAt now = .ok current) (hp : current ≤ p) :
    run.registry.Shows p := by
  induction run generalizing now current p with
  | create admin config genesis r created =>
    obtain ⟨-, rfl⟩ := Registry.create_eq_ok_iff.1 created
    rw [Registry.Shows, registry, Registry.statsAt_fresh]
    exact ⟨rfl, rfl⟩
  | call run ctx c ih =>
    obtain ⟨k, hk⟩ := run.exists_periodAt ctx.now
    have hle : k ≤ current := Transition.periodAt_le ⟨run.registry, ctx, c⟩ hn hk hcurrent
    exact (run.shows_call hc.1 hc.2 hk (fun q => ih hc.1 hc.2 hk) c p).1 (Fin.le_trans hle hp)

end Run

/-- The running period of the call, by the clock before it, is at most `p`. -/
def Transition.runsBy (t : Transition) (p : Period) : Bool :=
  match t.before.periodAt t.ctx.now with
  | .ok current => current ≤ p
  | .error _ => false

/-- The last call that was made in period `p` or before it. -/
def Run.lastBy? (run : Run) (p : Period) : Option Transition :=
  (run.transitions.filter (·.runsBy p)).getLast?

/-- The totals of the running period move by exactly what the call registers or releases. -/
structure Transition.TotalsExact (t : Transition) (p : Period) : Prop where
  registered : ∀ capacity answer, t.call = .registerNode capacity → t.outcome.result = .ok answer →
    (t.after.statsAt p).capacity.val = (t.before.statsAt p).capacity.val + capacity.val ∧
      (t.after.statsAt p).activeNodes.val = (t.before.statsAt p).activeNodes.val + 1
  updated : ∀ capacity answer, t.call = .updateAllocation capacity →
    t.outcome.result = .ok answer → ∃ n, t.before.nodes[t.ctx.caller]? = some n ∧
      n.capacity ≤ (t.before.statsAt p).capacity ∧
      (t.after.statsAt p).capacity.val + n.capacity.val =
        (t.before.statsAt p).capacity.val + capacity.val
  unregistered : ∀ answer, t.call = .unregisterNode → t.outcome.result = .ok answer →
    ∃ n, t.before.nodes[t.ctx.caller]? = some n ∧
      (t.after.statsAt p).capacity.val + n.capacity.val = (t.before.statsAt p).capacity.val ∧
      (t.after.statsAt p).activeNodes.val + 1 = (t.before.statsAt p).activeNodes.val

/-- The move of the registry's own totals is the move of those of a period that shows them. -/
theorem Transition.totalsExact (hr : t.before.RosterCounts) (hb : t.before.Shows p)
    (ha : t.after.Shows p) : t.TotalsExact p := by
  obtain ⟨hbc, hba⟩ := hb
  obtain ⟨hac, haa⟩ := ha
  rcases t.cases with ⟨fault, -, ho⟩ | ⟨answer, w, h, hw, ho⟩
  · constructor <;> simp [ho, Outcome.silent]
  obtain ⟨r, ctx, call⟩ := t
  refine ⟨fun capacity _ hcall _ => ?_, fun capacity _ hcall _ => ?_, fun _ hcall _ => ?_⟩ <;>
    obtain rfl : call = _ := hcall
  · cases h with
    | registerNode _ _ _ total _ _ =>
      rw [hac, haa, hbc, hba, hw]
      exact ⟨Quantity.add?_eq_some_iff.1 total, Roster.size_push⟩
  · cases h with
    | @updateAllocation _ others allocated node _ _ found _ _ rest total _ =>
      have hrest : _ = r.allocated.val := Quantity.subOrTrap_eq_ok_iff.1 rest
      have htotal := Quantity.add?_eq_some_iff.1 total
      refine ⟨_, found, ?_⟩
      rw [hac, hbc, hw]
      refine ⟨Nat.le.intro (Nat.add_comm _ _ ▸ hrest), ?_⟩
      show allocated.val + node.capacity.val = r.allocated.val + capacity.val
      omega
  · cases h with
    | @unregisterNode _ roster _ _ _ found active listed _ rest =>
      refine ⟨_, found, ?_⟩
      rw [hac, haa, hbc, hba, hw]
      refine ⟨Quantity.subOrTrap_eq_ok_iff.1 rest, ?_⟩
      have hs : roster.size = r.activeNodes.size - 1 := Roster.size_erase? listed
      have hp : 0 < r.activeNodes.size := hr.pos found active
      show roster.size + 1 = r.activeNodes.size
      omega

/-- What the periods show, and when it changes. -/
structure Run.KeepsTotals (run : Run) : Prop where
  history : ∀ p,
    (run.registry.statsAt p).capacity = (run.lastBy? p).elim 0 (·.after.allocated) ∧
      (run.registry.statsAt p).activeNodes.val = (run.lastBy? p).elim 0 (·.after.activeNodes.size)
  live : ∀ now, run.now ≤ now → ∃ current, run.registry.periodAt now = .ok current ∧
    ∀ p, current ≤ p → run.registry.Shows p
  finished : ∀ later now current, run.registry.periodAt now = .ok current →
    run.LeadsTo now later → later.Chronological → ∀ p, p < current →
      (later.registry.statsAt p).capacity = (run.registry.statsAt p).capacity ∧
        (later.registry.statsAt p).activeNodes = (run.registry.statsAt p).activeNodes
  exact : ∀ t ∈ run.transitions, ∃ current, t.before.periodAt t.ctx.now = .ok current ∧
    t.TotalsExact current

namespace Run

theorem lastBy?_call (run : Run) (ctx : Context) (c : Call) {current : Period}
    (hcurrent : run.registry.periodAt ctx.now = .ok current) (p : Period) :
    (run.call ctx c).lastBy? p =
      if current ≤ p then some ⟨run.registry, ctx, c⟩ else run.lastBy? p := by
  have hr : Transition.runsBy ⟨run.registry, ctx, c⟩ p = decide (current ≤ p) := by
    simp only [Transition.runsBy, hcurrent]
  rw [lastBy?, transitions, List.filter_append, lastBy?]
  by_cases hp : current ≤ p <;> simp [hr, hp]

theorem statsAt_lastBy (run : Run) (hc : run.Chronological) (p : Period) :
    (run.registry.statsAt p).capacity = (run.lastBy? p).elim 0 (·.after.allocated) ∧
      (run.registry.statsAt p).activeNodes.val =
        (run.lastBy? p).elim 0 (·.after.activeNodes.size) := by
  induction run with
  | create admin config genesis r created =>
    obtain ⟨-, rfl⟩ := Registry.create_eq_ok_iff.1 created
    rw [registry, Registry.statsAt_fresh]
    exact ⟨rfl, rfl⟩
  | call run ctx c ih =>
    obtain ⟨k, hk⟩ := run.exists_periodAt ctx.now
    obtain ⟨live, past⟩ := run.shows_call hc.1 hc.2 hk (fun q => run.shows_live hc.1 hc.2 hk) c p
    rw [lastBy?_call run ctx c hk]
    by_cases hp : k ≤ p
    · rw [if_pos hp]
      exact live hp
    · rw [if_neg hp]
      obtain ⟨hcap, hact⟩ := PeriodStats.carried_eq_iff.1 (past (Fin.not_le.1 hp))
      rw [hcap, hact]
      exact ih hc.1

/-- What a finished period shows stays, however the run goes on. -/
theorem carried_later {run later : Run} {now : Instant} {current p : Period}
    (hcurrent : run.registry.periodAt now = .ok current) (h : run.LeadsTo now later)
    (hc : later.Chronological) (hp : p < current) :
    (later.registry.statsAt p).carried = (run.registry.statsAt p).carried ∧
      ∀ t k, now ≤ t → later.now ≤ t → later.registry.periodAt t = .ok k → current ≤ k := by
  induction h with
  | refl => exact ⟨rfl, fun t k ht _ hk => Clock.periodAt_mono ht hcurrent hk⟩
  | @call later h ctx c after ih =>
    obtain ⟨same, reached⟩ := ih hc.1
    obtain ⟨k, hk⟩ := later.exists_periodAt ctx.now
    have hle := reached ctx.now k after hc.2 hk
    have hshow := later.shows_call hc.1 hc.2 hk (fun q => later.shows_live hc.1 hc.2 hk) c p
    refine ⟨(hshow.2 (Fin.lt_of_lt_of_le hp hle)).trans same, fun t k' _ ht hk' => ?_⟩
    exact Fin.le_trans hle (Transition.periodAt_le ⟨later.registry, ctx, c⟩ ht hk hk')

theorem keepsTotals_of_chronological (run : Run) (hc : run.Chronological) : run.KeepsTotals where
  history := run.statsAt_lastBy hc
  live now hn := by
    obtain ⟨current, hcurrent⟩ := run.exists_periodAt now
    exact ⟨current, hcurrent, fun p hp => run.shows_live hc hn hcurrent hp⟩
  finished later now current hcurrent h hl p hp :=
    PeriodStats.carried_eq_iff.1 (carried_later hcurrent h hl hp).1
  exact t ht := by
    obtain ⟨earlier, hb, he⟩ := mem_transitions ht
    obtain ⟨hc, hn⟩ := he hc
    obtain ⟨current, hcurrent⟩ := earlier.exists_periodAt t.ctx.now
    have hs := earlier.shows_live hc hn hcurrent (Fin.le_refl current)
    have hshow := earlier.shows_call hc hn hcurrent (fun q => earlier.shows_live hc hn hcurrent)
      t.call current
    obtain ⟨before, ctx, c⟩ := t
    obtain rfl : before = earlier.registry := hb
    exact ⟨current, hcurrent, Transition.totalsExact earlier.rosterCounts hs
      (hshow.1 (Fin.le_refl current))⟩

theorem keepsTotals_oneReward : oneReward.Chronological ∧
    (oneReward.registry.statsAt 0).capacity = 10 ∧ oneReward.KeepsTotals :=
  ⟨chronological_oneReward, by decide +kernel,
    keepsTotals_of_chronological oneReward chronological_oneReward⟩

end Run

end StorageIncentives
