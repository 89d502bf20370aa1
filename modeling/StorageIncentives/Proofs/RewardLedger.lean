import StorageIncentives.Proofs.Authority
import StorageIncentives.Proofs.Earners

/-!
# Rewards by the ledger of challenges

A distribution is decided by counters, but what it does can be told from the challenges themselves:
it needs that every active candidate was last challenged in the period, and it pays those that
passed every challenge which the policy asks for, each for its capacity and once. The counters tell
the same as long as time does not go back.
-/

namespace StorageIncentives

open Std (ExtTreeMap TransOrd LawfulEqOrd)

/-- Whether a challenge decides about the reward for `p`. -/
def Eligibility.asksFor : Eligibility → Period → Challenge → Bool
  | .lifetime, _, _ => true
  | .perPeriod, p, c => c.issued = p

namespace Registry

variable (r : Registry) (p : Period) (a : Account)

/-- The challenges that were ever issued to `a`. -/
def challengesTo : List Challenge := (r.challenges.toList.map (·.2)).filter (·.node = a)

/-- A challenge was issued to `a` in `p`, and none in a later period. -/
def LastChallengedIn : Prop :=
  (∃ c ∈ r.challengesTo a, c.issued = p) ∧ ∀ c ∈ r.challengesTo a, c.issued ≤ p

def PassedAll : Prop :=
  ∀ c ∈ r.challengesTo a, r.config.eligibility.asksFor p c = true → c.status = .passed

/-- The node of `a` is active and passed what the policy asks for. -/
def Deserves : Prop := r.IsActive a ∧ r.PassedAll p a

instance : Decidable (r.IsActive a) :=
  decidable_of_iff ((r.nodes[a]?).any (·.active) = true) (Option.any_eq_true ..)

instance : Decidable (r.LastChallengedIn p a) := inferInstanceAs (Decidable (_ ∧ _))

instance : Decidable (r.PassedAll p a) := inferInstanceAs (Decidable (∀ c ∈ r.challengesTo a, _))

instance : Decidable (r.Deserves p a) := inferInstanceAs (Decidable (_ ∧ _))

/-- The candidates that are paid, once each and in their order. -/
def deserving (candidates : List Account) : List Account :=
  candidates.eraseDups.filter (r.Deserves p ·)

/-- When a distribution is accepted. -/
structure CanDistribute (r : Registry) (ctx : Context) (p : Period) (candidates : List Account) :
    Prop where
  running : r.paused = false
  challenger : r.MayChallenge ctx.caller
  started : ∃ current, r.periodAt ctx.now = .ok current ∧ p ≤ current
  nonempty : candidates ≠ []
  once : (r.statsAt p).distributed = false
  covered : ∀ a ∈ candidates, r.IsActive a → r.LastChallengedIn p a
  prices : ∀ a ∈ r.deserving p candidates, r.dueTo a < 2 ^ 128
  sum : r.dueSum (r.deserving p candidates) < 2 ^ 128
  pending : r.pendingRewards.val + r.dueSum (r.deserving p candidates) < 2 ^ 128
  total : r.distributedRewards.val + r.dueSum (r.deserving p candidates) < 2 ^ 128

end Registry

/-- What an accepted distribution does. -/
structure Transition.Pays (t : Transition) (p : Period) (accounts : List Account) : Prop where
  outcome : ∃ total : Amount, total.val = t.before.dueSum accounts ∧ t.outcome =
    ⟨.ok (.amount total), [.rewardsDistributed t.ctx.caller p accounts total], []⟩
  credited : ∀ a ∈ accounts, ∃ (n : Node) (pendingRewards : Amount),
    t.before.nodes[a]? = some n ∧
      pendingRewards.val = n.pendingRewards.val +
        n.capacity.val * t.before.config.rewardPerUnit.val ∧
      t.after.nodes[a]? = some { n with pendingRewards, lastRewarded := some p }
  others : ∀ a ∉ accounts, t.after.nodes[a]? = t.before.nodes[a]?
  record : ∃ rewards : Amount,
    rewards.val = (t.before.statsAt p).rewards.val + t.before.dueSum accounts ∧
      t.after.statsAt p = { t.before.statsAt p with rewards, distributed := true }
  records : ∀ q, q ≠ p → t.after.statsAt q = t.before.statsAt q
  pending : t.after.pendingRewards.val = t.before.pendingRewards.val + t.before.dueSum accounts
  total : t.after.distributedRewards.val =
    t.before.distributedRewards.val + t.before.dueSum accounts
  rest : t.after = { t.before with
    nodes := t.after.nodes
    history := t.after.history
    pendingRewards := t.after.pendingRewards
    distributedRewards := t.after.distributedRewards }

variable {r : Registry} {ctx : Context} {p : Period} {a : Account} {n : Node} {c : Challenge}
  {l candidates : List Account} {answer : Answer} {w : World} {due : Payout}

-- ---------------------------------------------------------------------------
-- Counting all of a kind
-- ---------------------------------------------------------------------------

section

variable {K V : Type} [Ord K] [TransOrd K] {m : ExtTreeMap K V} {f g : V → Nat}

theorem tally_add : tally m (fun v => f v + g v) = tally m f + tally m g := List.sum_map_add

end

section

variable {m : ExtTreeMap String Challenge} {P : Account → Period → Bool → Bool}

theorem challengesOf_split : challengesOf m P =
    challengesOf m (fun node issued passed => P node issued passed && passed) +
      challengesOf m fun node issued passed => P node issued passed && !passed := by
  unfold challengesOf count
  rw [← tally_add]
  refine congrArg (tally m) (funext fun c => ?_)
  by_cases passed : c.status = .passed <;> simp [passed]

/-- As many are passed as there are if all of them are passed. -/
theorem challengesOf_passed_iff :
    challengesOf m (fun node issued passed => P node issued passed && passed) = challengesOf m P ↔
      ∀ (id : String) (c : Challenge), m[id]? = some c →
        P c.node c.issued (c.status = .passed) = true → c.status = .passed := by
  rw [challengesOf_split (P := P), Nat.left_eq_add, challengesOf_eq_zero_iff]
  simp

end

-- ---------------------------------------------------------------------------
-- The counters tell what the challenges do
-- ---------------------------------------------------------------------------

namespace Registry

theorem mem_challengesTo :
    c ∈ r.challengesTo a ↔ ∃ id : String, r.challenges[id]? = some c ∧ c.node = a := by
  simp [challengesTo, ExtTreeMap.mem_toList_iff_getElem?_eq_some]

theorem passedAll_iff : r.PassedAll p a ↔ ∀ (id : String) (c : Challenge),
    r.challenges[id]? = some c →
      (decide (c.node = a) && r.config.eligibility.asksFor p c) = true → c.status = .passed := by
  simp only [PassedAll, mem_challengesTo, Bool.and_eq_true, decide_eq_true_eq]
  exact ⟨fun h id c hc asked => h c ⟨id, hc, asked.1⟩ asked.2,
    fun h c ⟨id, hc, own⟩ asked => h id c hc ⟨own, asked⟩⟩

theorem LastChallengedIn.unique {q : Period} (hp : r.LastChallengedIn p a)
    (hq : r.LastChallengedIn q a) : p = q := by
  obtain ⟨⟨c, hc, rfl⟩, latest⟩ := hp
  obtain ⟨⟨d, hd, rfl⟩, latest'⟩ := hq
  exact Fin.le_antisymm (latest' c hc) (latest d hd)

theorem ScopedCountersAgree.lastChallengedIn (hs : r.ScopedCountersAgree a n)
    (hl : n.lastChallenged = some p) : r.LastChallengedIn p a := by
  obtain ⟨id, c, hc, own⟩ := challengesOf_pos_iff.1 (hs.last p hl).1
  simp only [Bool.and_eq_true, decide_eq_true_eq] at own
  refine ⟨⟨c, mem_challengesTo.2 ⟨id, hc, own.1⟩, own.2⟩, fun d hd => ?_⟩
  obtain ⟨id, known, own⟩ := mem_challengesTo.1 hd
  obtain ⟨q, last, hle⟩ := hs.exists_last known own
  exact Option.some.inj (hl.symm.trans last) ▸ hle

theorem ScopedCountersAgree.lastChallenged_iff (hs : r.ScopedCountersAgree a n) :
    n.lastChallenged = some p ↔ r.LastChallengedIn p a := by
  refine ⟨hs.lastChallengedIn, fun h => ?_⟩
  obtain ⟨c, hc, -⟩ := h.1
  obtain ⟨id, known, own⟩ := mem_challengesTo.1 hc
  obtain ⟨q, last, -⟩ := hs.exists_last known own
  rw [last, (hs.lastChallengedIn last).unique h]

/-- In the period of its last challenge, the policy is satisfied by the counters of a node exactly
if it is by the challenges. -/
theorem CountersAgree.earned_iff (hr : r.CountersAgree) (hs : r.ScopedCountersAgree a n)
    (found : r.nodes[a]? = some n) (hl : n.lastChallenged = some p) :
    r.config.eligibility.earned n p = true ↔ r.PassedAll p a := by
  rw [passedAll_iff]
  cases r.config.eligibility with
  | lifetime =>
    obtain ⟨challenges, passed⟩ := hr.lifetime a n found
    rw [Eligibility.earned, Node.hasCleanHistory_iff, challenges, passed]
    simp only [Eligibility.asksFor, Bool.and_true]
    exact challengesOf_passed_iff (P := fun node _ _ => node = a)
  | perPeriod =>
    have challenges := hs.challenges
    have passed := hs.passed
    simp only [hl, Option.some.injEq, eq_comm (a := p), ← Bool.and_assoc] at challenges passed
    rw [Eligibility.earned, Node.hasCleanPeriod_iff hl, challenges, passed]
    exact challengesOf_passed_iff (P := fun node issued _ => node = a && issued = p)

section

variable (hr : r.CountersAgree)
  (hs : ∀ (a : Account) (n : Node), r.nodes[a]? = some n → r.ScopedCountersAgree a n)

include hs

theorem covers_iff_lastChallengedIn :
    r.covers p a = true ↔ (r.IsActive a → r.LastChallengedIn p a) := by
  rw [covers_iff]
  constructor
  · rintro covered ⟨n, found, active⟩
    exact (hs a n found).lastChallenged_iff.1 (covered n found active)
  · exact fun covered n found active =>
      (hs a n found).lastChallenged_iff.2 (covered ⟨n, found, active⟩)

include hr

theorem earns_iff_deserves (covered : r.covers p a = true) :
    r.earns p a = true ↔ r.Deserves p a := by
  rw [earns_iff]
  constructor
  · rintro ⟨n, found, active, earned⟩
    have last := covers_iff.1 covered n found active
    exact ⟨⟨n, found, active⟩, (hr.earned_iff (hs a n found) found last).1 earned⟩
  · rintro ⟨⟨n, found, active⟩, passed⟩
    have last := covers_iff.1 covered n found active
    exact ⟨n, found, active, (hr.earned_iff (hs a n found) found last).2 passed⟩

/-- Where all candidates are covered, those earn a reward by their counters that deserve it by their
challenges. -/
theorem earners_eq_deserving (covered : ∀ a ∈ candidates, r.covers p a = true) :
    r.earners p candidates = r.deserving p candidates := by
  refine List.filter_congr fun a member => Bool.eq_iff_iff.2 ?_
  rw [earns_iff_deserves hr hs (covered a (List.mem_eraseDups.1 member)), decide_eq_true_iff]

end

-- ---------------------------------------------------------------------------
-- Acceptance
-- ---------------------------------------------------------------------------

/-- What a distribution relies on. -/
structure Distributing (r : Registry) : Prop where
  roles : r.RolesWellFormed
  counters : r.CountersAgree
  inPeriod : ∀ (a : Account) (n : Node), r.nodes[a]? = some n → r.ScopedCountersAgree a n
  balanced : r.Balanced
  history : r.history.WellFormed

namespace Distributing

variable (hr : r.Distributing)
include hr

theorem canDistribute (h : Accepts r ctx (.distributeRewards p candidates) answer w) :
    r.CanDistribute ctx p candidates := by
  cases h with
  | distributeRewards running challenger now started nonempty once payout pending total =>
    obtain ⟨covered, -, sum⟩ := Payout.ofCandidates_ok payout
    rw [earners_eq_deserving hr.counters hr.inPeriod covered] at sum
    rename_i current due pendingRewards distributedRewards
    have sumFits : r.dueSum (r.deserving p candidates) < 2 ^ 128 := sum ▸ due.total.isLt
    refine ⟨running, (mayChallenge_iff hr.roles).1 challenger, ⟨current, now, started⟩, nonempty,
      once, fun a member => (covers_iff_lastChallengedIn hr.inPeriod).1 (covered a member),
      fun a member => Nat.lt_of_le_of_lt (dueTo_le_dueSum member) sumFits, sumFits, ?_, ?_⟩
    · rw [← sum, ← Quantity.add?_eq_some_iff.1 pending]
      exact pendingRewards.isLt
    · rw [← sum, ← Quantity.add?_eq_some_iff.1 total]
      exact distributedRewards.isLt

theorem exists_payout (h : r.CanDistribute ctx p candidates) :
    ∃ due, Payout.ofCandidates r p candidates = .ok due ∧
      due.total.val = r.dueSum (r.deserving p candidates) := by
  have covered (a : Account) (member : a ∈ candidates) : r.covers p a = true :=
    (covers_iff_lastChallengedIn hr.inPeriod).2 (h.covered a member)
  have same := earners_eq_deserving hr.counters hr.inPeriod covered
  cases payout : Payout.ofCandidates r p candidates with
  | error cause =>
    rcases Payout.ofCandidates_error payout with ⟨a, member, -, uncovered⟩ | overflow
    · rw [covered a member] at uncovered
      cases uncovered
    · exact absurd h.sum (Nat.not_lt.2 (same ▸ overflow))
  | ok due =>
    obtain ⟨-, -, sum⟩ := Payout.ofCandidates_ok payout
    exact ⟨due, rfl, same ▸ sum⟩

theorem exists_accepts (h : r.CanDistribute ctx p candidates) :
    ∃ answer w, Accepts r ctx (.distributeRewards p candidates) answer w := by
  obtain ⟨due, payout, sum⟩ := hr.exists_payout h
  obtain ⟨current, now, started⟩ := h.started
  have pending : r.pendingRewards.val + due.total.val < 2 ^ 128 := sum ▸ h.pending
  have total : r.distributedRewards.val + due.total.val < 2 ^ 128 := sum ▸ h.total
  exact ⟨_, _, .distributeRewards h.running ((mayChallenge_iff hr.roles).2 h.challenger) now started
    h.nonempty h.once payout (Quantity.add?_eq_some_iff (c := ⟨_, pending⟩).2 rfl)
    (Quantity.add?_eq_some_iff (c := ⟨_, total⟩).2 rfl)⟩

theorem succeeds_iff :
    (∃ answer, (r.perform ctx (.distributeRewards p candidates)).2.result = .ok answer) ↔
      r.CanDistribute ctx p candidates := by
  constructor
  · rintro ⟨answer, succeeds⟩
    obtain ⟨w, h, -⟩ :=
      Transition.accepts_of_ok (t := ⟨r, ctx, .distributeRewards p candidates⟩) succeeds
    exact hr.canDistribute h
  · intro h
    obtain ⟨answer, w, h⟩ := hr.exists_accepts h
    exact ⟨answer, by rw [perform_of_accepts h]⟩

end Distributing

end Registry

-- ---------------------------------------------------------------------------
-- Effect
-- ---------------------------------------------------------------------------

/-- A credited node can claim the price of its capacity more, and nothing else of it changes. -/
theorem Payout.Sound.credited (hs : due.Sound r p) (hb : r.Balanced)
    (fits : r.pendingRewards.val + due.total.val < 2 ^ 128) (ha : a ∈ due.credits.map (·.1)) :
    ∃ (n : Node) (pendingRewards : Amount), r.nodes[a]? = some n ∧
      pendingRewards.val = n.pendingRewards.val + n.capacity.val * r.config.rewardPerUnit.val ∧
      (due.creditTo p r.nodes)[a]? = some { n with pendingRewards, lastRewarded := some p } := by
  rcases hs.creditTo_cases r.nodes p a with ⟨passedOver, -⟩ | ⟨reward, member, credited⟩
  · exact absurd ha passedOver
  obtain ⟨n, found, -, -, -, price⟩ := hs.earned _ member
  refine ⟨n, n.pendingRewards.addSat reward, found, ?_, by rw [credited, found]; rfl⟩
  have own : n.pendingRewards.val ≤ r.pendingRewards.val :=
    hb.pending ▸ le_tally (f := (·.pendingRewards.val)) found
  have part := hs.le_total member
  change reward.val = n.capacity.val * r.config.rewardPerUnit.val at price
  rw [Quantity.val_addSat, ← price]
  omega

theorem Transition.pays {t : Transition} (hr : t.before.Distributing)
    (call : t.call = .distributeRewards p candidates)
    (succeeds : t.outcome.result = .ok answer) : t.Pays p (t.before.deserving p candidates) := by
  obtain ⟨returned, amount, recorded, -⟩ :=
    (t.rewardStep hr.balanced).exact.distribution p candidates answer call succeeds
  rcases t.cases with ⟨fault, -, outcome⟩ | ⟨answer', w, h, after, outcome⟩
  · rw [outcome] at succeeds
    cases succeeds
  rw [outcome] at succeeds
  obtain ⟨r, ctx, _⟩ := t
  subst call
  cases h with
  | @distributeRewards _ _ _ due pendingRewards _ _ _ _ _ _ _ payout pending total =>
    obtain rfl : due.total = returned := Answer.amount.inj ((Except.ok.inj succeeds).trans amount)
    obtain ⟨covered, lines, sum⟩ := Payout.ofCandidates_ok payout
    have sound := Payout.sound_ofCandidates payout
    rw [Registry.earners_eq_deserving hr.counters hr.inPeriod covered] at lines sum
    have accounts : due.credits.map (·.1) = r.deserving p candidates := by
      have := congrArg (List.map (·.1)) lines
      simpa [Payout.lines, Function.comp_def] using this
    rw [← accounts] at sum ⊢
    have pendingSum := Quantity.add?_eq_some_iff.1 pending
    have fits : r.pendingRewards.val + due.total.val < 2 ^ 128 := pendingSum ▸ pendingRewards.isLt
    have written : (Transition.after ⟨r, ctx, .distributeRewards p candidates⟩).statsAt p =
        { r.statsAt p with
          rewards := (r.statsAt p).rewards.addSat due.total, distributed := true } := by
      rw [after]
      exact History.statsAt_put_self ..
    rw [written] at recorded
    refine ⟨⟨due.total, sum, outcome⟩, fun a member => ?_, fun a other => ?_,
      ⟨_, sum ▸ recorded, written⟩, fun q hq => ?_, ?_, ?_, ?_⟩
    · rw [after]
      exact sound.credited hr.balanced fits member
    · rw [after]
      refine ((sound.creditTo_cases r.nodes p a).resolve_right ?_).2
      rintro ⟨x, member, -⟩
      exact other (List.mem_map_of_mem (f := (·.1)) member)
    · rw [after]
      exact hr.history.statsAt_put rfl hq
    · rw [after, ← sum]
      exact pendingSum
    · rw [after, ← sum]
      exact Quantity.add?_eq_some_iff.1 total
    · rw [after]
      rfl

-- ---------------------------------------------------------------------------
-- Runs
-- ---------------------------------------------------------------------------

namespace Run

theorem distributing (run : Run) (hc : run.Chronological) : run.registry.Distributing :=
  ⟨run.rolesWellFormed, run.countersAgree, run.scopedCountersAgree hc, run.balanced,
    run.history_wellFormed⟩

/-- After a run whose time does not go back, a distribution succeeds exactly when it may, and it
pays those candidates that the challenges entitle, whoever asks for it and whatever it lists. -/
theorem distribution_follows_challenges (run : Run) (hc : run.Chronological) (ctx : Context)
    (p : Period) (candidates : List Account) :
    let t : Transition := ⟨run.registry, ctx, .distributeRewards p candidates⟩
    ((∃ answer, t.outcome.result = .ok answer) ↔ run.registry.CanDistribute ctx p candidates) ∧
      (run.registry.CanDistribute ctx p candidates →
        t.Pays p (run.registry.deserving p candidates)) := by
  have hr := run.distributing hc
  refine ⟨hr.succeeds_iff, fun h => ?_⟩
  obtain ⟨answer, succeeds⟩ := hr.succeeds_iff.2 h
  exact Transition.pays (t := ⟨run.registry, ctx, .distributeRewards p candidates⟩) hr rfl succeeds

/-- Bob answered his only challenge; he is listed twice and paid once. -/
theorem distribution_follows_challenges_served :
    let ctx : Context := .plain alice nanosPerHour
    served.Chronological ∧ served.registry.CanDistribute ctx 0 [bob, bob] ∧
      served.registry.deserving 0 [bob, bob] = [bob] ∧
      Transition.Pays ⟨served.registry, ctx, .distributeRewards 0 [bob, bob]⟩ 0 [bob] := by
  have chronological : served.Chronological := by decide
  have deserving : served.registry.deserving 0 [bob, bob] = [bob] := by decide +kernel
  obtain ⟨accepted, pays⟩ := distribution_follows_challenges served chronological
    (.plain alice nanosPerHour) 0 [bob, bob]
  have can := accepted.1 (Procedure.isOk_iff.1 (by decide +kernel))
  rw [deserving] at pays
  exact ⟨chronological, can, deserving, pays can⟩

end Run

end StorageIncentives
