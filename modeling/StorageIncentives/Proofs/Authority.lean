import StorageIncentives.Proofs.ChallengeLife
import StorageIncentives.Proofs.Distribution
import StorageIncentives.Proofs.Growth

/-!
# Authority

Whose word a call needs, and whom it cannot touch. The settings of the registry follow the admin,
challenges and distributions need a challenger, and what an account owns changes by its own calls
alone. Others can challenge its node, credit rewards to it and let its overdue challenges expire.
-/

namespace StorageIncentives

open Std (ExtTreeMap)

/-- What the admin decides. -/
structure Settings where
  admin : Account
  paused : Bool
  challengers : Roster
  storageAdmins : Roster
  config : Config
  clock : Clock

/-- What a node decides about itself, and what its own proofs earn. -/
structure Standing where
  capacity : Word
  registered : Period
  active : Bool
  passed : Word

def Node.standing (n : Node) : Standing := ⟨n.capacity, n.registered, n.active, n.passed⟩

/-- What is stored for an account and belongs to it. -/
structure Property where
  node : Option Standing
  metadata : Option Metadata
  booking : Option Word

namespace Registry

variable (r : Registry) (a : Account)

def settings : Settings :=
  ⟨r.admin, r.paused, r.challengers, r.storageAdmins, r.config, r.clock⟩

def propertyOf : Property where
  node := (r.nodes[a]?).map Node.standing
  metadata := r.metadata[a]?
  booking := r.bookings.booked? a

/-- The role of a challenger, by the list of its holders. -/
def MayChallenge : Prop := a = r.admin ∨ a ∈ r.challengers.slots

end Registry

namespace Transition

/-- The caller has the role that the effects of the call need. -/
structure Authorized (t : Transition) : Prop where
  settings : t.after.settings ≠ t.before.settings → t.before.Commands t.ctx
  version : t.after.version ≠ t.before.version → t.call = .migrate
  issue : ∀ id, id ∉ t.before.challenges → id ∈ t.after.challenges →
    t.before.MayChallenge t.ctx.caller
  distribution : ∀ p, (t.before.statsAt p).distributed = false →
    (t.after.statsAt p).distributed = true → t.before.MayChallenge t.ctx.caller

/-- What a call of somebody else may do to `a`. -/
structure LeavesAlone (t : Transition) (a : Account) : Prop where
  property : t.after.propertyOf a = t.before.propertyOf a
  rewards : t.before.pendingRewardsOf a ≤ t.after.pendingRewardsOf a
  payments : ∀ receipt ∈ t.outcome.receipts, receipt.receiver = a →
    ∀ amount, .transfer amount ∉ receipt.actions
  challenges : ∀ (id : String) (c : Challenge), t.before.challenges[id]? = some c → c.node = a →
    t.after.challenges[id]? = some c ∨ c.status = .pending ∧ c.deadline < t.ctx.now ∧
      t.after.challenges[id]? = some { c with status := .expired }

end Transition

variable {r r' : Registry} {ctx : Context} {call : Call} {answer : Answer} {w : World}
  {a b : Account} {n : Node} {t : Transition} {id : String} {p : Period}

-- ---------------------------------------------------------------------------
-- Roles
-- ---------------------------------------------------------------------------

theorem Accepts.settings_cases (h : Accepts r ctx call answer w) :
    w.registry.settings = r.settings ∨ r.Commands ctx := by
  cases h with
  | transferAdmin byAdmin _ => exact .inr byAdmin
  | addChallenger byAdmin _ => exact .inr byAdmin
  | removeChallenger byAdmin _ => exact .inr byAdmin
  | addStorageAdmin byAdmin _ => exact .inr byAdmin
  | removeStorageAdmin byAdmin _ => exact .inr byAdmin
  | updateConfig byAdmin _ _ _ => exact .inr byAdmin
  | setPaused byAdmin _ => exact .inr byAdmin
  | _ => exact .inl rfl

theorem Accepts.version_cases (h : Accepts r ctx call answer w) :
    w.registry.version = r.version ∨ call = .migrate := by
  cases h with
  | migrate => exact .inr rfl
  | _ => exact .inl rfl

theorem Transition.settings_cases (t : Transition) :
    t.after.settings = t.before.settings ∨ t.before.Commands t.ctx :=
  t.after_of_accepts (P := fun r => r.settings = t.before.settings ∨ t.before.Commands t.ctx)
    (.inl rfl) (·.settings_cases)

theorem Transition.version_cases (t : Transition) :
    t.after.version = t.before.version ∨ t.call = .migrate :=
  t.after_of_accepts (P := fun r => r.version = t.before.version ∨ t.call = .migrate)
    (.inl rfl) (·.version_cases)

theorem Registry.mayChallenge_iff (hr : r.RolesWellFormed) :
    r.isChallenger a = true ↔ r.MayChallenge a := by
  rw [isChallenger, MayChallenge, Bool.or_eq_true, decide_eq_true_iff,
    ← hr.challengers.mem_positions]
  exact or_congr_right ExtTreeMap.contains_iff_mem

theorem Transition.isChallenger_of_issued (h : t.issuedId? = some id) :
    t.before.isChallenger t.ctx.caller = true := by
  obtain ⟨node, chunk, nonce, answer, issue, accepted⟩ := issuedId?_eq_some_iff.1 h
  obtain ⟨w, ha, -⟩ := accepts_of_ok accepted
  rw [issue] at ha
  cases ha with
  | issueChallenge _ challenger _ _ _ _ _ _ _ _ _ _ => exact challenger

theorem Transition.isChallenger_of_distributed (h : t.distributedPeriod? = some p) :
    t.before.isChallenger t.ctx.caller = true := by
  unfold distributedPeriod? at h
  split at h
  · rename_i distribute accepted
    obtain ⟨w, ha, -⟩ := accepts_of_ok accepted
    rw [distribute] at ha
    cases ha with
    | distributeRewards _ challenger _ _ _ _ _ _ _ => exact challenger
  · cases h

/-- Where there was no challenge before, one was issued. -/
theorem Transition.issued_of_new (before : id ∉ t.before.challenges)
    (after : id ∈ t.after.challenges) : t.issuedId? = some id := by
  have step := t.challengeStep id
  rw [ExtTreeMap.getElem?_eq_none before, getElem?_pos _ _ after] at step
  generalize t.after.challenges[id] = c at step
  cases step with
  | issued _ accepted _ _ => exact accepted

theorem Transition.authorized (hr : t.before.RolesWellFormed) : t.Authorized where
  settings changed := t.settings_cases.resolve_left changed
  version changed := t.version_cases.resolve_left changed
  issue _ before after :=
    (Registry.mayChallenge_iff hr).1 (isChallenger_of_issued (issued_of_new before after))
  distribution p before after := by
    refine (Registry.mayChallenge_iff hr).1 (isChallenger_of_distributed (p := p) ?_)
    refine ((t.distributionStep.latch p).1 after).resolve_left fun distributed => ?_
    rw [before] at distributed
    cases distributed

-- ---------------------------------------------------------------------------
-- The property of others
-- ---------------------------------------------------------------------------

namespace Registry

theorem propertyOf_eq (nodes : (r'.nodes[a]?).map Node.standing = (r.nodes[a]?).map Node.standing)
    (metadata : r'.metadata[a]? = r.metadata[a]?)
    (bookings : r'.bookings.booked? a = r.bookings.booked? a) :
    r'.propertyOf a = r.propertyOf a := by
  rw [propertyOf, nodes, metadata, bookings, propertyOf]

end Registry

theorem CountsPass.getElem?_of_ne {nodes nodes' : ExtTreeMap Account Node}
    (h : CountsPass nodes b p nodes') (ha : a ≠ b) : nodes'[a]? = nodes[a]? := by
  cases h with
  | known _ _ => exact getElem?_insert_of_ne ha
  | unknown _ => rfl

theorem Node.standing_recordChallenge {n' : Node} (h : n.recordChallenge p = .ok n') :
    n'.standing = n.standing := by
  obtain ⟨_, _, -, -, rfl⟩ := recordChallenge_ok h
  rfl

theorem Accepts.propertyOf (h : Accepts r ctx call answer w) (ha : a ≠ ctx.caller) :
    w.registry.propertyOf a = r.propertyOf a := by
  have others {n : Node} : ((r.nodes.insert ctx.caller n)[a]?).map Node.standing =
      (r.nodes[a]?).map Node.standing := congrArg _ (getElem?_insert_of_ne ha)
  cases h with
  | registerNode _ _ _ _ _ _ => exact Registry.propertyOf_eq others rfl rfl
  | updateAllocation _ _ _ _ _ _ _ => exact Registry.propertyOf_eq others rfl rfl
  | unregisterNode _ _ _ _ _ _ =>
    refine Registry.propertyOf_eq others ?_ rfl
    simp [ExtTreeMap.getElem?_erase, Ne.symm ha]
  | updateMetadata _ _ _ _ => exact Registry.propertyOf_eq rfl (getElem?_insert_of_ne ha) rfl
  | issueChallenge _ _ _ _ _ found _ _ _ _ recorded _ =>
    -- The node that is challenged may be that of `a`.
    exact Registry.propertyOf_eq (map_insert_same found (Node.standing_recordChallenge recorded) a)
      rfl rfl
  | proofPassed _ _ _ _ _ _ _ _ recorded =>
    exact Registry.propertyOf_eq (congrArg _ (recorded.getElem?_of_ne ha)) rfl rfl
  | distributeRewards _ _ _ _ _ _ payout _ _ =>
    exact Registry.propertyOf_eq
      ((Payout.sound_ofCandidates payout).map_creditTo (fun _ _ => rfl) a) rfl rfl
  | claimRewards _ _ _ => exact Registry.propertyOf_eq others rfl rfl
  | bookCapacity _ _ _ _ _ _ _ =>
    refine Registry.propertyOf_eq rfl rfl ?_
    rw [Bookings.booked?, Bookings.set, Bookings.lookup_setEntry, if_neg ha, Bookings.booked?]
  | _ => rfl

theorem Node.pendingRewards_le_credit (n : Node) (p : Period) (reward : Amount) :
    n.pendingRewards ≤ (n.credit p reward).pendingRewards := by
  show n.pendingRewards.val ≤ min (n.pendingRewards.val + reward.val) (2 ^ 128 - 1)
  omega

theorem Accepts.pendingRewardsOf_le (h : Accepts r ctx call answer w) (ha : a ≠ ctx.caller) :
    r.pendingRewardsOf a ≤ w.registry.pendingRewardsOf a := by
  cases hm : call.movesRewards with
  | false => exact Fin.le_of_eq ((h.rewardsKept hm).account a).symm
  | true =>
    cases h with
    | @distributeRewards p _ _ due _ _ _ _ _ _ _ _ payout _ _ =>
      show (r.nodes[a]?).elim 0 _ ≤ ((due.creditTo p r.nodes)[a]?).elim 0 _
      rcases (Payout.sound_ofCandidates payout).creditTo_cases r.nodes p a with
        ⟨-, same⟩ | ⟨reward, -, credited⟩
      · exact same ▸ Fin.le_refl _
      · rw [credited]
        cases r.nodes[a]? with
        | none => exact Fin.le_refl _
        | some n => exact n.pendingRewards_le_credit p reward
    | @claimRewards n _ _ _ =>
      show (r.nodes[a]?).elim 0 _ ≤
        ((r.nodes.insert ctx.caller { n with pendingRewards := 0 })[a]?).elim 0 _
      exact getElem?_insert_of_ne ha ▸ Fin.le_refl _
    | _ => cases hm

theorem Accepts.payments (h : Accepts r ctx call answer w) (ha : a ≠ ctx.caller)
    {receipt : Receipt} (hr : receipt ∈ w.receipts) (own : receipt.receiver = a) (amount : Amount) :
    .transfer amount ∉ receipt.actions := by
  cases h with
  | updateContract _ _ =>
    obtain rfl := List.mem_singleton.1 hr
    simp
  | claimRewards _ _ _ =>
    obtain rfl := List.mem_singleton.1 hr
    exact absurd own.symm ha
  | bookCapacity _ _ _ _ _ _ _ =>
    split at hr
    · cases hr
    · obtain rfl := List.mem_singleton.1 hr
      exact absurd own.symm ha
  | _ => cases hr

theorem Transition.challenge_cases (t : Transition) (ha : a ≠ t.ctx.caller) {c : Challenge}
    (known : t.before.challenges[id]? = some c) (assigned : c.node = a) :
    t.after.challenges[id]? = some c ∨ c.status = .pending ∧ c.deadline < t.ctx.now ∧
      t.after.challenges[id]? = some { c with status := .expired } := by
  have step := t.challengeStep id
  rw [known] at step
  generalize t.after.challenges[id]? = after at step
  cases step with
  | kept _ _ => exact .inl rfl
  | answered _ _ _ challenged _ => exact absurd (assigned.symm.trans challenged.symm) ha
  | expired _ _ pending late => exact .inr ⟨pending, late, rfl⟩

theorem Transition.leavesAlone (t : Transition) (ha : a ≠ t.ctx.caller) : t.LeavesAlone a := by
  rcases t.cases with ⟨fault, h, ho⟩ | ⟨answer, w, h, after, ho⟩
  · exact {
      property := by rw [h]
      rewards := h ▸ Fin.le_refl _
      payments := fun receipt hr => by
        rw [ho] at hr
        cases hr
      challenges := fun _ _ => t.challenge_cases ha }
  · exact {
      property := after ▸ h.propertyOf ha
      rewards := after ▸ h.pendingRewardsOf_le ha
      payments := fun receipt hr => h.payments ha (by rwa [ho] at hr)
      challenges := fun _ _ => t.challenge_cases ha }

-- ---------------------------------------------------------------------------
-- Runs
-- ---------------------------------------------------------------------------

namespace Run

/-- After any run, whoever calls whatever: the caller has the roles that it takes, and all other
accounts are left alone. -/
theorem calls_respect_authority (run : Run) (ctx : Context) (call : Call) :
    Transition.Authorized ⟨run.registry, ctx, call⟩ ∧
      ∀ a, a ≠ ctx.caller → Transition.LeavesAlone ⟨run.registry, ctx, call⟩ a :=
  ⟨Transition.authorized run.rolesWellFormed, fun _ ha => Transition.leavesAlone _ ha⟩

/-- Bob has answered the challenge of the first period. -/
def served : Run :=
  let started := Run.create alice .default 0 (.fresh alice .default 0) create_default
  let registered := started.call (.plain bob 5) (.registerNode 10)
  let issued := registered.call (.plain alice 7) (.issueChallenge "first" bob "chunk" 0)
  issued.call (.plain bob 8) (.submitProof "first" [1])

/-- Alice may distribute, which adds to what bob can claim and changes nothing else of his. -/
theorem calls_respect_authority_distribution :
    let t : Transition := ⟨served.registry, .plain alice nanosPerHour, .distributeRewards 0 [bob]⟩
    (t.before.pendingRewardsOf bob = 0 ∧ t.after.pendingRewardsOf bob = 10_000_000) ∧
      t.Authorized ∧ bob ≠ alice ∧ t.LeavesAlone bob := by
  have others : bob ≠ alice := by decide
  obtain ⟨authorized, untouched⟩ := served.calls_respect_authority (.plain alice nanosPerHour)
    (.distributeRewards 0 [bob])
  exact ⟨by decide +kernel, authorized, others, untouched bob others⟩

end Run

end StorageIncentives
