import Mathlib.Logic.Basic
import StorageIncentives.Proofs.Acceptance

/-!
# Success is acceptance

Each procedure is unfolded once: it succeeds exactly when its rule of `Accepts` applies, with the
answer and the world of the rule. `perform_cases` is what the theory of runs starts from.
-/

namespace StorageIncentives

open Std (ExtTreeMap)
open Procedure Operation

variable {r : Registry} {ctx : Context} {answer : Answer} {w w' : World}

/-- A call that succeeds with an answer and leaves a world, from a registry and nothing shown. -/
def Succeeds (r : Registry) (ctx : Context) (call : Call) (answer : Answer) (w : World) : Prop :=
  call.procedure.Returns ctx ⟨r, [], []⟩ answer w

section

-- All proofs of the section unfold these. With the tag Lean makes the twenty equations of
-- `procedure` here; the proofs, which run side by side, would otherwise all wait for them.
attribute [local simp] Succeeds Call.procedure Call.quiet

-- ---------------------------------------------------------------------------
-- Administration
-- ---------------------------------------------------------------------------

theorem succeeds_transferAdmin {successor : Account} :
    Succeeds r ctx (.transferAdmin successor) answer w ↔
      Accepts r ctx (.transferAdmin successor) answer w := by
  simp [transferAdmin, and_assoc]
  constructor
  · rintro ⟨hd, ha, hn, rfl, rfl⟩
    exact .transferAdmin ⟨hd, ha⟩ hn
  · intro h
    cases h with
    | transferAdmin byAdmin hn => exact ⟨byAdmin.1, byAdmin.2, hn, rfl, rfl⟩

theorem succeeds_addChallenger {account : Account} :
    Succeeds r ctx (.addChallenger account) answer w ↔
      Accepts r ctx (.addChallenger account) answer w := by
  simp [addChallenger, and_assoc]
  constructor
  · rintro ⟨hd, ha, challengers, hi, rfl, rfl⟩
    exact .addChallenger ⟨hd, ha⟩ hi
  · intro h
    cases h with
    | addChallenger byAdmin inserted => exact ⟨byAdmin.1, byAdmin.2, _, inserted, rfl, rfl⟩

theorem succeeds_removeChallenger {account : Account} :
    Succeeds r ctx (.removeChallenger account) answer w ↔
      Accepts r ctx (.removeChallenger account) answer w := by
  simp [removeChallenger, and_assoc]
  constructor
  · rintro ⟨hd, ha, challengers, he, rfl, rfl⟩
    exact .removeChallenger ⟨hd, ha⟩ he
  · intro h
    cases h with
    | removeChallenger byAdmin erased => exact ⟨byAdmin.1, byAdmin.2, _, erased, rfl, rfl⟩

theorem succeeds_addStorageAdmin {account : Account} :
    Succeeds r ctx (.addStorageAdmin account) answer w ↔
      Accepts r ctx (.addStorageAdmin account) answer w := by
  simp [addStorageAdmin, and_assoc]
  constructor
  · rintro ⟨hd, ha, storageAdmins, hi, rfl, rfl⟩
    exact .addStorageAdmin ⟨hd, ha⟩ hi
  · intro h
    cases h with
    | addStorageAdmin byAdmin inserted => exact ⟨byAdmin.1, byAdmin.2, _, inserted, rfl, rfl⟩

theorem succeeds_removeStorageAdmin {account : Account} :
    Succeeds r ctx (.removeStorageAdmin account) answer w ↔
      Accepts r ctx (.removeStorageAdmin account) answer w := by
  simp [removeStorageAdmin, and_assoc]
  constructor
  · rintro ⟨hd, ha, storageAdmins, he, rfl, rfl⟩
    exact .removeStorageAdmin ⟨hd, ha⟩ he
  · intro h
    cases h with
    | removeStorageAdmin byAdmin erased => exact ⟨byAdmin.1, byAdmin.2, _, erased, rfl, rfl⟩

theorem succeeds_updateConfig {config : Config} :
    Succeeds r ctx (.updateConfig config) answer w ↔
      Accepts r ctx (.updateConfig config) answer w := by
  simp [updateConfig, and_assoc]
  constructor
  · rintro ⟨hd, ha, ⟨_, hv⟩, clock, hc, period, hp, rfl, rfl⟩
    exact .updateConfig ⟨hd, ha⟩ hv hc hp
  · intro h
    cases h with
    | updateConfig byAdmin hv hc hp =>
      exact ⟨byAdmin.1, byAdmin.2, ⟨(), hv⟩, _, hc, _, hp, rfl, rfl⟩

theorem succeeds_setPaused {paused : Bool} :
    Succeeds r ctx (.setPaused paused) answer w ↔ Accepts r ctx (.setPaused paused) answer w := by
  simp [setPaused, and_assoc]
  constructor
  · rintro ⟨hd, ha, hn, rfl, rfl⟩
    exact .setPaused ⟨hd, ha⟩ hn
  · intro h
    cases h with
    | setPaused byAdmin hn => exact ⟨byAdmin.1, byAdmin.2, hn, rfl, rfl⟩

theorem succeeds_fund : Succeeds r ctx .fund answer w ↔ Accepts r ctx .fund answer w := by
  simp [fund, and_assoc]
  constructor
  · rintro ⟨hd, rfl, rfl⟩
    exact .fund hd
  · intro h
    cases h with
    | fund hd => exact ⟨hd, rfl, rfl⟩

theorem succeeds_updateContract :
    Succeeds r ctx .updateContract answer w ↔ Accepts r ctx .updateContract answer w := by
  simp [updateContract, and_assoc]
  constructor
  · rintro ⟨hd, ha, hc, rfl, rfl⟩
    exact .updateContract ⟨hd, ha⟩ hc
  · intro h
    cases h with
    | updateContract byAdmin hc => exact ⟨byAdmin.1, byAdmin.2, hc, rfl, rfl⟩

theorem succeeds_migrate : Succeeds r ctx .migrate answer w ↔ Accepts r ctx .migrate answer w := by
  simp [migrate, and_assoc]
  constructor
  · rintro ⟨rfl, rfl⟩
    exact .migrate
  · intro h
    cases h with
    | migrate => exact ⟨rfl, rfl⟩

-- ---------------------------------------------------------------------------
-- Nodes
-- ---------------------------------------------------------------------------

theorem succeeds_registerNode {capacity : Word} :
    Succeeds r ctx (.registerNode capacity) answer w ↔
      Accepts r ctx (.registerNode capacity) answer w := by
  simp [registerNode, and_assoc, map_ok]
  constructor
  · rintro ⟨hr, ⟨_, hc⟩, hf, allocated, ht, period, hp, activeNodes, hs, rfl, rfl⟩
    exact .registerNode hr hc hf ht hp hs
  · intro h
    cases h with
    | registerNode hr hc hf ht hp hs =>
      exact ⟨hr, ⟨(), hc⟩, hf, _, ht, _, hp, _, hs, rfl, rfl⟩

theorem succeeds_updateAllocation {capacity : Word} :
    Succeeds r ctx (.updateAllocation capacity) answer w ↔
      Accepts r ctx (.updateAllocation capacity) answer w := by
  simp [updateAllocation, and_assoc]
  constructor
  · rintro ⟨hr, node, hn, ⟨_, hc⟩, ha, others, ho, allocated, ht, period, hp, rfl, rfl⟩
    exact .updateAllocation hr hn hc ha ho ht hp
  · intro h
    cases h with
    | updateAllocation hr hn hc ha ho ht hp =>
      exact ⟨hr, _, hn, ⟨(), hc⟩, ha, _, ho, _, ht, _, hp, rfl, rfl⟩

theorem succeeds_unregisterNode :
    Succeeds r ctx .unregisterNode answer w ↔ Accepts r ctx .unregisterNode answer w := by
  simp [unregisterNode, and_assoc]
  constructor
  · rintro ⟨hr, node, hn, ha, activeNodes, hl, period, hp, allocated, ho, rfl, rfl⟩
    exact .unregisterNode hr hn ha hl hp ho
  · intro h
    cases h with
    | unregisterNode hr hn ha hl hp ho => exact ⟨hr, _, hn, ha, _, hl, _, hp, _, ho, rfl, rfl⟩

theorem returns_forM_requireLabel {label : Label} {texts : List String} {u : Unit} :
    (forM texts (requireLabel label)).Returns ctx w u w' ↔
      (∀ text ∈ texts, 0 < text.utf8ByteSize ∧ text.utf8ByteSize ≤ label.maxBytes) ∧ w = w' := by
  induction texts with
  | nil => simp
  | cons text texts ih => simp [ih, and_assoc]

theorem succeeds_updateMetadata {metadata : Metadata} :
    Succeeds r ctx (.updateMetadata metadata) answer w ↔
      Accepts r ctx (.updateMetadata metadata) answer w := by
  simp [updateMetadata, requireMetadata, and_assoc, returns_forM_requireLabel]
  constructor
  · rintro ⟨hn, he, hf, hl, rfl, rfl⟩
    exact .updateMetadata hn he hf hl
  · intro h
    cases h with
    | updateMetadata hn he hf hl => exact ⟨hn, he, hf, hl, rfl, rfl⟩

-- ---------------------------------------------------------------------------
-- Challenges
-- ---------------------------------------------------------------------------

theorem succeeds_issueChallenge {id chunk : String} {nodeId : Account} {nonce : Word} :
    Succeeds r ctx (.issueChallenge id nodeId chunk nonce) answer w ↔
      Accepts r ctx (.issueChallenge id nodeId chunk nonce) answer w := by
  simp [issueChallenge, and_assoc, map_ok]
  constructor
  · rintro ⟨hr, hc, hi, hi', hk, hk', hf, node, hn, ha, deadline, hd, period, hp, issued, hs,
      node', hn', challengesIssued, ht, rfl, rfl⟩
    exact .issueChallenge hr hc ⟨hi, hi'⟩ ⟨hk, hk'⟩ hf hn ha hd hp hs hn' ht
  · intro h
    cases h with
    | issueChallenge hr hc hi hk hf hn ha hd hp hs hn' ht =>
      exact ⟨hr, hc, hi.1, hi.2, hk.1, hk.2, hf, _, hn, ha, _, hd, _, hp, _, hs, _, hn', _, ht, rfl,
        rfl⟩

theorem returns_recordPass {a : Account} {p : Period} {u : Unit} :
    (recordPass a p).Returns ctx w u w' ↔ ∃ passed nodes,
      (w.registry.statsAt p).passed.succOrTrap = .ok passed ∧
      CountsPass w.registry.nodes a p nodes ∧
      { w with registry := { w.registry.withStats p { w.registry.statsAt p with passed } with
        nodes } } = w' := by
  simp only [recordPass, returns_bind, returns_amendStats, bind_ok, returns_registry]
  constructor
  · rintro ⟨_, _, ⟨_, ⟨passed, hs, hp⟩, rfl⟩, _, _, ⟨rfl, rfl⟩, h⟩
    cases hp
    cases hn : w.registry.nodes[a]? with
    | none =>
      simp only [hn, returns_pure] at h
      exact ⟨passed, _, hs, .unknown hn, h.2⟩
    | some n =>
      simp only [hn, returns_bind, returns_computed, returns_setNode] at h
      obtain ⟨n', _, ⟨hn', rfl⟩, rfl⟩ := h
      exact ⟨passed, _, hs, .known hn hn', rfl⟩
  · rintro ⟨passed, nodes, hs, hc, rfl⟩
    refine ⟨(), _, ⟨_, ⟨passed, hs, rfl⟩, rfl⟩, _, _, ⟨rfl, rfl⟩, ?_⟩
    cases hc with
    | known hn hn' =>
      simp only [hn, returns_bind, returns_computed, returns_setNode]
      exact ⟨_, _, ⟨hn', rfl⟩, rfl⟩
    | unknown hn =>
      simp only [hn, returns_pure, true_and]
      rfl

theorem succeeds_submitProof {id : String} {proof : Bytes} :
    Succeeds r ctx (.submitProof id proof) answer w ↔
      Accepts r ctx (.submitProof id proof) answer w := by
  simp only [Succeeds, Call.procedure, submitProof]
  cases hv : r.config.proofScheme.accepts proof with
  | true =>
    simp [and_assoc, hv, returns_recordPass]
    constructor
    · rintro ⟨hr, hl, c, hc, hp, hn, ht, passed, hs, nodes, hd, rfl, rfl⟩
      exact .proofPassed hr hl hc hp hn ht hv hs hd
    · intro h
      cases h with
      | proofPassed hr hl hc hp hn ht _ hs hd =>
        exact ⟨hr, hl, _, hc, hp, hn, ht, _, hs, _, hd, rfl, rfl⟩
      | proofFailed _ _ _ _ _ _ hv' => simp [hv] at hv'
  | false =>
    simp [and_assoc, hv]
    constructor
    · rintro ⟨hr, hl, c, hc, hp, hn, ht, rfl, rfl⟩
      exact .proofFailed hr hl hc hp hn ht hv
    · intro h
      cases h with
      | proofPassed _ _ _ _ _ _ hv' _ _ => simp [hv] at hv'
      | proofFailed hr hl hc hp hn ht _ => exact ⟨hr, hl, _, hc, hp, hn, ht, rfl, rfl⟩

/-- The challenges and the events of a world replaced. -/
def World.withExpiry (w : World) (s : ExtTreeMap String Challenge × List Event) : World :=
  { w with registry := { w.registry with challenges := s.1 }, events := s.2 }

/-- Whether an id is expired shows in the events, which grow by one or not at all. -/
def expires (ctx : Context) (s : ExtTreeMap String Challenge × List Event) (id : String) : Bool :=
  s.1[id]?.any (·.isOverdue ctx.now)

theorem length_expireOne (s : ExtTreeMap String Challenge × List Event) (id : String) :
    (expireOne ctx s id).2.length = if expires ctx s id then s.2.length + 1 else s.2.length := by
  unfold expireOne expires
  cases s.1[id]? with
  | none => simp
  | some c => by_cases h : c.isOverdue ctx.now <;> simp [h]

theorem returns_expireChallenge {id : String} {b : Bool} :
    (expireChallenge id).Returns ctx w b w' ↔
      expires ctx (w.registry.challenges, w.events) id = b ∧
      w.withExpiry (expireOne ctx (w.registry.challenges, w.events) id) = w' := by
  have same : w.withExpiry (w.registry.challenges, w.events) = w := rfl
  simp only [expireChallenge, returns_bind, returns_registry]
  cases hc : w.registry.challenges[id]? with
  | none =>
    simp only [and_assoc, exists_and_left, exists_eq_left', hc, returns_pure, Bool.false_eq,
      expires, Option.any_none, expireOne, same]
  | some c =>
    by_cases ho : c.isOverdue ctx.now
    · simp [and_assoc, hc, ho, expireOne, expires, World.withExpiry, and_comm]
    · simp [and_assoc, hc, ho, expireOne, expires, same]

theorem returns_expireAll {ids : List String} {k n : Nat} :
    (ids.foldlM (fun count id => do return if ← expireChallenge id then count + 1 else count)
      k).Returns ctx w n w' ↔
      n + w.events.length = k + w'.events.length ∧
      w.withExpiry (ids.foldl (expireOne ctx) (w.registry.challenges, w.events)) = w' := by
  induction ids generalizing k w with
  | nil =>
    have same : w.withExpiry (w.registry.challenges, w.events) = w := rfl
    simp only [List.foldlM_nil, List.foldl_nil, returns_pure, same]
    constructor
    · rintro ⟨rfl, rfl⟩
      exact ⟨rfl, rfl⟩
    · rintro ⟨hn, rfl⟩
      exact ⟨by omega, rfl⟩
  | cons id ids ih =>
    let v := w.withExpiry (expireOne ctx (w.registry.challenges, w.events) id)
    have hv : v.events.length = if expires ctx (w.registry.challenges, w.events) id then
        w.events.length + 1 else w.events.length := length_expireOne _ id
    have hw : v.withExpiry (ids.foldl (expireOne ctx) (v.registry.challenges, v.events)) =
        w.withExpiry ((id :: ids).foldl (expireOne ctx) (w.registry.challenges, w.events)) := rfl
    simp only [List.foldlM_cons, returns_bind, returns_pure, returns_expireChallenge, ih]
    constructor
    · rintro ⟨_, _, ⟨_, _, ⟨rfl, rfl⟩, rfl, rfl⟩, hn, rfl⟩
      refine ⟨?_, hw.symm⟩
      change n + v.events.length = _ at hn
      cases he : expires ctx (w.registry.challenges, w.events) id with
      | true =>
        simp only [he, if_true] at hv hn
        omega
      | false =>
        simp only [he, Bool.false_eq_true, if_false] at hv hn
        omega
    · rintro ⟨hn, rfl⟩
      refine ⟨_, v, ⟨_, _, ⟨rfl, rfl⟩, rfl, rfl⟩, ?_, hw⟩
      cases he : expires ctx (w.registry.challenges, w.events) id with
      | true =>
        simp only [he, if_true] at hv ⊢
        omega
      | false =>
        simp only [he, Bool.false_eq_true, if_false] at hv ⊢
        omega

theorem succeeds_expireChallenges {ids : List String} :
    Succeeds r ctx (.expireChallenges ids) answer w ↔
      Accepts r ctx (.expireChallenges ids) answer w := by
  simp only [Succeeds, Call.procedure, expireChallenges]
  simp only [returns_bind, returns_requireUnpaused, returns_require, returns_expireAll,
    returns_pure]
  constructor
  · rintro ⟨n, _, ⟨_, _, ⟨hr, rfl⟩, _, _, ⟨hs, rfl⟩, hn, rfl⟩, rfl, rfl⟩
    obtain rfl : n = _ := by simpa [World.withExpiry] using hn
    exact .expireChallenges hr hs
  · intro h
    cases h with
    | expireChallenges hr hs =>
      exact ⟨_, _, ⟨(), _, ⟨hr, rfl⟩, (), _, ⟨hs, rfl⟩, by simp [World.withExpiry], rfl⟩, rfl, rfl⟩

-- ---------------------------------------------------------------------------
-- Rewards and bookings
-- ---------------------------------------------------------------------------

theorem succeeds_distributeRewards {period : Period} {candidates : List Account} :
    Succeeds r ctx (.distributeRewards period candidates) answer w ↔
      Accepts r ctx (.distributeRewards period candidates) answer w := by
  simp [distributeRewards, and_assoc]
  constructor
  · rintro ⟨hr, hc, current, hn, hs, he, ho, due, hd, pending, hp, total, ht, rfl, rfl⟩
    exact .distributeRewards hr hc hn hs he ho hd hp ht
  · intro h
    cases h with
    | distributeRewards hr hc hn hs he ho hd hp ht =>
      exact ⟨hr, hc, _, hn, hs, he, ho, _, hd, _, hp, _, ht, rfl, rfl⟩

theorem succeeds_claimRewards :
    Succeeds r ctx .claimRewards answer w ↔ Accepts r ctx .claimRewards answer w := by
  simp [claimRewards, and_assoc]
  constructor
  · rintro ⟨node, hn, hp, hc, rfl, rfl⟩
    exact .claimRewards hn hp hc
  · intro h
    cases h with
    | claimRewards hn hp hc => exact ⟨_, hn, hp, hc, rfl, rfl⟩

theorem succeeds_bookCapacity {units : Word} :
    Succeeds r ctx (.bookCapacity units) answer w ↔
      Accepts r ctx (.bookCapacity units) answer w := by
  simp [bookCapacity, and_assoc]
  have refund {price : Amount} {v : World} {u : Unit} :
      (if ctx.deposit.subSat price = 0 then pure ()
        else promise (.payment ctx.caller (ctx.deposit.subSat price))).Returns ctx v u w ↔
      { v with receipts := v.receipts ++ if ctx.deposit.subSat price = 0 then []
        else [.payment ctx.caller (ctx.deposit.subSat price)] } = w := by
    split <;> simp
  simp only [refund]
  constructor
  · rintro ⟨hr, hu, price, hp, hd, hf, total, ho, booked, hb, ⟨_, rfl⟩, rfl⟩
    exact .bookCapacity hr hu hp hd hf ho hb
  · intro h
    cases h with
    | bookCapacity hr hu hp hd hf ho hb =>
      exact ⟨hr, hu, _, hp, hd, hf, _, ho, _, hb, ⟨(), rfl⟩, rfl⟩

end

-- ---------------------------------------------------------------------------
-- All calls
-- ---------------------------------------------------------------------------

theorem succeeds_iff_accepts {call : Call} :
    Succeeds r ctx call answer w ↔ Accepts r ctx call answer w := by
  cases call with
  | transferAdmin => exact succeeds_transferAdmin
  | addChallenger => exact succeeds_addChallenger
  | removeChallenger => exact succeeds_removeChallenger
  | addStorageAdmin => exact succeeds_addStorageAdmin
  | removeStorageAdmin => exact succeeds_removeStorageAdmin
  | updateConfig => exact succeeds_updateConfig
  | setPaused => exact succeeds_setPaused
  | fund => exact succeeds_fund
  | updateContract => exact succeeds_updateContract
  | migrate => exact succeeds_migrate
  | registerNode => exact succeeds_registerNode
  | updateAllocation => exact succeeds_updateAllocation
  | unregisterNode => exact succeeds_unregisterNode
  | updateMetadata => exact succeeds_updateMetadata
  | issueChallenge => exact succeeds_issueChallenge
  | submitProof => exact succeeds_submitProof
  | expireChallenges => exact succeeds_expireChallenges
  | distributeRewards => exact succeeds_distributeRewards
  | claimRewards => exact succeeds_claimRewards
  | bookCapacity => exact succeeds_bookCapacity

/-- A call fails and changes nothing, or is accepted. -/
theorem perform_cases (r : Registry) (ctx : Context) (call : Call) :
    (∃ fault, r.perform ctx call = (r, .silent (.error fault))) ∨
      ∃ answer w, Accepts r ctx call answer w ∧
        r.perform ctx call = (w.registry, ⟨.ok answer, w.events, w.receipts⟩) := by
  cases h : call.procedure.runIn ctx ⟨r, [], []⟩ with
  | mk result w =>
    cases result with
    | error fault => exact .inl ⟨fault, by simp [Registry.perform, h]⟩
    | ok answer =>
      exact .inr ⟨answer, w, succeeds_iff_accepts.1 h, by simp [Registry.perform, h]⟩

end StorageIncentives
