import StorageIncentives.Proofs.CounterBounds
import StorageIncentives.Proofs.Failure

/-!
# The life of a challenge

A challenge is issued once under its id and stays for good. Its terms are fixed then; its status
leaves `pending` once, by a proof from its node up to the deadline or by an expiry after it
(`ChallengeStep`). At every instant one of the two is open and the other is not.
-/

namespace StorageIncentives

open Std (ExtTreeMap)

def ProofScheme.verdict (proof : Bytes) : ChallengeStatus :=
  if proof.isEmpty then .failed else .passed

namespace Challenge

variable {c c' c'' : Challenge} {now : Instant}

/-- The challenge with its status moved out of `pending`, or as it is. -/
def Becomes (c c' : Challenge) : Prop :=
  ∃ status, c' = { c with status } ∧ (c.isResolved = true → status = c.status)

theorem Becomes.refl (c : Challenge) : c.Becomes c := ⟨c.status, rfl, fun _ => rfl⟩

theorem Becomes.of_pending (hp : c.status = .pending) (status : ChallengeStatus) :
    c.Becomes { c with status } := ⟨status, rfl, fun hr => by simp [isResolved, hp] at hr⟩

theorem Becomes.eq_of_resolved (h : c.Becomes c') (hr : c.isResolved = true) : c' = c := by
  obtain ⟨status, rfl, hs⟩ := h
  obtain rfl := hs hr
  rfl

theorem Becomes.trans (h : c.Becomes c') (h' : c'.Becomes c'') : c.Becomes c'' := by
  cases hr : c.isResolved with
  | true => exact h.eq_of_resolved hr ▸ h'
  | false =>
    obtain ⟨_, rfl, -⟩ := h
    obtain ⟨status, rfl, -⟩ := h'
    exact ⟨status, rfl, fun h => by simp [hr] at h⟩

theorem Becomes.of_status_ne (h : c.Becomes c') (hs : c'.status ≠ c.status) :
    c.isResolved = false ∧ c'.isResolved = true := by
  have pending : c.isResolved = false := by
    refine Bool.eq_false_iff.2 fun hr => hs ?_
    rw [h.eq_of_resolved hr]
  refine ⟨pending, ?_⟩
  rw [pending_of_not_resolved pending] at hs
  simpa [isResolved] using hs

/-- What an expiry at `now` makes of a challenge. -/
def expireAt (c : Challenge) (now : Instant) : Challenge :=
  if c.isOverdue now then { c with status := .expired } else c

theorem expireAt_of_pending (hp : c.status = .pending) :
    c.expireAt now = if c.deadline < now then { c with status := .expired } else c := by
  simp [expireAt, isOverdue, isResolved, hp]

theorem expireAt_expireAt : (c.expireAt now).expireAt now = c.expireAt now := by
  by_cases h : c.isOverdue now
  · have he : c.expireAt now = { c with status := .expired } := if_pos h
    rw [he]
    exact if_neg (by simp [isOverdue, isResolved])
  · have he : c.expireAt now = c := if_neg h
    rw [he, he]

end Challenge

-- ---------------------------------------------------------------------------
-- A batch of expiries
-- ---------------------------------------------------------------------------

variable {r : Registry} {ctx : Context} {call : Call} {answer : Answer} {w : World} {fault : Fault}
  {s : ExtTreeMap String Challenge × List Event} {id k : String} {ids : List String}
  {c : Challenge} {t : Transition}

theorem getElem?_expireOne : (expireOne ctx s k).1[id]? =
    if k = id then (s.1[id]?).map (·.expireAt ctx.now) else s.1[id]? := by
  unfold expireOne
  by_cases hk : k = id
  · subst hk
    cases hc : s.1[k]? with
    | none => simp [hc]
    | some c =>
      cases ho : c.isOverdue ctx.now <;> simp [hc, ho, Challenge.expireAt]
  · rw [if_neg hk]
    split
    · split
      · simp [ExtTreeMap.getElem?_insert, hk]
      · rfl
    · rfl

/-- Repeated ids in a batch change nothing. -/
theorem getElem?_expireAll : (ids.foldl (expireOne ctx) s).1[id]? =
    if id ∈ ids then (s.1[id]?).map (·.expireAt ctx.now) else s.1[id]? := by
  induction ids generalizing s with
  | nil => simp
  | cons k ids ih =>
    rw [List.foldl_cons, ih, getElem?_expireOne]
    by_cases hk : k = id
    · simp [hk, Option.map_map, Function.comp_def, Challenge.expireAt_expireAt]
    · simp [hk, Ne.symm hk]

-- ---------------------------------------------------------------------------
-- What a call does to a challenge
-- ---------------------------------------------------------------------------

namespace Transition

/-- The id under which a challenge is issued. -/
def issuedId? (t : Transition) : Option String :=
  match t.call, t.outcome.result with
  | .issueChallenge id .., .ok _ => some id
  | _, _ => none

/-- The status of the challenge with this id changes. -/
def Settles (t : Transition) (id : String) : Prop :=
  ∃ c c', t.before.challenges[id]? = some c ∧ t.after.challenges[id]? = some c' ∧
    c'.status ≠ c.status

end Transition

/-- What a call makes of the challenge with an id: it is left alone, or issued, answered or
expired. -/
inductive ChallengeStep (t : Transition) (id : String) : Option Challenge → Option Challenge → Prop
  | kept (c? : Option Challenge) (notIssued : t.issuedId? ≠ some id) : ChallengeStep t id c? c?
  | issued {node : Account} {chunk : String} {nonce : Word} {period : Period} {deadline : Instant}
      (call : t.call = .issueChallenge id node chunk nonce) (accepted : t.issuedId? = some id)
      (current : t.before.periodAt t.ctx.now = .ok period)
      (due : deadline.val = t.ctx.now.val + t.before.config.challengeTimeout.val) :
      ChallengeStep t id none (some ⟨node, chunk, nonce, period, deadline, .pending⟩)
  | answered {c : Challenge} {proof : Bytes} (call : t.call = .submitProof id proof)
      (accepted : t.outcome.result = .ok (.flag (!proof.isEmpty)))
      (pending : c.status = .pending) (challenged : t.ctx.caller = c.node)
      (inTime : t.ctx.now ≤ c.deadline) :
      ChallengeStep t id (some c) (some { c with status := ProofScheme.verdict proof })
  | expired {c : Challenge} {ids : List String} (call : t.call = .expireChallenges ids)
      (listed : id ∈ ids) (pending : c.status = .pending) (late : c.deadline < t.ctx.now) :
      ChallengeStep t id (some c) (some { c with status := .expired })

theorem Transition.issuedId?_eq_some_iff : t.issuedId? = some id ↔
    ∃ node chunk nonce answer, t.call = .issueChallenge id node chunk nonce ∧
      t.outcome.result = .ok answer := by
  unfold issuedId?
  constructor
  · intro h
    split at h
    · rename_i hc ho
      obtain rfl := Option.some.inj h
      exact ⟨_, _, _, _, hc, ho⟩
    · cases h
  · rintro ⟨node, chunk, nonce, answer, hc, ho⟩
    rw [hc, ho]

theorem Transition.issuedId?_ne_of_call
    (call : ∀ node chunk nonce, t.call ≠ .issueChallenge id node chunk nonce) :
    t.issuedId? ≠ some id := by
  intro issued
  obtain ⟨node, chunk, nonce, _, issue, -⟩ := issuedId?_eq_some_iff.1 issued
  exact call node chunk nonce issue

theorem ProofScheme.accepts_eq (scheme : ProofScheme) (proof : Bytes) :
    scheme.accepts proof = !proof.isEmpty := by
  cases scheme
  rfl

/-- A call that stores one challenge leaves all others alone. -/
theorem ChallengeStep.of_insert (after : t.after.challenges = t.before.challenges.insert k c)
    (others : k ≠ id → t.issuedId? ≠ some id)
    (stored : ChallengeStep t k t.before.challenges[k]? (some c)) :
    ChallengeStep t id t.before.challenges[id]? t.after.challenges[id]? := by
  rw [after, ExtTreeMap.getElem?_insert]
  by_cases hk : k = id
  · subst hk
    rw [if_pos Std.compare_self]
    exact stored
  · rw [if_neg (by simpa using hk)]
    exact .kept _ (others hk)

/-- An answer settles its challenge by the verdict. -/
theorem ChallengeStep.of_answer {proof : Bytes} (call : t.call = .submitProof k proof)
    (accepted : t.outcome.result = .ok (.flag (!proof.isEmpty)))
    (known : t.before.challenges[k]? = some c) (pending : c.isResolved = false)
    (challenged : c.node = t.ctx.caller) (inTime : t.ctx.now ≤ c.deadline)
    (after : t.after.challenges =
      t.before.challenges.insert k { c with status := ProofScheme.verdict proof }) :
    ChallengeStep t id t.before.challenges[id]? t.after.challenges[id]? := by
  refine .of_insert after (fun _ => Transition.issuedId?_ne_of_call (by simp [call])) ?_
  rw [known]
  exact .answered call accepted (pending_of_not_resolved pending) challenged.symm inTime

theorem ChallengeStep.of_issue {node : Account} {chunk : String} {nonce : Word} {period : Period}
    {deadline : Instant} (call : t.call = .issueChallenge k node chunk nonce)
    (accepted : t.issuedId? = some k) (fresh : t.before.challenges[k]? = none)
    (current : t.before.periodAt t.ctx.now = .ok period)
    (due : deadline.val = t.ctx.now.val + t.before.config.challengeTimeout.val)
    (after : t.after.challenges =
      t.before.challenges.insert k ⟨node, chunk, nonce, period, deadline, .pending⟩) :
    ChallengeStep t id t.before.challenges[id]? t.after.challenges[id]? := by
  refine .of_insert after (fun hk => by simpa [accepted] using hk) ?_
  rw [fresh]
  exact .issued call accepted current due

theorem ChallengeStep.of_expiry (call : t.call = .expireChallenges ids)
    (after : t.after.challenges =
      (ids.foldl (expireOne t.ctx) (t.before.challenges, [])).1) :
    ChallengeStep t id t.before.challenges[id]? t.after.challenges[id]? := by
  have notIssued : t.issuedId? ≠ some id := Transition.issuedId?_ne_of_call (by simp [call])
  rw [after, getElem?_expireAll]
  by_cases listed : id ∈ ids
  · rw [if_pos listed]
    cases t.before.challenges[id]? with
    | none => exact .kept _ notIssued
    | some c =>
      rw [Option.map_some, Challenge.expireAt]
      by_cases overdue : c.isOverdue t.ctx.now
      · rw [if_pos overdue]
        simp only [Challenge.isOverdue, Bool.and_eq_true, Bool.not_eq_true',
          decide_eq_true_eq] at overdue
        exact .expired call listed (pending_of_not_resolved overdue.1) overdue.2
      · rw [if_neg overdue]
        exact .kept _ notIssued
  · rw [if_neg listed]
    exact .kept _ notIssued

theorem Transition.challengeStep (t : Transition) (id : String) :
    ChallengeStep t id t.before.challenges[id]? t.after.challenges[id]? := by
  rcases t.cases with ⟨fault, ha, ho⟩ | ⟨answer, w, h, ha, ho⟩
  · rw [ha]
    refine .kept _ fun issued => ?_
    obtain ⟨_, _, _, _, -, hr⟩ := issuedId?_eq_some_iff.1 issued
    rw [ho] at hr
    cases hr
  have result : t.outcome.result = .ok answer := by rw [ho]
  have after : t.after.challenges = w.registry.challenges := by rw [ha]
  obtain ⟨r, ctx, call⟩ := t
  cases h with
  | issueChallenge _ _ _ _ fresh _ _ due current _ _ _ =>
    exact .of_issue rfl (issuedId?_eq_some_iff.2 ⟨_, _, _, _, rfl, result⟩)
      (ExtTreeMap.getElem?_eq_none fresh) current (Quantity.add?_eq_some_iff.1 due) after
  | @proofPassed _ proof _ _ _ _ _ known pending challenged inTime accepted =>
    rw [ProofScheme.accepts_eq, Bool.not_eq_true'] at accepted
    refine .of_answer rfl (by rw [result, accepted]; rfl) known pending challenged inTime ?_
    rw [after, ProofScheme.verdict, accepted]
    rfl
  | @proofFailed _ proof _ _ _ known pending challenged inTime refused =>
    rw [ProofScheme.accepts_eq, Bool.not_eq_false'] at refused
    refine .of_answer rfl (by rw [result, refused]; rfl) known pending challenged inTime ?_
    rw [after, ProofScheme.verdict, refused]
    rfl
  | expireChallenges _ _ => exact .of_expiry rfl after
  | _ =>
    rw [after]
    exact .kept _ (by simp [Transition.issuedId?])

theorem Transition.becomes (t : Transition) (h : t.before.challenges[id]? = some c) :
    ∃ c', t.after.challenges[id]? = some c' ∧ c.Becomes c' := by
  have step := t.challengeStep id
  rw [h] at step
  generalize t.after.challenges[id]? = after at step
  cases step with
  | kept _ _ => exact ⟨c, rfl, .refl c⟩
  | answered _ _ pending _ _ => exact ⟨_, rfl, .of_pending pending _⟩
  | expired _ _ pending _ => exact ⟨_, rfl, .of_pending pending _⟩

/-- Nothing is stored yet under the id of a new challenge. -/
theorem Transition.fresh_of_issued (h : t.issuedId? = some id) :
    t.before.challenges[id]? = none := by
  have step := t.challengeStep id
  obtain ⟨_, _, _, _, issue, -⟩ := issuedId?_eq_some_iff.1 h
  generalize t.before.challenges[id]? = before at step ⊢
  generalize t.after.challenges[id]? = after at step
  cases step with
  | kept _ notIssued => exact absurd h notIssued
  | issued _ _ _ _ => rfl
  | answered call _ _ _ _ => cases issue.symm.trans call
  | expired call _ _ _ => cases issue.symm.trans call

-- ---------------------------------------------------------------------------
-- The two ways out
-- ---------------------------------------------------------------------------

/-- Up to the deadline of a pending challenge a proof from its node settles it and an expiry leaves
it alone; after the deadline it is the other way round. -/
structure Registry.WaysOut (r : Registry) (id : String) (c : Challenge) : Prop where
  inTime : ∀ (ctx : Context) (proof : Bytes), ctx.caller = c.node → proof.length ≤ maxProofBytes →
    ctx.now ≤ c.deadline →
    (r.perform ctx (.submitProof id proof)).2.result = .ok (.flag (!proof.isEmpty)) ∧
      (r.perform ctx (.submitProof id proof)).1.challenges[id]? =
        some { c with status := ProofScheme.verdict proof }
  late : ∀ (ctx : Context) (proof : Bytes), ctx.caller = c.node → proof.length ≤ maxProofBytes →
    c.deadline < ctx.now →
    r.perform ctx (.submitProof id proof) =
      (r, .silent (.error (.rejected (.deadlinePassed id))))
  expiry : ∀ (ctx : Context) (ids : List String), id ∈ ids → ids.length ≤ maxExpiryBatch →
    (∃ n, (r.perform ctx (.expireChallenges ids)).2.result = .ok (.count n)) ∧
      (r.perform ctx (.expireChallenges ids)).1.challenges[id]? =
        some (if c.deadline < ctx.now then { c with status := .expired } else c)

namespace Registry

/-- Nothing stands in the way of an accepted proof: its pass can be counted. -/
theorem CountersAgree.accepts_submitProof (hr : r.CountersAgree) (hs : r.ScopedWithinLife)
    (running : r.paused = false) (known : r.challenges[id]? = some c)
    (pending : c.isResolved = false) {proof : Bytes} (challenged : ctx.caller = c.node)
    (short : proof.length ≤ maxProofBytes) (inTime : ctx.now ≤ c.deadline) :
    ∃ w, Accepts r ctx (.submitProof id proof) (.flag (!proof.isEmpty)) w ∧
      w.registry.challenges =
        r.challenges.insert id { c with status := ProofScheme.verdict proof } := by
  have accepts := r.config.proofScheme.accepts_eq proof
  cases empty : proof.isEmpty with
  | true =>
    rw [empty] at accepts
    exact ⟨_, .proofFailed running short known pending challenged.symm inTime accepts,
      by rw [ProofScheme.verdict, empty]; rfl⟩
  | false =>
    rw [empty] at accepts
    obtain ⟨⟨passed, counted⟩, nodes, recorded⟩ := hr.exists_countsPass hs known pending c.issued
    exact ⟨_, .proofPassed running short known pending challenged.symm inTime accepts counted
      (challenged ▸ recorded), by rw [ProofScheme.verdict, empty]; rfl⟩

theorem perform_submitProof_late (running : r.paused = false)
    (known : r.challenges[id]? = some c) (pending : c.isResolved = false) {proof : Bytes}
    (challenged : ctx.caller = c.node) (short : proof.length ≤ maxProofBytes)
    (late : c.deadline < ctx.now) :
    r.perform ctx (.submitProof id proof) =
      (r, .silent (.error (.rejected (.deadlinePassed id)))) := by
  refine perform_of_fails ?_
  simp [Call.procedure, Operation.submitProof, and_assoc, running, short, known, pending,
    challenged, late]

theorem CountersAgree.waysOut (hr : r.CountersAgree) (hs : r.ScopedWithinLife)
    (running : r.paused = false) (known : r.challenges[id]? = some c)
    (pending : c.isResolved = false) : r.WaysOut id c where
  inTime ctx proof challenged short inTime := by
    obtain ⟨w, accepts, after⟩ :=
      hr.accepts_submitProof hs running known pending challenged short inTime
    rw [perform_of_accepts accepts]
    exact ⟨rfl, by rw [after, ExtTreeMap.getElem?_insert_self]⟩
  late ctx proof challenged short late :=
    perform_submitProof_late running known pending challenged short late
  expiry ctx ids listed short := by
    rw [perform_of_accepts (.expireChallenges running short)]
    refine ⟨⟨_, rfl⟩, ?_⟩
    rw [getElem?_expireAll, if_pos listed, known, Option.map_some,
      Challenge.expireAt_of_pending (pending_of_not_resolved pending)]

end Registry

-- ---------------------------------------------------------------------------
-- Along a run
-- ---------------------------------------------------------------------------

namespace Run

/-- The ids of the challenges issued, in the order of time. -/
def issuedIds (run : Run) : List String := run.transitions.filterMap Transition.issuedId?

theorem issuedIds_call (run : Run) (ctx : Context) (c : Call) :
    (run.call ctx c).issuedIds =
      run.issuedIds ++ (Transition.issuedId? ⟨run.registry, ctx, c⟩).toList :=
  filterMap_transitions_call ..

/-- What is stored is what was issued. -/
theorem mem_issuedIds (run : Run) (id : String) :
    id ∈ run.issuedIds ↔ id ∈ run.registry.challenges := by
  rw [← ExtTreeMap.isSome_getElem?_iff_mem]
  induction run with
  | create admin config genesis r created =>
    obtain ⟨-, rfl⟩ := Registry.create_eq_ok_iff.1 created
    simp [registry, Registry.fresh, issuedIds, transitions]
  | call run ctx c ih =>
    rw [issuedIds_call, List.mem_append, Option.mem_toList, ih]
    have step := Transition.challengeStep ⟨run.registry, ctx, c⟩ id
    change _ ↔ ((Transition.after ⟨run.registry, ctx, c⟩).challenges[id]?).isSome
    generalize (Transition.after ⟨run.registry, ctx, c⟩).challenges[id]? = after at step ⊢
    change ChallengeStep _ id run.registry.challenges[id]? after at step
    generalize run.registry.challenges[id]? = before at step ⊢
    cases step with
    | kept _ notIssued => simp [notIssued]
    | issued _ accepted _ _ => simp [accepted]
    | answered _ _ _ _ _ => simp
    | expired _ _ _ _ => simp

theorem nodup_issuedIds (run : Run) : run.issuedIds.Nodup := by
  induction run with
  | create => exact List.nodup_nil
  | call run ctx c ih =>
    rw [issuedIds_call]
    cases h : Transition.issuedId? ⟨run.registry, ctx, c⟩ with
    | none => simpa using ih
    | some id =>
      refine List.nodup_append.2 ⟨ih, by simp, ?_⟩
      rintro k hk _ hi rfl
      obtain rfl : k = id := by simpa using hi
      have fresh := Transition.fresh_of_issued h
      have stored := ExtTreeMap.isSome_getElem?_iff_mem.2 ((run.mem_issuedIds k).1 hk)
      rw [show run.registry.challenges[k]? = none from fresh] at stored
      cases stored

/-- A challenge stays, with the terms it was issued on, and is final once it is resolved. -/
theorem challenge_lasts (run : Run) {t : Transition} (ht : t ∈ run.transitions) {id : String}
    {c : Challenge} (hc : t.after.challenges[id]? = some c) :
    ∃ c', run.registry.challenges[id]? = some c' ∧ c.Becomes c' := by
  induction run with
  | create => cases ht
  | call run ctx call ih =>
    rcases List.mem_append.1 ht with ht | ht
    · obtain ⟨c', hc', h⟩ := ih ht
      obtain ⟨c'', hc'', h'⟩ := Transition.becomes (t := ⟨run.registry, ctx, call⟩) hc'
      exact ⟨c'', hc'', h.trans h'⟩
    · obtain rfl := List.mem_singleton.1 ht
      exact ⟨c, hc, .refl c⟩

theorem settles_once (run : Run) (id : String) :
    run.transitions.Pairwise fun t t' => ¬ (t.Settles id ∧ t'.Settles id) := by
  induction run with
  | create => exact List.Pairwise.nil
  | call run ctx call ih =>
    refine List.pairwise_append.2 ⟨ih, List.pairwise_singleton .., ?_⟩
    rintro t ht t' ht' ⟨⟨c, c', before, after, changed⟩, k, k', before', after', changed'⟩
    obtain rfl := List.mem_singleton.1 ht'
    -- The first change resolves the challenge, and the second one would start from there.
    obtain ⟨_, hc', becomes⟩ := t.becomes before
    obtain rfl := Option.some.inj (hc'.symm.trans after)
    have resolved := (becomes.of_status_ne changed).2
    obtain ⟨_, hk, lasts⟩ := run.challenge_lasts ht after
    obtain rfl := Option.some.inj (hk.symm.trans before')
    obtain ⟨_, hk', becomes'⟩ := Transition.becomes (t := ⟨run.registry, ctx, call⟩) before'
    obtain rfl := Option.some.inj (hk'.symm.trans after')
    have pending := (becomes'.of_status_ne changed').1
    rw [lasts.eq_of_resolved resolved, resolved] at pending
    cases pending

/-- The life of the challenge with an id along a run. -/
structure ChallengeLife (run : Run) (id : String) : Prop where
  issuedOnce : run.issuedIds.count id ≤ 1
  stored : id ∈ run.registry.challenges ↔ id ∈ run.issuedIds
  step : ∀ t ∈ run.transitions,
    ChallengeStep t id t.before.challenges[id]? t.after.challenges[id]?
  lasts : ∀ t ∈ run.transitions, ∀ c, t.after.challenges[id]? = some c →
    ∃ c', run.registry.challenges[id]? = some c' ∧ c.Becomes c'
  settledOnce : run.transitions.Pairwise fun t t' => ¬ (t.Settles id ∧ t'.Settles id)
  waysOut : run.registry.paused = false → ∀ c, run.registry.challenges[id]? = some c →
    c.status = .pending → run.registry.WaysOut id c

/-- Every challenge of every run is issued once, keeps its terms, is settled once by the rules, and
has one way out for as long as it is pending. -/
theorem challenges_live_once (run : Run) (id : String) : run.ChallengeLife id where
  issuedOnce := List.nodup_iff_count.1 run.nodup_issuedIds id
  stored := (run.mem_issuedIds id).symm
  step t _ := t.challengeStep id
  lasts _ ht _ hc := run.challenge_lasts ht hc
  settledOnce := run.settles_once id
  waysOut running c known pending := run.countersAgree.waysOut run.scopedWithinLife running known
    (by simp [Challenge.isResolved, pending])

end Run

end StorageIncentives
