import Mathlib.Data.List.Basic
import Mathlib.Data.List.Induction
import Mathlib.Data.List.Perm.Subperm
import StorageIncentives.Proofs.ChallengeLife

/-!
# A batch of expiries as a set

A batch goes through its ids one by one and reads the challenges that it has already changed. What
it does can be told from the challenges that it met: the listed ones that are pending past their
deadline expire, each once and in the order of their first mention, and nothing else happens. So
repeating ids, their order and the division into batches make no difference.
-/

namespace StorageIncentives

open Std (ExtTreeMap)

/-- The challenge with this id, if it is pending past its deadline. -/
def overdue? (m : ExtTreeMap String Challenge) (now : Instant) (id : String) :
    Option (String × Challenge) :=
  ((m[id]?).filter fun c => c.status = .pending ∧ c.deadline < now).map (id, ·)

/-- The listed challenges that are pending past their deadline, each once, in the order of their
first mention. -/
def overdueOf (m : ExtTreeMap String Challenge) (now : Instant) (ids : List String) :
    List (String × Challenge) :=
  ids.eraseDups.filterMap (overdue? m now)

/-- The event that tells of an expiry at the request of `caller`. -/
def Event.ofExpiry (caller : Account) (e : String × Challenge) : Event :=
  .challengeExpired caller e.1 e.2.node

/-- What a batch of expiries does. -/
structure Transition.Expires (t : Transition) (overdue : List (String × Challenge)) : Prop where
  outcome : t.outcome =
    ⟨.ok (.count overdue.length), overdue.map (.ofExpiry t.ctx.caller), []⟩
  expired : ∀ e ∈ overdue, t.before.challenges[e.1]? = some e.2 ∧
    t.after.challenges[e.1]? = some { e.2 with status := .expired }
  others : ∀ id, id ∉ overdue.map (·.1) → t.after.challenges[id]? = t.before.challenges[id]?
  rest : t.after = { t.before with challenges := t.after.challenges }

/-- One call leaves and tells what two calls do, one after the other. -/
structure Transition.Joins (t first second : Transition) : Prop where
  registry : t.after = second.after
  counts : ∃ m n, first.outcome.result = .ok (.count m) ∧ second.outcome.result = .ok (.count n) ∧
    t.outcome.result = .ok (.count (m + n))
  events : t.outcome.events = first.outcome.events ++ second.outcome.events

/-- A batch does what any other one with the same ids does, and what two do that it is made of. -/
structure Transition.ActsOnSet (t : Transition) (ids : List String) : Prop where
  again : ∀ ctx : Context, ctx.now = t.ctx.now →
    t.after.perform ctx (.expireChallenges ids) = (t.after, ⟨.ok (.count 0), [], []⟩)
  reordered : ∀ (ctx : Context) (ids' : List String), ctx.now = t.ctx.now →
    ids'.length ≤ maxExpiryBatch → (∀ id, id ∈ ids' ↔ id ∈ ids) →
    (t.before.perform ctx (.expireChallenges ids')).1 = t.after ∧
      (t.before.perform ctx (.expireChallenges ids')).2.result = t.outcome.result
  divided : ∀ (xs ys : List String) (ctx : Context), ids = xs ++ ys → ctx.now = t.ctx.now →
    ctx.caller = t.ctx.caller →
    t.Joins ⟨t.before, t.ctx, .expireChallenges xs⟩
      ⟨(t.before.perform t.ctx (.expireChallenges xs)).1, ctx, .expireChallenges ys⟩

variable {r : Registry} {ctx ctx' : Context} {m : ExtTreeMap String Challenge}
  {s s' : ExtTreeMap String Challenge × List Event} {id k : String} {ids ids' xs ys : List String}
  {c : Challenge} {now : Instant} {events : List Event}

-- ---------------------------------------------------------------------------
-- What is overdue
-- ---------------------------------------------------------------------------

namespace Challenge

theorem isOverdue_iff : c.isOverdue now = true ↔ c.status = .pending ∧ c.deadline < now := by
  simp [isOverdue, isResolved]

theorem not_isOverdue_expireAt : (c.expireAt now).isOverdue now = false := by
  by_cases h : c.isOverdue now = true
  · rw [expireAt, if_pos h]
    rfl
  · rw [expireAt, if_neg h]
    exact Bool.eq_false_iff.2 h

end Challenge

theorem overdue?_eq : overdue? m now id = ((m[id]?).filter (·.isOverdue now)).map (id, ·) := by
  simp only [overdue?, ← Challenge.isOverdue_iff, Bool.decide_eq_true]

theorem mem_overdueOf {e : String × Challenge} : e ∈ overdueOf m now ids ↔
    e.1 ∈ ids ∧ m[e.1]? = some e.2 ∧ e.2.isOverdue now = true := by
  obtain ⟨id, c⟩ := e
  simp only [overdueOf, List.mem_filterMap, List.mem_eraseDups, overdue?_eq,
    Option.map_eq_some_iff, Option.filter_eq_some_iff, Prod.mk.injEq]
  constructor
  · rintro ⟨k, listed, c', ⟨found, overdue⟩, rfl, rfl⟩
    exact ⟨listed, found, overdue⟩
  · rintro ⟨listed, found, overdue⟩
    exact ⟨id, listed, c, ⟨found, overdue⟩, rfl, rfl⟩

theorem overdueOf_concat : overdueOf m now (ids ++ [k]) =
    overdueOf m now ids ++ if k ∈ ids then [] else (overdue? m now k).toList := by
  by_cases listed : k ∈ ids
  · simp [overdueOf, List.eraseDups_append, List.removeAll, listed]
  · cases h : overdue? m now k <;>
      simp [overdueOf, List.eraseDups_append, List.eraseDups_cons, List.removeAll, listed, h]

-- ---------------------------------------------------------------------------
-- What a batch leaves and tells
-- ---------------------------------------------------------------------------

theorem events_expireOne : (expireOne ctx s k).2 =
    s.2 ++ (overdue? s.1 ctx.now k).toList.map (.ofExpiry ctx.caller) := by
  rw [overdue?_eq, expireOne]
  cases found : s.1[k]? with
  | none => simp
  | some c => by_cases h : c.isOverdue ctx.now <;> simp [h, Option.filter_some, Event.ofExpiry]

theorem overdue?_expireAll (together : ctx.now = now) :
    overdue? (ids.foldl (expireOne ctx) s).1 now k =
      if k ∈ ids then none else overdue? s.1 now k := by
  rw [overdue?_eq, overdue?_eq, getElem?_expireAll, together]
  by_cases listed : k ∈ ids
  · simp [listed, Option.filter_map, Function.comp_def, Challenge.not_isOverdue_expireAt]
  · simp [listed]

/-- The events of a batch are told by the challenges that it met, not by those on its way. -/
theorem events_expireAll : (ids.foldl (expireOne ctx) (m, events)).2 =
    events ++ (overdueOf m ctx.now ids).map (.ofExpiry ctx.caller) := by
  induction ids using List.reverseRecOn with
  | nil => simp [overdueOf]
  | append_singleton ids k ih =>
    rw [List.foldl_append, List.foldl_cons, List.foldl_nil, events_expireOne, ih, overdueOf_concat,
      overdue?_expireAll rfl]
    by_cases listed : k ∈ ids <;> simp [listed]

/-- What the second part of a batch meets is what the first part left. -/
theorem overdueOf_append (together : ctx.now = now) : overdueOf s.1 now (xs ++ ys) =
    overdueOf s.1 now xs ++ overdueOf (xs.foldl (expireOne ctx) s).1 now ys := by
  induction ys using List.reverseRecOn with
  | nil => simp [overdueOf]
  | append_singleton ys k ih =>
    rw [← List.append_assoc, overdueOf_concat, overdueOf_concat, ih, overdue?_expireAll together]
    by_cases inXs : k ∈ xs <;> by_cases inYs : k ∈ ys <;> simp [inXs, inYs]

theorem overdueOf_expireAll (together : ctx.now = now) :
    overdueOf (ids.foldl (expireOne ctx) s).1 now ids = [] := by
  apply List.filterMap_eq_nil_iff.2
  intro k listed
  rw [overdue?_expireAll together, if_pos (List.mem_eraseDups.1 listed)]

theorem overdueOf_congr {m' : ExtTreeMap String Challenge} (same : ∀ id ∈ ids, m'[id]? = m[id]?) :
    overdueOf m' now ids = overdueOf m now ids := by
  apply List.filterMap_congr
  intro id listed
  rw [overdue?, overdue?, same id (List.mem_eraseDups.1 listed)]

theorem length_overdueOf_le : (overdueOf m now ids).length ≤ ids.length := by
  have once : ids.eraseDups.Subperm ids :=
    (nodup_eraseDups ids).subperm fun _ => List.mem_eraseDups.1
  exact Nat.le_trans (List.length_filterMap_le ..) once.length_le

theorem length_overdueOf_congr (same : ∀ id, id ∈ ids' ↔ id ∈ ids) :
    (overdueOf m now ids').length = (overdueOf m now ids).length := by
  have once : ids'.eraseDups.Perm ids.eraseDups := by
    apply (List.perm_ext_iff_of_nodup (nodup_eraseDups _) (nodup_eraseDups _)).2
    simp [same]
  exact (once.filterMap _).length_eq

-- ---------------------------------------------------------------------------
-- The call
-- ---------------------------------------------------------------------------

namespace Registry

/-- The registry that a batch leaves. -/
def expire (r : Registry) (ctx : Context) (ids : List String) : Registry :=
  { r with challenges := (ids.foldl (expireOne ctx) (r.challenges, [])).1 }

theorem getElem?_expire : (r.expire ctx ids).challenges[id]? =
    if id ∈ ids then (r.challenges[id]?).map (·.expireAt ctx.now) else r.challenges[id]? :=
  getElem?_expireAll

theorem expire_eq (same : ∀ id : String, (r.expire ctx ids).challenges[id]? = m[id]?) :
    r.expire ctx ids = { r with challenges := m } :=
  congrArg (fun challenges => { r with challenges }) (ExtTreeMap.ext_getElem? same)

theorem expire_congr (together : ctx'.now = ctx.now) (same : ∀ id, id ∈ ids' ↔ id ∈ ids) :
    r.expire ctx' ids' = r.expire ctx ids := by
  apply expire_eq
  intro id
  rw [getElem?_expire, getElem?_expireAll, together]
  simp only [same]

theorem expire_append (together : ctx'.now = ctx.now) :
    r.expire ctx (xs ++ ys) = (r.expire ctx xs).expire ctx' ys := by
  apply expire_eq
  intro id
  rw [getElem?_expire, getElem?_expireAll, getElem?_expire, together]
  by_cases inXs : id ∈ xs <;> by_cases inYs : id ∈ ys <;>
    simp [inXs, inYs, Function.comp_def, Challenge.expireAt_expireAt]

theorem expire_again (together : ctx'.now = ctx.now) :
    (r.expire ctx ids).expire ctx' ids = r.expire ctx ids := by
  rw [← expire_append together]
  exact expire_congr rfl (by simp)

theorem perform_expireChallenges (ctx : Context) (running : r.paused = false)
    (short : ids.length ≤ maxExpiryBatch) :
    r.perform ctx (.expireChallenges ids) = (r.expire ctx ids,
      ⟨.ok (.count (overdueOf r.challenges ctx.now ids).length),
        (overdueOf r.challenges ctx.now ids).map (.ofExpiry ctx.caller), []⟩) := by
  rw [perform_of_accepts (.expireChallenges running short), events_expireAll]
  simp [expire]

end Registry

namespace Transition

theorem expires (running : r.paused = false) (short : ids.length ≤ maxExpiryBatch) :
    Expires ⟨r, ctx, .expireChallenges ids⟩ (overdueOf r.challenges ctx.now ids) := by
  have performed := Registry.perform_expireChallenges ctx running short
  have left : (Transition.mk r ctx (.expireChallenges ids)).after = r.expire ctx ids :=
    congrArg Prod.fst performed
  refine ⟨congrArg Prod.snd performed, fun e he => ?_, fun id other => ?_, ?_⟩
  · obtain ⟨listed, found, overdue⟩ := mem_overdueOf.1 he
    rw [left, Registry.getElem?_expire, if_pos listed, found, Option.map_some, Challenge.expireAt,
      if_pos overdue]
    exact ⟨rfl, rfl⟩
  · rw [left, Registry.getElem?_expire]
    by_cases listed : id ∈ ids
    · rw [if_pos listed]
      cases found : r.challenges[id]? with
      | none => rfl
      | some c =>
        have early : ¬ c.isOverdue ctx.now = true := fun overdue =>
          other (List.mem_map.2 ⟨(id, c), mem_overdueOf.2 ⟨listed, found, overdue⟩, rfl⟩)
        rw [Option.map_some, Challenge.expireAt, if_neg early]
    · rw [if_neg listed]
  · rw [left]
    rfl

/-- The challenges that the second call meets are those that the first one left. -/
theorem joins (running : r.paused = false) (short : (xs ++ ys).length ≤ maxExpiryBatch)
    (together : ctx'.now = ctx.now) (caller : ctx'.caller = ctx.caller) :
    Joins ⟨r, ctx, .expireChallenges (xs ++ ys)⟩ ⟨r, ctx, .expireChallenges xs⟩
      ⟨r.expire ctx xs, ctx', .expireChallenges ys⟩ := by
  have both := Registry.perform_expireChallenges ctx running short
  rw [List.length_append] at short
  have first := Registry.perform_expireChallenges ctx running (Nat.le_of_add_right_le short)
  have second := Registry.perform_expireChallenges (r := r.expire ctx xs) ctx' running
    (Nat.le_of_add_left_le short)
  have met : overdueOf r.challenges ctx.now (xs ++ ys) = overdueOf r.challenges ctx.now xs ++
      overdueOf (r.expire ctx xs).challenges ctx'.now ys := by
    rw [together]
    exact overdueOf_append (s := (r.challenges, [])) rfl
  refine ⟨?_, ⟨_, _, congrArg (·.2.result) first, congrArg (·.2.result) second, ?_⟩, ?_⟩
  · rw [after, after, both, second, Registry.expire_append together]
  · rw [outcome, both, met, List.length_append]
  · rw [outcome, outcome, outcome, both, first, second, met, List.map_append, caller]

theorem actsOnSet (running : r.paused = false) (short : ids.length ≤ maxExpiryBatch) :
    ActsOnSet ⟨r, ctx, .expireChallenges ids⟩ ids := by
  have performed := Registry.perform_expireChallenges ctx running short
  have left : (Transition.mk r ctx (.expireChallenges ids)).after = r.expire ctx ids :=
    congrArg Prod.fst performed
  refine ⟨fun ctx' together => ?_, fun ctx' ids' together short' same => ?_,
    fun xs ys ctx' parts together caller => ?_⟩
  · have again := Registry.perform_expireChallenges (r := r.expire ctx ids) ctx' running short
    have met : overdueOf (r.expire ctx ids).challenges ctx'.now ids = [] :=
      overdueOf_expireAll together.symm
    rw [left, again, met, Registry.expire_again together]
    rfl
  · rw [left, Registry.perform_expireChallenges ctx' running short',
      Registry.expire_congr together same]
    refine ⟨rfl, ?_⟩
    rw [outcome, performed, together, length_overdueOf_congr same]
  · subst parts
    have shortXs : xs.length ≤ maxExpiryBatch :=
      Nat.le_of_add_right_le (List.length_append ▸ short)
    have first := Registry.perform_expireChallenges ctx running shortXs
    rw [first]
    exact joins running short together caller

end Transition

namespace Registry

/-- A batch of expiries is told by the set of its ids and the order of their first mention. -/
theorem expiry_acts_on_set (r : Registry) (ctx : Context) (ids : List String)
    (running : r.paused = false) (short : ids.length ≤ maxExpiryBatch) :
    Transition.Expires ⟨r, ctx, .expireChallenges ids⟩ (overdueOf r.challenges ctx.now ids) ∧
      Transition.ActsOnSet ⟨r, ctx, .expireChallenges ids⟩ ids :=
  ⟨Transition.expires running short, Transition.actsOnSet running short⟩

end Registry

namespace Run

/-- Bob has answered one of two challenges, and the other one is past its deadline an hour later. -/
def answeredOnce : Run :=
  let started := Run.create alice .default 0 (.fresh alice .default 0) create_default
  let registered := started.call (.plain bob 5) (.registerNode 10)
  let challenged := registered.call (.plain alice 6) (.issueChallenge "first" bob "chunk" 0)
  let again := challenged.call (.plain alice 6) (.issueChallenge "second" bob "chunk" 1)
  again.call (.plain bob 7) (.submitProof "second" [1])

theorem expiry_acts_on_set_answeredOnce :
    let r := answeredOnce.registry
    let ctx : Context := .plain bob nanosPerHour
    let ids := ["first", "unknown", "first", "second"]
    r.paused = false ∧ ids.length ≤ maxExpiryBatch ∧
      (r.perform ctx (.expireChallenges ids)).2 =
        ⟨.ok (.count 1), [.challengeExpired bob "first" bob], []⟩ ∧
      (r.perform ctx (.expireChallenges ["second", "first", "unknown"])).1 =
        (r.perform ctx (.expireChallenges ids)).1 := by
  intro r ctx ids
  have running : r.paused = false := by decide +kernel
  have short : ids.length ≤ maxExpiryBatch := by decide
  obtain ⟨expires, set⟩ := Registry.expiry_acts_on_set r ctx ids running short
  have met : overdueOf r.challenges ctx.now ids =
      [("first", ⟨bob, "chunk", 0, 0, 600_000_000_006, .pending⟩)] := by decide +kernel
  rw [met] at expires
  have same : ∀ id, id ∈ ["second", "first", "unknown"] ↔ id ∈ ids := by simp [ids]; tauto
  exact ⟨running, short, expires.outcome, (set.reordered ctx _ rfl (by decide) same).1⟩

end Run

end StorageIncentives
