import StorageIncentives.Proofs.Counting
import StorageIncentives.Proofs.Expiry
import StorageIncentives.Proofs.PeriodTotals

/-!
# Independent challenge calls

An issue, a proof or an expiry reads and writes the challenges that it names and counts at most one
of them; the rest of the registry it only reads, and what it reads there no such call writes. So two
of these calls about different challenges can be made in either order, with the same answers and the
same registry at the end, also for one node and on either side of the end of a period.
-/

namespace StorageIncentives

open Std (ExtTreeMap)

/-- The challenges that a call names, if it issues, answers or expires challenges. -/
def Call.challengeIds? : Call → Option (List String)
  | .issueChallenge id .. => some [id]
  | .submitProof id _ => some [id]
  | .expireChallenges ids => some ids
  | _ => none

namespace Registry

def book (r : Registry) : Book := ⟨r.nodes, r.history, r.challengesIssued⟩

/-- The registry with other challenges and other counters of them. -/
def withBook (r : Registry) (challenges : ExtTreeMap String Challenge) (b : Book) : Registry :=
  { r with challenges, nodes := b.nodes, history := b.history, challengesIssued := b.total }

end Registry

/-- What is counted is a challenge of the running period, or a pass for one of the named
challenges. -/
def Counting.Grounded (r : Registry) (now : Instant) (ids : List String) : Counting → Prop
  | .issue _ p => r.periodAt now = .ok p
  | .pass a p => ∃ id ∈ ids, ∃ c, r.challenges[id]? = some c ∧ c.node = a ∧ c.issued = p

/-- An accepted call that names `ids`: what it counts, and that nothing but its own challenges
decides about the rest. -/
structure Localized (r : Registry) (ctx : Context) (call : Call) (answer : Answer) (w : World)
    (ids : List String) (x : Option Counting) : Prop where
  world : w = ⟨r.withBook w.registry.challenges w.registry.book, w.events, []⟩
  counted : r.book.After x w.registry.book
  grounded : ∀ k ∈ x, k.Grounded r ctx.now ids
  others : ∀ id ∉ ids, w.registry.challenges[id]? = r.challenges[id]?
  elsewhere : ∀ (m : ExtTreeMap String Challenge) (b b' : Book),
    (∀ id ∈ ids, m[id]? = r.challenges[id]?) → b.After x b' →
      ∃ m', Accepts (r.withBook m b) ctx call answer ⟨r.withBook m' b', w.events, []⟩ ∧
        (∀ id ∈ ids, m'[id]? = w.registry.challenges[id]?) ∧ ∀ id ∉ ids, m'[id]? = m[id]?

variable {r : Registry} {ctx ctx' : Context} {call : Call} {answer : Answer} {w : World}
  {m m' : ExtTreeMap String Challenge} {id : String} {ids : List String} {c : Challenge}
  {a : Account} {p : Period} {b b' : Book}

-- ---------------------------------------------------------------------------
-- One call
-- ---------------------------------------------------------------------------

namespace Counting

theorem enters_issue_iff : (issue a p).Enters b b' ↔ ∃ (n n' : Node) (issued total : Word),
    b.nodes[a]? = some n ∧ n.active = true ∧ n.recordChallenge p = .ok n' ∧
      (b.history.statsAt p).issued.succOrTrap = .ok issued ∧ b.total.succOrTrap = .ok total ∧
      b' = ⟨b.nodes.insert a n', b.history.put p { b.history.statsAt p with issued }, total⟩ := by
  constructor
  · obtain ⟨nodes, history, total⟩ := b'
    rintro ⟨@⟨n, n', found, active, counted⟩, @⟨s, amended⟩, total⟩
    obtain ⟨issued, recorded, rfl⟩ := onStats_ok.1 amended
    exact ⟨n, n', issued, _, found, active, counted, recorded, total, rfl⟩
  · rintro ⟨n, n', issued, total, found, active, counted, recorded, all, rfl⟩
    exact ⟨.intro found active counted, .intro (onStats_ok.2 ⟨issued, recorded, rfl⟩), all⟩

theorem enters_pass_iff : (pass a p).Enters b b' ↔ ∃ (n n' : Node) (passed : Word),
    b.nodes[a]? = some n ∧ n.recordPass p = .ok n' ∧
      (b.history.statsAt p).passed.succOrTrap = .ok passed ∧
      b' = ⟨b.nodes.insert a n', b.history.put p { b.history.statsAt p with passed }, b.total⟩ := by
  constructor
  · obtain ⟨nodes, history, total⟩ := b'
    rintro ⟨@⟨n, n', found, -, counted⟩, @⟨s, amended⟩, total⟩
    obtain ⟨passed, recorded, rfl⟩ := onStats_ok.1 amended
    obtain rfl := Except.ok.inj total
    exact ⟨n, n', passed, found, counted, recorded, rfl⟩
  · rintro ⟨n, n', passed, found, counted, recorded, rfl⟩
    exact ⟨.intro found rfl counted, .intro (onStats_ok.2 ⟨passed, recorded, rfl⟩), rfl⟩

end Counting

theorem insert_named : (∀ k ∈ [id], (m'.insert id c)[k]? = (m.insert id c)[k]?) ∧
    ∀ k ∉ [id], (m'.insert id c)[k]? = m'[k]? := by
  refine ⟨fun k named => ?_, fun k other => getElem?_insert_of_ne (mt List.mem_singleton.2 other)⟩
  obtain rfl := List.mem_singleton.1 named
  rw [ExtTreeMap.getElem?_insert_self, ExtTreeMap.getElem?_insert_self]

theorem expireAll_named (same : ∀ id ∈ ids, m'[id]? = m[id]?) :
    (∀ id ∈ ids, (ids.foldl (expireOne ctx) (m', [])).1[id]? =
      (ids.foldl (expireOne ctx) (m, [])).1[id]?) ∧
    ∀ id ∉ ids, (ids.foldl (expireOne ctx) (m', [])).1[id]? = m'[id]? := by
  refine ⟨fun id named => ?_, fun id other => ?_⟩
  · rw [getElem?_expireAll, getElem?_expireAll, if_pos named, if_pos named, same id named]
  · rw [getElem?_expireAll, if_neg other]

theorem Accepts.localized (h : Accepts r ctx call answer w) (hr : r.CountersAgree)
    (own : call.challengeIds? = some ids) : ∃ x, Localized r ctx call answer w ids x := by
  cases h with
  | @issueChallenge id chunk nodeId nonce _ _ _ _ deadline period running challenger idLength
      chunkLength fresh known active due current issued recorded total =>
    obtain rfl := Option.some.inj own
    refine ⟨some (.issue nodeId period), rfl, ?_, ?_, (insert_named (m := r.challenges)).2, ?_⟩
    · exact Counting.enters_issue_iff.2
        ⟨_, _, _, _, known, active, recorded, issued, total, rfl⟩
    · rintro k ⟨⟩
      exact current
    · intro m b b' same counted
      obtain ⟨_, _, _, _, known, active, recorded, issued, total, rfl⟩ :=
        Counting.enters_issue_iff.1 counted
      have fresh : id ∉ m := (getElem?_eq_none_iff ..).1
        ((same id List.mem_cons_self).trans (ExtTreeMap.getElem?_eq_none fresh))
      exact ⟨m.insert id ⟨nodeId, chunk, nonce, period, deadline, .pending⟩,
        .issueChallenge running challenger idLength chunkLength fresh known active due current
          issued recorded total, insert_named⟩
  | @proofPassed id proof c _ _ running short known pending challenged inTime accepted counted
      recorded =>
    obtain rfl := Option.some.inj own
    obtain @⟨n, n', found, passed⟩ | ⟨missing⟩ := recorded
    · refine ⟨some (.pass ctx.caller c.issued), rfl, ?_, ?_, (insert_named (m := r.challenges)).2,
        ?_⟩
      · exact Counting.enters_pass_iff.2 ⟨n, n', _, found, passed, counted, rfl⟩
      · rintro k ⟨⟩
        exact ⟨id, List.mem_cons_self, c, known, challenged, rfl⟩
      · intro m b b' same after
        obtain ⟨_, _, _, found, passed, counted, rfl⟩ := Counting.enters_pass_iff.1 after
        exact ⟨m.insert id { c with status := .passed },
          .proofPassed running short ((same id List.mem_cons_self).trans known) pending challenged
            inTime accepted counted (.known found passed), insert_named⟩
    · exact absurd (challenged ▸ hr.known id c known) ((getElem?_eq_none_iff ..).1 missing)
  | @proofFailed id proof c running short known pending challenged inTime refused =>
    obtain rfl := Option.some.inj own
    refine ⟨none, rfl, rfl, nofun, (insert_named (m := r.challenges)).2, ?_⟩
    rintro m b _ same rfl
    exact ⟨m.insert id { c with status := .failed },
      .proofFailed running short ((same id List.mem_cons_self).trans known) pending challenged
        inTime refused, insert_named⟩
  | @expireChallenges ids running short =>
    obtain rfl := Option.some.inj own
    refine ⟨none, rfl, rfl, nofun, (expireAll_named fun _ _ => rfl).2, ?_⟩
    rintro m b _ same rfl
    have events : (ids.foldl (expireOne ctx) (m, [])).2 =
        (ids.foldl (expireOne ctx) (r.challenges, [])).2 := by
      rw [events_expireAll, events_expireAll, overdueOf_congr same]
    refine ⟨(ids.foldl (expireOne ctx) (m, [])).1, ?_, expireAll_named same⟩
    rw [← events]
    exact .expireChallenges running short
  | _ => cases own

-- ---------------------------------------------------------------------------
-- Two calls
-- ---------------------------------------------------------------------------

/-- What makes challenge calls at `now` independent. -/
structure Registry.Challenging (r : Registry) (now : Instant) : Prop where
  counters : r.CountersAgree
  inPeriod : ∀ (a : Account) (n : Node), r.nodes[a]? = some n → r.ScopedCountersAgree a n
  life : r.ScopedWithinLife
  begun : r.ChallengedBegun now
  history : r.history.WellFormed

/-- A challenge was counted in the record of the period in which it was issued. -/
theorem Registry.CountersAgree.recorded (hr : r.CountersAgree)
    (known : r.challenges[id]? = some c) : c.issued ∈ r.history.records := by
  refine Decidable.byContradiction fun missing => ?_
  have unissued : (r.statsAt c.issued).issued = 0 :=
    congrArg PeriodStats.issued (History.statsAt_carried (ExtTreeMap.getElem?_eq_none missing))
  have counted := challengesOf_pos_iff (P := fun _ issued _ => issued = c.issued).2
    ⟨id, c, known, decide_eq_true rfl⟩
  rw [← (hr.periods c.issued).1, unissued] at counted
  exact absurd counted (Nat.lt_irrefl 0)

theorem Counting.Grounded.due {k : Counting} {now : Instant} (h : k.Grounded r now ids)
    (hr : r.Challenging now) (current : r.periodAt now = .ok p) : k.Due r.book p := by
  cases k with
  | issue a q =>
    obtain rfl : q = p := Except.ok.inj (h.symm.trans current)
    exact ⟨fun _ _ => rfl, .inl rfl⟩
  | pass a q =>
    obtain ⟨id, -, c, known, own, rfl⟩ := h
    refine ⟨fun n found running => ?_, .inr (hr.counters.recorded known)⟩
    obtain ⟨last, hl, hle⟩ := (hr.inPeriod a n found).exists_last known own
    have begun : last ≤ p := hr.begun a n last found hl now p (Fin.le_refl _) current
    rw [hl, Fin.le_antisymm begun (running ▸ hle)]

namespace Localized

variable {x : Option Counting} (h : Localized r ctx call answer w ids x)
include h

theorem receipts : w.receipts = [] := congrArg World.receipts h.world

/-- The call leaves alone what is not in the book. -/
theorem withBook (m : ExtTreeMap String Challenge) (b : Book) :
    w.registry.withBook m b = r.withBook m b := by
  rw [congrArg World.registry h.world]
  rfl

/-- What other calls count next is what they would have counted before. -/
theorem grounded_before {k : Counting} {now : Instant} {ids' : List String}
    (apart : ∀ id ∈ ids, id ∉ ids') (hk : k.Grounded w.registry now ids') :
    k.Grounded r now ids' := by
  cases k with
  | issue a p =>
    rw [congrArg World.registry h.world] at hk
    exact hk
  | pass a p =>
    obtain ⟨id, named, c, known, issued⟩ := hk
    rw [h.others id fun named' => apart id named' named] at known
    exact ⟨id, named, c, known, issued⟩

end Localized

/-- Two accepted calls at one time that name different challenges. -/
theorem Accepts.swap {call' : Call} {answer' : Answer} {w' : World} {ids' : List String}
    (hx : Accepts r ctx call answer w) (hy : Accepts w.registry ctx' call' answer' w')
    (hr : r.Challenging ctx.now) (current : r.periodAt ctx.now = .ok p)
    (together : ctx'.now = ctx.now) (own : call.challengeIds? = some ids)
    (own' : call'.challengeIds? = some ids') (apart : ∀ id ∈ ids, id ∉ ids') :
    ∃ between, Accepts r ctx' call' answer' ⟨between, w'.events, w'.receipts⟩ ∧
      Accepts between ctx call answer ⟨w'.registry, w.events, w.receipts⟩ := by
  obtain ⟨x, localX⟩ := hx.localized hr.counters own
  obtain ⟨y, localY⟩ := hy.localized (hr.counters.step hx.ledgerStep) own'
  -- What they count can be counted in either order, so the second call is accepted first, and then
  -- the first one where the second one has been: both find their own challenges as they did.
  obtain ⟨b, afterY, afterX⟩ := localX.counted.swap localY.counted hr.history hr.life
    (fun k hk => (localX.grounded k hk).due hr current)
    fun k hk => (localX.grounded_before apart (together ▸ localY.grounded k hk)).due hr current
  obtain ⟨m, acceptedY, ownY, othersY⟩ := localY.elsewhere r.challenges r.book b
    (fun id named => (localX.others id fun named' => apart id named' named).symm) afterY
  obtain ⟨m', acceptedX, ownX, othersX⟩ := localX.elsewhere m b w'.registry.book
    (fun id named => othersY id (apart id named)) afterX
  have challenges : m' = w'.registry.challenges := by
    refine ExtTreeMap.ext_getElem? fun id => ?_
    by_cases named : id ∈ ids
    · rw [ownX id named, localY.others id (apart id named)]
    · rw [othersX id named]
      by_cases named' : id ∈ ids'
      · exact ownY id named'
      · rw [othersY id named', localY.others id named', localX.others id named]
  have last : r.withBook m' w'.registry.book = w'.registry := by
    rw [challenges, ← localX.withBook]
    exact (congrArg World.registry localY.world).symm
  rw [localX.withBook, localX.withBook] at acceptedY
  rw [last] at acceptedX
  refine ⟨r.withBook m b, ?_, ?_⟩
  · rw [localY.receipts]
    exact acceptedY
  · rw [localX.receipts]
    exact acceptedX

-- ---------------------------------------------------------------------------
-- Runs
-- ---------------------------------------------------------------------------

namespace Run

theorem challenging (run : Run) (hc : run.Chronological) {now : Instant} (later : run.now ≤ now) :
    run.registry.Challenging now where
  counters := run.countersAgree
  inPeriod := run.scopedCountersAgree hc
  life := run.scopedWithinLife
  begun a n p found hl := (run.challengedBegun hc a n p found hl).later later
  history := run.history_wellFormed

/-- Two challenge calls at one time that name different challenges, and that are accepted one after
the other: the other way round each of them shows what it showed, and the registry at the end is the
same. -/
theorem challenge_calls_commute (run : Run) (hc : run.Chronological) {ctx ctx' : Context}
    {c c' : Call} {ids ids' : List String} (later : run.now ≤ ctx.now)
    (together : ctx'.now = ctx.now) (own : c.challengeIds? = some ids)
    (own' : c'.challengeIds? = some ids') (apart : ∀ id ∈ ids, id ∉ ids')
    (first : ∃ answer, (run.registry.perform ctx c).2.result = .ok answer)
    (second : ∃ answer, ((run.call ctx c).registry.perform ctx' c').2.result = .ok answer) :
    (run.registry.perform ctx' c').2 = ((run.call ctx c).registry.perform ctx' c').2 ∧
      ((run.call ctx' c').registry.perform ctx c).2 = (run.registry.perform ctx c).2 ∧
      ((run.call ctx' c').call ctx c).registry = ((run.call ctx c).call ctx' c').registry := by
  obtain ⟨answer, first⟩ := first
  obtain ⟨answer', second⟩ := second
  obtain ⟨w, x, after⟩ := Transition.accepts_of_ok (t := ⟨run.registry, ctx, c⟩) first
  have met : (run.call ctx c).registry = w.registry := after
  rw [met] at second
  obtain ⟨w', y, -⟩ := Transition.accepts_of_ok (t := ⟨w.registry, ctx', c'⟩) second
  obtain ⟨p, current⟩ := run.exists_periodAt ctx.now
  obtain ⟨between, y', x'⟩ := x.swap y (run.challenging hc later) current together own own' apart
  have met' : (run.call ctx' c').registry = between := congrArg Prod.fst (perform_of_accepts y')
  refine ⟨?_, ?_, ?_⟩
  · rw [met, perform_of_accepts y, perform_of_accepts y']
  · rw [met', perform_of_accepts x, perform_of_accepts x']
  · show ((run.call ctx' c').registry.perform ctx c).1 =
      ((run.call ctx c).registry.perform ctx' c').1
    rw [met, met', perform_of_accepts x', perform_of_accepts y]

/-- Bob is challenged at the end of the first period and has not answered yet. -/
def challengedLate : Run :=
  let started := Run.create alice .default 0 (.fresh alice .default 0) create_default
  let registered := started.call (.plain bob 5) (.registerNode 10)
  registered.call (.plain alice 3_599_999_999_999) (.issueChallenge "first" bob "chunk" 0)

/-- At the start of the second period bob answers, and alice challenges him anew. -/
theorem challenge_calls_commute_rollover :
    let byAlice : Context := .plain alice nanosPerHour
    let byBob : Context := .plain bob nanosPerHour
    let issue : Call := .issueChallenge "second" bob "chunk" 0
    let answer : Call := .submitProof "first" [1]
    challengedLate.Chronological ∧ challengedLate.now ≤ byAlice.now ∧ byBob.now = byAlice.now ∧
      issue.challengeIds? = some ["second"] ∧ answer.challengeIds? = some ["first"] ∧
      (((challengedLate.call byBob answer).call byAlice issue).registry.nodes[bob]?).map
        Node.counters = some ⟨2, 1, some 1, 1, 0⟩ ∧
      ((challengedLate.call byBob answer).call byAlice issue).registry =
        ((challengedLate.call byAlice issue).call byBob answer).registry := by
  intro byAlice byBob issue answer
  have chronological : challengedLate.Chronological := by decide
  have later : challengedLate.now ≤ byAlice.now := by decide
  have together : byBob.now = byAlice.now := rfl
  have own : issue.challengeIds? = some ["second"] := rfl
  have own' : answer.challengeIds? = some ["first"] := rfl
  have apart : ∀ id ∈ ["second"], id ∉ ["first"] := by decide
  have first : ∃ a, (challengedLate.registry.perform byAlice issue).2.result = .ok a :=
    Procedure.isOk_iff.1 (by decide +kernel)
  have second : ∃ a, ((challengedLate.call byAlice issue).registry.perform byBob answer).2.result =
      .ok a := Procedure.isOk_iff.1 (by decide +kernel)
  have commute :=
    challenge_calls_commute challengedLate chronological later together own own' apart first second
  exact ⟨chronological, later, together, own, own', by decide +kernel, commute.2.2⟩

end Run

end StorageIncentives
