import StorageIncentives.Proofs.Clock
import StorageIncentives.Proofs.History
import StorageIncentives.Proofs.Nodes
import StorageIncentives.Proofs.Payout

/-!
# Counters of challenges

Five counters follow the challenges: one for the registry, two for each node over its life, two for
each node within its last challenged period, and two for each period. A call touches them in one of
three ways (`LedgerStep`), and in each of these they go on agreeing with the challenges that are
stored. The counters of a node's last challenged period need time not to go back.
-/

namespace StorageIncentives

open Std (ExtTreeMap)

/-- The number of challenges of a kind, which depends on their node, the period in which they were
issued and whether they are passed. -/
def challengesOf (m : ExtTreeMap String Challenge) (P : Account → Period → Bool → Bool) : Nat :=
  count m fun c => P c.node c.issued (c.status = .passed)

namespace Registry

structure CountersAgree (r : Registry) : Prop where
  total : r.challengesIssued.val = r.challenges.size
  known : ∀ (id : String) (c : Challenge), r.challenges[id]? = some c → c.node ∈ r.nodes
  lifetime : ∀ (a : Account) (n : Node), r.nodes[a]? = some n →
    n.challenges.val = challengesOf r.challenges (fun node _ _ => node = a) ∧
      n.passed.val = challengesOf r.challenges fun node _ passed => node = a && passed
  periods : ∀ p,
    (r.statsAt p).issued.val = challengesOf r.challenges (fun _ issued _ => issued = p) ∧
      (r.statsAt p).passed.val =
        challengesOf r.challenges fun _ issued passed => issued = p && passed

/-- The last challenged period of `a` is the greatest one in which a challenge was issued to it, and
the counters of that period count the challenges issued in it. -/
structure ScopedCountersAgree (r : Registry) (a : Account) (n : Node) : Prop where
  never : n.lastChallenged = none ↔ challengesOf r.challenges (fun node _ _ => node = a) = 0
  last : ∀ p, n.lastChallenged = some p →
    0 < challengesOf r.challenges (fun node issued _ => node = a && issued = p) ∧
      challengesOf r.challenges (fun node issued _ => node = a && p < issued) = 0
  challenges : n.periodChallenges.val = challengesOf r.challenges fun node issued _ =>
    node = a && n.lastChallenged = some issued
  passed : n.periodPassed.val = challengesOf r.challenges fun node issued passed =>
    node = a && (n.lastChallenged = some issued && passed)

end Registry

-- ---------------------------------------------------------------------------
-- What a call does to the counters
-- ---------------------------------------------------------------------------

variable {r r' : Registry} {ctx : Context} {call : Call} {answer : Answer} {w : World}
  {m : ExtTreeMap String Challenge} {nodes nodes' : ExtTreeMap Account Node} {a : Account}
  {n n' : Node} {id : String} {c : Challenge} {p : Period}

/-- What a node's record counts. -/
structure NodeCounters where
  challenges : Word
  passed : Word
  lastChallenged : Option Period
  periodChallenges : Word
  periodPassed : Word
  deriving DecidableEq

def NodeCounters.zero : NodeCounters := ⟨0, 0, none, 0, 0⟩

def Node.counters (n : Node) : NodeCounters :=
  ⟨n.challenges, n.passed, n.lastChallenged, n.periodChallenges, n.periodPassed⟩

/-- Each node counts as before, or is new and has counted nothing. -/
def CountersKept (nodes nodes' : ExtTreeMap Account Node) : Prop :=
  ∀ a : Account, (nodes'[a]?).map Node.counters = (nodes[a]?).map Node.counters ∨
    nodes[a]? = none ∧ (nodes'[a]?).map Node.counters = some .zero

theorem CountersKept.refl : CountersKept nodes nodes := fun _ => .inl rfl

theorem CountersKept.insert (hn : nodes[a]? = some n) (hc : n'.counters = n.counters) :
    CountersKept nodes (nodes.insert a n') := by
  intro b
  left
  by_cases hb : a = b
  · subst hb
    simp [hn, hc]
  · simp [ExtTreeMap.getElem?_insert, hb]

theorem CountersKept.insert_new (hn : nodes[a]? = none) (hc : n'.counters = .zero) :
    CountersKept nodes (nodes.insert a n') := by
  intro b
  by_cases hb : a = b
  · subst hb
    exact .inr ⟨hn, by simp [hc]⟩
  · exact .inl (by simp [ExtTreeMap.getElem?_insert, hb])

theorem CountersKept.creditTo {due : Payout} (hs : due.Sound r p) :
    CountersKept nodes (due.creditTo p nodes) := by
  intro a
  left
  rcases hs.creditTo_cases nodes p a with ⟨-, h⟩ | ⟨x, -, h⟩
  · rw [h]
  · rw [h, Option.map_map]
    rfl

theorem CountersKept.cases (h : CountersKept nodes nodes') (hn : nodes'[a]? = some n') :
    (∃ n, nodes[a]? = some n ∧ n.counters = n'.counters) ∨
      nodes[a]? = none ∧ n'.counters = .zero := by
  rcases h a with h | ⟨h0, h⟩
  · rw [hn, Option.map_some, eq_comm, Option.map_eq_some_iff] at h
    exact .inl h
  · rw [hn, Option.map_some] at h
    exact .inr ⟨h0, Option.some.inj h⟩

theorem CountersKept.mem (h : CountersKept nodes nodes') (ha : a ∈ nodes) : a ∈ nodes' := by
  have hs : (nodes[a]?).isSome := ExtTreeMap.isSome_getElem?_iff_mem.2 ha
  rw [← ExtTreeMap.isSome_getElem?_iff_mem, ← Option.isSome_map (f := Node.counters)]
  rcases h a with h | ⟨h0, -⟩
  · rw [h, Option.isSome_map, hs]
  · simp [h0] at hs

/-- What a call does to the counters: it leaves them, or it counts a challenge, or a pass. -/
inductive LedgerStep (r : Registry) (ctx : Context) (r' : Registry) : Prop
  | kept (total : r'.challengesIssued = r.challengesIssued)
      (counted : ∀ P, challengesOf r'.challenges P = challengesOf r.challenges P)
      (nodes : CountersKept r.nodes r'.nodes)
      (issuedIn : ∀ q, (r'.statsAt q).issued = (r.statsAt q).issued)
      (passedIn : ∀ q, (r'.statsAt q).passed = (r.statsAt q).passed)
  | issued {a : Account} {p : Period} {n n' : Node} (found : r.nodes[a]? = some n)
      (current : r.periodAt ctx.now = .ok p) (recorded : n.recordChallenge p = .ok n')
      (total : r'.challengesIssued.val = r.challengesIssued.val + 1)
      (counted : ∀ P, challengesOf r'.challenges P =
        challengesOf r.challenges P + if P a p false then 1 else 0)
      (nodes : r'.nodes = r.nodes.insert a n')
      (issuedIn : ∀ q, (r'.statsAt q).issued.val =
        (r.statsAt q).issued.val + if q = p then 1 else 0)
      (passedIn : ∀ q, (r'.statsAt q).passed = (r.statsAt q).passed)
  | passed {id : String} {c : Challenge} (listed : r.challenges[id]? = some c)
      (total : r'.challengesIssued = r.challengesIssued)
      (counted : ∀ P, challengesOf r'.challenges P + (if P c.node c.issued false then 1 else 0) =
        challengesOf r.challenges P + if P c.node c.issued true then 1 else 0)
      (nodes : CountsPass r.nodes c.node c.issued r'.nodes)
      (issuedIn : ∀ q, (r'.statsAt q).issued = (r.statsAt q).issued)
      (passedIn : ∀ q, (r'.statsAt q).passed.val =
        (r.statsAt q).passed.val + if q = c.issued then 1 else 0)

variable {P : Account → Period → Bool → Bool} {c' : Challenge}

theorem pending_of_not_resolved (h : c.isResolved = false) : c.status = .pending := by
  simpa [Challenge.isResolved] using h

theorem challengesOf_all : challengesOf m (fun _ _ _ => true) = m.size := tally_one m

theorem challengesOf_eq_zero_iff : challengesOf m P = 0 ↔ ∀ (id : String) (c : Challenge),
    m[id]? = some c → P c.node c.issued (c.status = .passed) = false := by
  simp only [challengesOf, count_eq_zero_iff, Bool.not_eq_true]

theorem challengesOf_pos_iff : 0 < challengesOf m P ↔ ∃ (id : String) (c : Challenge),
    m[id]? = some c ∧ P c.node c.issued (c.status = .passed) = true := by
  rw [Nat.pos_iff_ne_zero, ne_eq, challengesOf_eq_zero_iff]
  simp

theorem challengesOf_eq_zero_of_imp {Q : Account → Period → Bool → Bool}
    (h : challengesOf m Q = 0) (hPQ : ∀ a p b, P a p b = true → Q a p b = true) :
    challengesOf m P = 0 := by
  rw [challengesOf_eq_zero_iff] at h ⊢
  intro id c hc
  have := h id c hc
  exact Bool.eq_false_iff.2 fun hP => by simp [hPQ _ _ _ hP] at this

theorem challengesOf_empty : challengesOf ∅ P = 0 := by
  rw [challengesOf, count, tally_empty]

theorem challengesOf_insert_new (hn : m[id]? = none) :
    challengesOf (m.insert id c) P =
      challengesOf m P + if P c.node c.issued (c.status = .passed) then 1 else 0 :=
  count_insert_new hn

theorem challengesOf_pass (hc : m[id]? = some c) (hp : c.isResolved = false) :
    challengesOf (m.insert id { c with status := .passed }) P +
        (if P c.node c.issued false then 1 else 0) =
      challengesOf m P + if P c.node c.issued true then 1 else 0 := by
  have hs := pending_of_not_resolved hp
  have hi := count_insert (v := { c with status := .passed })
    (p := fun c => P c.node c.issued (c.status = .passed)) hc
  simpa [challengesOf, hs] using hi

theorem challengesOf_insert_same (hc : m[id]? = some c)
    (hk : P c'.node c'.issued (c'.status = .passed) = P c.node c.issued (c.status = .passed)) :
    challengesOf (m.insert id c') P = challengesOf m P :=
  count_insert_same hc (by rw [hk])

/-- An expiry does not change what kind of challenge it is. -/
theorem challengesOf_expire {events : List Event} {ids : List String} :
    challengesOf (ids.foldl (expireOne ctx) (m, events)).1 P = challengesOf m P := by
  induction ids generalizing m events with
  | nil => rfl
  | cons id ids ih =>
    rw [List.foldl_cons, ih]
    unfold expireOne
    split
    · rename_i c hc
      split
      · rename_i ho
        simp only [Challenge.isOverdue, Challenge.isResolved, Bool.and_eq_true] at ho
        have hp : c.status = .pending := by simpa using ho.1
        exact challengesOf_insert_same hc (by simp [hp])
      · rfl
    · rfl

theorem Accepts.ledgerStep (h : Accepts r ctx call answer w) : LedgerStep r ctx w.registry := by
  have issued (s : PeriodStats) : s.carried.issued = 0 := rfl
  have passed (s : PeriodStats) : s.carried.passed = 0 := rfl
  cases h with
  | registerNode _ _ fresh _ _ _ =>
    exact .kept rfl (fun _ => rfl) (.insert_new (ExtTreeMap.getElem?_eq_none fresh) rfl)
      (History.figure_put_same _ issued rfl) (History.figure_put_same _ passed rfl)
  | updateAllocation _ known _ _ _ _ _ =>
    exact .kept rfl (fun _ => rfl) (.insert known rfl)
      (History.figure_put_same _ issued rfl) (History.figure_put_same _ passed rfl)
  | unregisterNode _ known _ _ _ _ =>
    exact .kept rfl (fun _ => rfl) (.insert known rfl)
      (History.figure_put_same _ issued rfl) (History.figure_put_same _ passed rfl)
  | issueChallenge _ _ _ _ fresh known _ _ current periodTotal recorded total =>
    refine .issued known current recorded (Quantity.succOrTrap_eq_ok_iff.1 total)
      (fun P => challengesOf_insert_new (ExtTreeMap.getElem?_eq_none fresh)) rfl
      (History.figure_put_succ _ issued ?_) (History.figure_put_same _ passed rfl)
    exact Quantity.succOrTrap_eq_ok_iff.1 periodTotal
  | proofPassed _ _ known pending challenged _ _ periodTotal recorded =>
    refine .passed known rfl (fun P => challengesOf_pass known pending) (challenged ▸ recorded)
      (History.figure_put_same _ issued rfl) (History.figure_put_succ _ passed ?_)
    exact Quantity.succOrTrap_eq_ok_iff.1 periodTotal
  | proofFailed _ _ known pending _ _ _ =>
    refine .kept rfl (fun P => challengesOf_insert_same known ?_) .refl (fun _ => rfl)
      fun _ => rfl
    simp [pending_of_not_resolved pending]
  | expireChallenges _ _ =>
    exact .kept rfl (fun _ => challengesOf_expire) .refl (fun _ => rfl)
      (fun _ => rfl)
  | distributeRewards _ _ _ _ _ _ payout _ _ =>
    exact .kept rfl (fun _ => rfl) (.creditTo (Payout.sound_ofCandidates payout))
      (History.figure_put_same _ issued rfl) (History.figure_put_same _ passed rfl)
  | claimRewards known _ _ =>
    exact .kept rfl (fun _ => rfl) (.insert known rfl) (fun _ => rfl) (fun _ => rfl)
  | _ => exact .kept rfl (fun _ => rfl) .refl (fun _ => rfl) (fun _ => rfl)

theorem CountsPass.mem {b : Account} (h : CountsPass nodes a p nodes') (hb : b ∈ nodes) :
    b ∈ nodes' := by
  cases h with
  | known _ _ => exact ExtTreeMap.mem_insert.2 (.inr hb)
  | unknown _ => exact hb

theorem LedgerStep.mem (h : LedgerStep r ctx r') (ha : a ∈ r.nodes) : a ∈ r'.nodes := by
  cases h with
  | kept _ _ nodes _ _ => exact nodes.mem ha
  | issued _ _ _ _ _ nodes _ _ => exact nodes ▸ ExtTreeMap.mem_insert.2 (.inr ha)
  | passed _ _ _ nodes _ _ => exact nodes.mem ha

-- ---------------------------------------------------------------------------
-- Agreement
-- ---------------------------------------------------------------------------

theorem Registry.known_iff :
    (∀ (id : String) (c : Challenge), r.challenges[id]? = some c → c.node ∈ r.nodes) ↔
      ∀ a, a ∉ r.nodes → challengesOf r.challenges (fun node _ _ => node = a) = 0 := by
  simp only [challengesOf_eq_zero_iff, decide_eq_false_iff_not]
  constructor
  · rintro h a ha id c hc rfl
    exact ha (h id c hc)
  · intro h id c hc
    exact Decidable.not_not.1 fun hn => h _ hn id c hc rfl

namespace Registry.CountersAgree

theorem fresh {admin : Account} {config : Config} {now : Instant} :
    (Registry.fresh admin config now).CountersAgree where
  total := by simp [Registry.fresh]
  known id c hc := by simp [Registry.fresh] at hc
  lifetime a n hn := by simp [Registry.fresh] at hn
  periods p := by
    have hm : (Registry.fresh admin config now).challenges = ∅ := rfl
    rw [statsAt_fresh, hm, challengesOf_empty, challengesOf_empty]
    exact ⟨rfl, rfl⟩

theorem unchallenged (hr : r.CountersAgree) (hn : r.nodes[a]? = none) :
    challengesOf r.challenges (fun node _ _ => node = a) = 0 :=
  known_iff.1 hr.known a ((getElem?_eq_none_iff ..).1 hn)

theorem step (h : LedgerStep r ctx r') (hr : r.CountersAgree) : r'.CountersAgree := by
  have held {b : Account} : b ∈ r.nodes → b ∈ r'.nodes := h.mem
  cases h with
  | kept total counted nodes issuedIn passedIn =>
    refine ⟨?_, ?_, ?_, ?_⟩
    · rw [total, hr.total, ← challengesOf_all, ← challengesOf_all, counted]
    · refine known_iff.2 fun a ha => ?_
      rw [counted]
      exact known_iff.1 hr.known a (mt held ha)
    · intro a n' hn'
      rw [counted, counted]
      rcases nodes.cases hn' with ⟨n, hn, hc⟩ | ⟨hn, hc⟩
      · simp only [Node.counters, NodeCounters.mk.injEq] at hc
        rw [← hc.1, ← hc.2.1]
        exact hr.lifetime a n hn
      · simp only [Node.counters, NodeCounters.zero, NodeCounters.mk.injEq] at hc
        have hz := hr.unchallenged hn
        refine ⟨by rw [hc.1, hz]; rfl, ?_⟩
        rw [hc.2.1, challengesOf_eq_zero_of_imp hz (by simp +contextual)]
        rfl
    · intro q
      rw [issuedIn, passedIn, counted, counted]
      exact hr.periods q
  | @issued a p n n' found current recorded total counted nodes issuedIn passedIn =>
    obtain ⟨challenges, periodChallenges, hch, -, rfl⟩ := Node.recordChallenge_ok recorded
    refine ⟨?_, ?_, ?_, ?_⟩
    · rw [total, hr.total, ← challengesOf_all, ← challengesOf_all, counted]
      rfl
    · refine known_iff.2 fun b hb => ?_
      have hab : a ≠ b := fun h => hb (by simp [nodes, h])
      simp [counted, hab, known_iff.1 hr.known b (mt held hb)]
    · intro b k hk
      rcases getElem?_insert_cases (nodes ▸ hk) with ⟨rfl, rfl⟩ | ⟨hab, hk⟩
      · simp [counted, hch, hr.lifetime a n found]
      · simp [counted, hab, hr.lifetime b k hk]
    · intro q
      have hq := hr.periods q
      simp [counted, issuedIn, passedIn, hq, eq_comm]
  | @passed id c listed total counted nodes issuedIn passedIn =>
    have counted' (P : Account → Period → Bool → Bool) (hP : ∀ a p, P a p true = P a p false) :
        challengesOf r'.challenges P = challengesOf r.challenges P := by
      have := counted P
      rw [hP] at this
      omega
    refine ⟨?_, ?_, ?_, ?_⟩
    · rw [total, hr.total, ← challengesOf_all, ← challengesOf_all, counted' _ fun _ _ => rfl]
    · refine known_iff.2 fun b hb => ?_
      rw [counted' _ fun _ _ => rfl, known_iff.1 hr.known b (mt held hb)]
    · intro b k hk
      rw [counted' _ fun _ _ => rfl]
      have hc := counted fun node _ passed => node = b && passed
      generalize r'.nodes = nodes' at hk nodes
      cases nodes with
      | unknown missing =>
        exact absurd (hr.known id c listed) ((getElem?_eq_none_iff ..).1 missing)
      | @known n n' found recorded =>
        obtain ⟨passed, periodPassed, hp, -, rfl⟩ := Node.recordPass_ok recorded
        rcases getElem?_insert_cases hk with ⟨rfl, rfl⟩ | ⟨hb, hk⟩
        · have hl := hr.lifetime c.node n found
          have hn := hl.2
          refine ⟨hl.1, ?_⟩
          show passed.val = _
          simp only [decide_true, Bool.true_and, Bool.false_eq_true, if_false, if_true] at hc hn ⊢
          omega
        · simp [hb] at hc
          rw [hc]
          exact hr.lifetime b k hk
    · intro q
      have hq := hr.periods q
      have hc := counted fun _ issued passed => issued = q && passed
      rw [issuedIn, passedIn, counted' _ fun _ _ => rfl]
      refine ⟨hq.1, ?_⟩
      by_cases hi : c.issued = q
      · subst hi
        simp at hc hq ⊢
        omega
      · simp [hi, Ne.symm hi] at hc hq ⊢
        omega

end Registry.CountersAgree

namespace Registry.ScopedCountersAgree

/-- Only the counters of the node and the challenges to it matter. -/
theorem congr (hs : r.ScopedCountersAgree a n) (hc : n'.counters = n.counters)
    (hm : ∀ Q : Period → Bool → Bool,
      challengesOf r'.challenges (fun node issued passed => node = a && Q issued passed) =
        challengesOf r.challenges fun node issued passed => node = a && Q issued passed) :
    r'.ScopedCountersAgree a n' := by
  simp only [Node.counters, NodeCounters.mk.injEq] at hc
  obtain ⟨-, -, hl, hpc, hpp⟩ := hc
  have hall := hm fun _ _ => true
  simp only [Bool.and_true] at hall
  refine ⟨?_, fun p hp => ?_, ?_, ?_⟩
  · rw [hl, hall, hs.never]
  · rw [hm, hm]
    exact hs.last p (hl ▸ hp)
  · rw [hpc, hl, hm, hs.challenges]
  · rw [hpp, hl, hm, hs.passed]

theorem new (hz : challengesOf r.challenges (fun node _ _ => node = a) = 0)
    (hc : n.counters = .zero) : r.ScopedCountersAgree a n := by
  simp only [Node.counters, NodeCounters.zero, NodeCounters.mk.injEq] at hc
  obtain ⟨-, -, hl, hpc, hpp⟩ := hc
  refine ⟨by simp [hl, hz], fun p hp => by simp [hl] at hp, ?_, ?_⟩
  · rw [hpc, challengesOf_eq_zero_of_imp hz (by simp +contextual)]
    rfl
  · rw [hpp, challengesOf_eq_zero_of_imp hz (by simp +contextual)]
    rfl

/-- No challenge of a node is later than its last challenged period. -/
theorem none_later (hs : r.ScopedCountersAgree a n) {Q : Period → Bool → Bool}
    (hQ : ∀ issued passed, Q issued passed = true → ∀ p, n.lastChallenged = some p → p < issued) :
    challengesOf r.challenges (fun node issued passed => node = a && Q issued passed) = 0 := by
  cases hl : n.lastChallenged with
  | none => exact challengesOf_eq_zero_of_imp (hs.never.1 hl) (by simp +contextual)
  | some p =>
    refine challengesOf_eq_zero_of_imp (hs.last p hl).2 fun b issued passed h => ?_
    simp only [Bool.and_eq_true, decide_eq_true_eq] at h ⊢
    exact ⟨h.1, hQ _ _ h.2 p hl⟩

/-- The last challenged period of a node is not before that of any challenge to it. -/
theorem exists_last (hs : r.ScopedCountersAgree a n) (hc : r.challenges[id]? = some c)
    (own : c.node = a) : ∃ p, n.lastChallenged = some p ∧ c.issued ≤ p := by
  cases hl : n.lastChallenged with
  | none => simpa [own] using challengesOf_eq_zero_iff.1 (hs.never.1 hl) id c hc
  | some p =>
    exact ⟨p, rfl, by simpa [own] using challengesOf_eq_zero_iff.1 (hs.last p hl).2 id c hc⟩

/-- A challenge of the running period counts in it, and ends the counters of an earlier one. -/
theorem issue (hs : r.ScopedCountersAgree a n) (hp : ∀ q, n.lastChallenged = some q → q ≤ p)
    (hn : n.recordChallenge p = .ok n')
    (counted : ∀ P, challengesOf r'.challenges P =
      challengesOf r.challenges P + if P a p false then 1 else 0) :
    r'.ScopedCountersAgree a n' := by
  obtain ⟨challenges, periodChallenges, -, hpc, rfl⟩ := Node.recordChallenge_ok hn
  refine ⟨?_, ?_, ?_, ?_⟩
  · simp [counted]
  · intro q hq
    obtain rfl := Option.some.inj hq
    refine ⟨by simp [counted], ?_⟩
    have hz := hs.none_later (Q := fun issued _ => p < issued) fun issued _ hi q hq =>
      Fin.lt_of_le_of_lt (hp q hq) (of_decide_eq_true hi)
    simpa [counted] using hz
  -- An earlier period is left, and its counters with it.
  all_goals
    have earlier (hl : n.lastChallenged ≠ some p) (q : Period) (hq : n.lastChallenged = some q) :
        q < p := Nat.lt_of_le_of_ne (hp q hq) fun he => hl (Fin.ext he ▸ hq)
    by_cases hl : n.lastChallenged = some p
  · have hc := hs.challenges
    simp only [hl] at hc
    simp [hpc, hl, hc, counted]
  · have hz := hs.none_later (Q := fun issued _ => p = issued) fun issued _ hi q hq =>
      of_decide_eq_true hi ▸ earlier hl q hq
    simp [hpc, hl, hz, counted]
  · have hc := hs.passed
    simp only [hl] at hc
    simp [hl, hc, counted]
  · have hz := hs.none_later (Q := fun issued passed => p = issued && passed)
      fun issued _ hi q hq => of_decide_eq_true (Bool.and_eq_true_iff.1 hi).1 ▸ earlier hl q hq
    simp [hl, hz, counted]

/-- A pass counts in the last challenged period if its challenge was issued in it. -/
theorem pass (hs : r.ScopedCountersAgree a n) (hn : n.recordPass p = .ok n')
    (counted : ∀ P, challengesOf r'.challenges P + (if P a p false then 1 else 0) =
      challengesOf r.challenges P + if P a p true then 1 else 0) :
    r'.ScopedCountersAgree a n' := by
  obtain ⟨passed, periodPassed, -, hpp, rfl⟩ := Node.recordPass_ok hn
  have counted' (P : Account → Period → Bool → Bool) (hP : P a p true = P a p false) :
      challengesOf r'.challenges P = challengesOf r.challenges P := by
    have := counted P
    rw [hP] at this
    omega
  refine ⟨?_, fun q hq => ?_, ?_, ?_⟩
  · rw [counted' _ rfl]
    exact hs.never
  · rw [counted' _ rfl, counted' _ rfl]
    exact hs.last q hq
  · rw [counted' _ rfl]
    exact hs.challenges
  · have hc := counted fun node issued passed =>
      node = a && (n.lastChallenged = some issued && passed)
    have hq := hs.passed
    show periodPassed.val = _
    by_cases hl : n.lastChallenged = some p
    · simp [hl] at hpp hc hq ⊢
      omega
    · simp [hl] at hpp hc hq ⊢
      omega

/-- The counters of all nodes go on agreeing, when no node was challenged after the running
period. -/
theorem step (h : LedgerStep r ctx r') (hr : r.CountersAgree)
    (hs : ∀ (a : Account) (n : Node), r.nodes[a]? = some n → r.ScopedCountersAgree a n)
    (hb : ∀ (a : Account) (n : Node) (p : Period), r.nodes[a]? = some n →
      n.lastChallenged = some p → r.Begun ctx.now p)
    (a : Account) (n : Node) (hn : r'.nodes[a]? = some n) : r'.ScopedCountersAgree a n := by
  cases h with
  | kept total counted nodes issuedIn passedIn =>
    rcases nodes.cases hn with ⟨k, hk, hc⟩ | ⟨hk, hc⟩
    · exact (hs a k hk).congr hc.symm fun Q => counted _
    · exact new (by rw [counted, hr.unchallenged hk]) hc
  | @issued b p k k' found current recorded total counted nodes issuedIn passedIn =>
    rcases getElem?_insert_cases (nodes ▸ hn) with ⟨rfl, rfl⟩ | ⟨hab, hn⟩
    · exact (hs b k found).issue (fun q hq => hb b k q found hq _ _ (Fin.le_refl _) current)
        recorded counted
    · exact (hs a n hn).congr rfl fun Q => by simp [counted, hab]
  | @passed id c listed total counted nodes issuedIn passedIn =>
    generalize r'.nodes = nodes' at hn nodes
    cases nodes with
    | unknown missing =>
      exact absurd (hr.known id c listed) ((getElem?_eq_none_iff ..).1 missing)
    | @known k k' found recorded =>
      rcases getElem?_insert_cases hn with ⟨rfl, rfl⟩ | ⟨hab, hn⟩
      · exact (hs _ k found).pass recorded counted
      · refine (hs a n hn).congr rfl fun Q => ?_
        simpa [hab] using counted fun node issued passed => node = a && Q issued passed

end Registry.ScopedCountersAgree

-- ---------------------------------------------------------------------------
-- Runs
-- ---------------------------------------------------------------------------

theorem LedgerStep.lastChallenged_cases (h : LedgerStep r ctx r') (hn : r'.nodes[a]? = some n')
    (hl : n'.lastChallenged = some p) : r.periodAt ctx.now = .ok p ∨
      ∃ n, r.nodes[a]? = some n ∧ n.lastChallenged = some p := by
  cases h with
  | kept _ _ nodes _ _ =>
    rcases nodes.cases hn with ⟨n, hk, hc⟩ | ⟨_, hc⟩
    · have := congrArg NodeCounters.lastChallenged hc
      exact .inr ⟨n, hk, this.trans hl⟩
    · have := congrArg NodeCounters.lastChallenged hc
      exact absurd (this.symm.trans hl) (by simp [NodeCounters.zero])
  | @issued b q k k' found current recorded _ _ nodes _ _ =>
    rcases getElem?_insert_cases (nodes ▸ hn) with ⟨rfl, rfl⟩ | ⟨-, hn⟩
    · obtain ⟨_, _, -, -, rfl⟩ := Node.recordChallenge_ok recorded
      obtain rfl := Option.some.inj hl
      exact .inl current
    · exact .inr ⟨n', hn, hl⟩
  | @passed id c _ _ _ nodes _ _ =>
    generalize r'.nodes = nodes' at hn nodes
    cases nodes with
    | unknown _ => exact .inr ⟨n', hn, hl⟩
    | @known k k' found recorded =>
      rcases getElem?_insert_cases hn with ⟨rfl, rfl⟩ | ⟨-, hn⟩
      · obtain ⟨_, _, -, -, rfl⟩ := Node.recordPass_ok recorded
        exact .inr ⟨k, found, hl⟩
      · exact .inr ⟨n', hn, hl⟩

/-- At `t`, the last challenged period of each node has begun. -/
def Registry.ChallengedBegun (r : Registry) (t : Instant) : Prop :=
  ∀ (a : Account) (n : Node) (p : Period), r.nodes[a]? = some n → n.lastChallenged = some p →
    r.Begun t p

theorem Registry.ChallengedBegun.step {t : Instant} (h : Accepts r ctx call answer w)
    (hs : r.ClockSound) (ht : t ≤ ctx.now) (hb : r.ChallengedBegun t) :
    w.registry.ChallengedBegun ctx.now := by
  intro a n p hn hl
  rcases h.ledgerStep.lastChallenged_cases hn hl with hp | ⟨k, hk, hl⟩
  · exact (Begun.of_periodAt hp).step h hs (Fin.le_refl _)
  · exact (hb a k p hk hl).step h hs ht

namespace Run

theorem countersAgree (run : Run) : run.registry.CountersAgree :=
  run.invariant (fun _ => .fresh) fun h => .step h.ledgerStep

theorem challengedBegun (run : Run) (hc : run.Chronological) :
    run.registry.ChallengedBegun run.now := by
  refine run.chronological_invariant (P := Registry.ChallengedBegun) ?_ ?_ ?_ hc
  · intro _ _ _ a n p hn
    simp [Registry.fresh] at hn
  · exact fun ht hb a n p hn hl => (hb a n p hn hl).later ht
  · exact fun {run} _ _ _ _ _ ht ha hb => hb.step ha run.clockSound ht

theorem scopedCountersAgree (run : Run) (hc : run.Chronological) (a : Account) (n : Node)
    (hn : run.registry.nodes[a]? = some n) : run.registry.ScopedCountersAgree a n := by
  refine run.chronological_invariant (P := fun r _ => ∀ (a : Account) (n : Node),
    r.nodes[a]? = some n → r.ScopedCountersAgree a n) ?_ (fun _ h => h) ?_ hc a n hn
  · intro _ _ _ a n hn
    simp [Registry.fresh] at hn
  · intro run ctx _ _ _ hc ht ha hs
    exact .step ha.ledgerStep run.countersAgree hs fun a n p hn hl =>
      (run.challengedBegun hc a n p hn hl).later ht

/-- A challenge was issued in a period that has begun. -/
theorem challenge_begun (run : Run) (hc : run.Chronological) {id : String} {c : Challenge}
    (h : run.registry.challenges[id]? = some c) : run.registry.Begun run.now c.issued := by
  obtain ⟨n, hn⟩ : ∃ n, run.registry.nodes[c.node]? = some n :=
    ⟨_, getElem?_pos run.registry.nodes c.node (run.countersAgree.known id c h)⟩
  obtain ⟨p, hl, hle⟩ := (run.scopedCountersAgree hc c.node n hn).exists_last h rfl
  exact (run.challengedBegun hc c.node n p hn hl).of_le hle

/-- All counters of challenges agree with the challenges that are stored, after every run; those of
a node's last challenged period do if time does not go back. -/
theorem counters_agree_with_challenges (run : Run) : run.registry.CountersAgree ∧
    (run.Chronological → ∀ (a : Account) (n : Node), run.registry.nodes[a]? = some n →
      run.registry.ScopedCountersAgree a n) :=
  ⟨run.countersAgree, run.scopedCountersAgree⟩

theorem counters_agree_oneReward : oneReward.Chronological ∧
    ∃ n, oneReward.registry.nodes[bob]? = some n ∧
      n.counters = ⟨1, 1, some 0, 1, 1⟩ ∧ oneReward.registry.ScopedCountersAgree bob n := by
  obtain ⟨n, hn, hc⟩ : ∃ n, oneReward.registry.nodes[bob]? = some n ∧
      n.counters = ⟨1, 1, some 0, 1, 1⟩ := by
    refine Option.map_eq_some_iff.1 ?_
    decide +kernel
  exact ⟨chronological_oneReward, n, hn, hc,
    (counters_agree_with_challenges oneReward).2 chronological_oneReward bob n hn⟩

end Run

end StorageIncentives
