import Mathlib.Data.Finite.Prod
import Mathlib.Data.Set.Finite.Lemmas
import StorageIncentives.Proofs.PeriodTotals

/-!
# The index answers for all records

A record that is written after a later period was recorded stays out of the index, and a search
does not find it. When time does not go back, only the distribution of a period without a record
writes such a one; it keeps the totals that it meets, and they are final. So the record shows what
the nearest indexed one before it shows, and leaving it out changes no answer.
-/

namespace StorageIncentives

namespace History

/-- What period `p` takes over from the last of these periods up to it. -/
inductive Carries (h : History) (among : Period → Prop) (p : Period) : PeriodStats → Prop
  | last {b : Period} {s : PeriodStats} (member : among b) (before : b ≤ p)
      (greatest : ∀ x, among x → x ≤ p → x ≤ b) (record : h.records[b]? = some s) :
      Carries h among p s.carried
  | nothing (later : ∀ x, among x → p < x) : Carries h among p .empty

/-- A record as the distribution of an unrecorded period writes it. -/
structure Backfilled (h : History) (p : Period) (s : PeriodStats) : Prop where
  distributed : s.distributed = true
  unchallenged : s.issued = 0 ∧ s.passed = 0
  totals : h.Carries (· ∈ h.index) p s.carried

structure BackfillsOnly (h : History) : Prop where
  backfilled : ∀ p s, h.records[p]? = some s → p ∉ h.index → h.Backfilled p s

variable {h : History} {p q b : Period} {s x : PeriodStats}

-- ---------------------------------------------------------------------------
-- Taking over
-- ---------------------------------------------------------------------------

theorem Carries.later (c : h.Carries (· ∈ h.index) b x) (before : b ≤ p)
    (between : ∀ y ∈ h.index, y ≤ p → y ≤ b) : h.Carries (· ∈ h.index) p x := by
  cases c with
  | last member first greatest record =>
    refine .last member (Fin.le_trans first before) (fun y hy hyp => ?_) record
    exact greatest y hy (between y hy hyp)
  | nothing later =>
    refine .nothing fun y hy => Fin.not_le.1 fun hyp => ?_
    exact Fin.not_lt.2 (between y hy hyp) (later y hy)

theorem WellFormed.carries_statsAt (hw : h.WellFormed) (hr : h.records[p]? = none) :
    h.Carries (· ∈ h.index) p (h.statsAt p) := by
  cases hb : h.latest? p with
  | none =>
    rw [statsAt_of_latest_none hr hb]
    exact .nothing ((latest?_eq_none_iff hw.ascending).1 hb)
  | some b =>
    obtain ⟨member, before, greatest⟩ := (latest?_eq_some_iff hw.ascending).1 hb
    obtain ⟨sb, record⟩ := hw.record_of_latest hb
    rw [hw.statsAt_of_latest hr hb, statsAt_of_record record]
    exact .last member before greatest record

theorem WellFormed.statsAt_of_carries (hw : h.WellFormed) (hr : h.records[p]? = none)
    (c : h.Carries (· ∈ h.index) p x) : h.statsAt p = x := by
  cases c with
  | last member before greatest record =>
    have hb := (latest?_eq_some_iff hw.ascending).2 ⟨member, before, greatest⟩
    rw [hw.statsAt_of_latest hr hb, statsAt_of_record record]
  | nothing later =>
    exact statsAt_of_latest_none hr ((latest?_eq_none_iff hw.ascending).2 later)

/-- A write leaves alone what a period takes over that does not come to lie past a new end of the
index, unless it changes the totals of the record that this period takes over. -/
theorem Carries.put (c : h.Carries (· ∈ h.index) q x) (early : h.isLatest p = true → q < p)
    (kept : p ∈ h.index → p ≤ q → s.carried = (h.statsAt p).carried) :
    (h.put p s).Carries (· ∈ (h.put p s).index) q x := by
  cases c with
  | @last b sb member before greatest record =>
    have greatest' (y : Period) (hy : y ∈ (h.put p s).index) (hyq : y ≤ q) : y ≤ b := by
      rcases (mem_index_put y).1 hy with hy | ⟨latest, rfl⟩
      · exact greatest y hy hyq
      · exact absurd hyq (Fin.not_le.2 (early latest))
    have member' := (mem_index_put (p := p) (s := s) b).2 (.inl member)
    by_cases hb : b = p
    · subst hb
      rw [← statsAt_of_record record, ← kept member before]
      exact .last member' before greatest' (by simp [records_put])
    · exact .last member' before greatest' ((getElem?_records_put hb).trans record)
  | nothing later =>
    refine .nothing fun y hy => ?_
    rcases (mem_index_put y).1 hy with hy | ⟨latest, rfl⟩
    · exact later y hy
    · exact early latest

-- ---------------------------------------------------------------------------
-- Records outside the index
-- ---------------------------------------------------------------------------

theorem WellFormed.exists_later_of_unindexed (hw : h.WellFormed) (hr : h.records[p]? = some s)
    (unindexed : p ∉ h.index) : ∃ y ∈ h.index, p < y := by
  obtain ⟨y, hy, hle⟩ := hw.reached p (getElem?_eq_some_iff.1 hr).1
  exact ⟨y, hy, lt_of_le_of_ne hle fun same => unindexed (same ▸ hy)⟩

theorem WellFormed.lt_last_of_unindexed (hw : h.WellFormed) (hr : h.records[p]? = some s)
    (unindexed : p ∉ h.index) : ∃ last, h.index.back? = some last ∧ p < last := by
  obtain ⟨y, hy, hlt⟩ := hw.exists_later_of_unindexed hr unindexed
  have notLatest : ¬ h.isLatest y = true := fun latest =>
    Fin.lt_irrefl y ((isLatest_iff hw.ascending).1 latest y hy)
  rw [isLatest] at notLatest
  cases hl : h.index.back? with
  | none => simp [hl] at notLatest
  | some last =>
    refine ⟨last, rfl, Fin.lt_of_lt_of_le hlt ?_⟩
    simpa [hl] using notLatest

/-- A write keeps the rule if it is at the end of the index, or if it keeps the totals that it
meets and, where it makes a new record inside the index, counts no challenge. -/
theorem BackfillsOnly.put (hb : h.BackfillsOnly) (hw : h.WellFormed)
    (kept : (∀ y ∈ h.index, y ≤ p) ∨ s.carried = (h.statsAt p).carried)
    (entered : p ∈ h.index ∨ h.isLatest p = true ∨ (s.distributed = true ∧
      (s.issued = 0 ∧ s.passed = 0) ∧ h.Carries (· ∈ h.index) p s.carried)) :
    (h.put p s).BackfillsOnly := by
  refine ⟨fun q sq record unindexed => ?_⟩
  rw [mem_index_put, not_or] at unindexed
  obtain ⟨unindexed, notNew⟩ := unindexed
  by_cases hq : q = p
  · subst hq
    have notLatest : ¬ h.isLatest q = true := fun latest => notNew ⟨latest, rfl⟩
    obtain rfl : s = sq := by simpa [records_put] using record
    obtain ⟨distributed, unchallenged, totals⟩ := (entered.resolve_left unindexed).resolve_left
      notLatest
    exact ⟨distributed, unchallenged, totals.put (fun latest => absurd latest notLatest)
      fun indexed => absurd indexed unindexed⟩
  · rw [getElem?_records_put hq] at record
    obtain ⟨distributed, unchallenged, totals⟩ := hb.backfilled q sq record unindexed
    obtain ⟨y, hy, hlt⟩ := hw.exists_later_of_unindexed record unindexed
    refine ⟨distributed, unchallenged, totals.put (fun latest => ?_) fun _ hle => ?_⟩
    · exact Fin.lt_trans hlt ((isLatest_iff hw.ascending).1 latest y hy)
    · refine kept.resolve_left fun last => ?_
      exact absurd (Fin.lt_of_lt_of_le hlt (last y hy)) (Fin.not_lt.2 hle)

/-- A period with a challenge is indexed. -/
theorem BackfillsOnly.indexed_of_issued (hb : h.BackfillsOnly)
    (issued : 0 < (h.statsAt p).issued.val) : p ∈ h.index := by
  cases hr : h.records[p]? with
  | none =>
    rw [statsAt_carried hr] at issued
    exact absurd issued (Nat.lt_irrefl 0)
  | some s =>
    rw [statsAt_of_record hr] at issued
    by_contra unindexed
    rw [(hb.backfilled p s hr unindexed).unchallenged.1] at issued
    exact Nat.lt_irrefl 0 issued

/-- An unindexed period whose rewards are not distributed has no record. -/
theorem BackfillsOnly.unrecorded (hb : h.BackfillsOnly) (unindexed : p ∉ h.index)
    (once : (h.statsAt p).distributed = false) : h.records[p]? = none := by
  cases hr : h.records[p]? with
  | none => rfl
  | some s =>
    rw [statsAt_of_record hr, (hb.backfilled p s hr unindexed).distributed] at once
    cases once

/-- Of periods one of which is not after `p`, there is a last one that is not. -/
theorem exists_last {among : Period → Prop} (member : among q) (before : q ≤ p) :
    ∃ b, among b ∧ b ≤ p ∧ ∀ y, among y → y ≤ p → y ≤ b := by
  obtain ⟨b, ⟨hb, hbp⟩, last⟩ :=
    Set.exists_max_image {y | among y ∧ y ≤ p} id (Set.toFinite _) ⟨q, member, before⟩
  exact ⟨b, hb, hbp, fun y hy hyp => last y ⟨hy, hyp⟩⟩

/-- A period without a record shows what it would take over from all records. -/
theorem BackfillsOnly.carries_records (hb : h.BackfillsOnly) (hw : h.WellFormed)
    (hr : h.records[p]? = none) : h.Carries (· ∈ h.records) p (h.statsAt p) := by
  by_cases earlier : ∃ y, y ∈ h.records ∧ y ≤ p
  · obtain ⟨y, recorded, hyp⟩ := earlier
    obtain ⟨b, member, before, greatest⟩ := exists_last recorded hyp
    have between (y : Period) (hy : y ∈ h.index) (hyp : y ≤ p) : y ≤ b :=
      greatest y (hw.recorded y hy) hyp
    have record : h.records[b]? = some h.records[b] := getElem?_pos h.records b member
    have indexed : h.Carries (· ∈ h.index) p h.records[b].carried := by
      by_cases hi : b ∈ h.index
      · exact .last hi before between record
      · exact (hb.backfilled b _ record hi).totals.later before between
    rw [hw.statsAt_of_carries hr indexed]
    exact .last member before greatest record
  · have later (y : Period) (hy : y ∈ h.records) : p < y :=
      Fin.not_le.1 fun hyp => earlier ⟨y, hy, hyp⟩
    rw [hw.statsAt_of_carries hr (.nothing fun y hy => later y (hw.recorded y hy))]
    exact .nothing later

end History

/-- What a search through the index answers, in terms of all records. -/
structure Registry.IndexSuffices (r : Registry) : Prop where
  unindexed : ∀ p s, r.history.records[p]? = some s → p ∉ r.history.index →
    (∃ last, r.history.index.back? = some last ∧ p < last) ∧ r.history.Backfilled p s
  unrecorded : ∀ p, p ∉ r.history.records → ∃ seed,
    r.history.Carries (· ∈ r.history.records) p seed ∧
      (∀ now, Query.answer r now (.periodStats p) = .ok (.periodStats seed)) ∧
      ∀ (ctx : Context) (call : Call) (s : PeriodStats),
        (Transition.after ⟨r, ctx, call⟩).history.records[p]? = some s →
          ∃ answer, (Transition.outcome ⟨r, ctx, call⟩).result = .ok answer ∧
            PeriodWrite r ctx p seed call answer s

variable {r : Registry} {ctx : Context} {call : Call} {answer : Answer} {w : World} {p : Period}
  {s : PeriodStats}

-- ---------------------------------------------------------------------------
-- Calls
-- ---------------------------------------------------------------------------

/-- The record of a period that had none is what one call made of what the period showed. -/
theorem Transition.periodWrite_of_new {t : Transition} (hr : t.before.history.records[p]? = none)
    (written : t.after.history.records[p]? = some s) : ∃ answer,
      t.outcome.result = .ok answer ∧
        PeriodWrite t.before t.ctx p (t.before.statsAt p) t.call answer s := by
  rcases t.cases with ⟨_, same, -⟩ | ⟨answer, w, accepts, same, outcome⟩
  · rw [same, hr] at written
    cases written
  rw [same] at written
  rcases accepts.periodWrite with kept | ⟨q, s', put, write⟩
  · rw [kept, hr] at written
    cases written
  · rw [put] at written
    by_cases hq : p = q
    · subst hq
      obtain rfl : s' = s := by simpa [History.records_put] using written
      exact ⟨answer, by rw [outcome], write⟩
    · rw [History.getElem?_records_put hq, hr] at written
      cases written

theorem PeriodWrite.backfillsOnly {s' : PeriodStats}
    (write : PeriodWrite r ctx p (r.statsAt p) call answer s')
    (hb : r.history.BackfillsOnly) (hw : r.history.WellFormed) (counters : r.CountersAgree)
    (begun : ∀ current, r.periodAt ctx.now = .ok current → ∀ y ∈ r.history.index, y ≤ current) :
    (r.history.put p s').BackfillsOnly := by
  have atEnd (current : r.periodAt ctx.now = .ok p) : (r.history.put p s').BackfillsOnly := by
    have last := begun p current
    refine hb.put hw (.inl last) (or_iff_not_imp_left.2 fun unindexed => .inl ?_)
    refine (History.isLatest_iff hw.ascending).2 fun y hy => ?_
    exact lt_of_le_of_ne (last y hy) fun same => unindexed (same ▸ hy)
  cases write with
  | registered current _ | resized current _ | left current _ | issued current _ =>
    exact atEnd current
  | passed known own counted =>
    have issued : 0 < (r.statsAt p).issued.val := by
      rw [(counters.periods p).1]
      exact challengesOf_pos_iff.2 ⟨_, _, known, by simpa using own⟩
    exact hb.put hw (.inr rfl) (.inl (hb.indexed_of_issued issued))
  | distributed now started once =>
    refine hb.put hw (.inr rfl) (or_iff_not_imp_left.2 fun unindexed => .inr ?_)
    have hr := hb.unrecorded unindexed once
    have carried : r.statsAt p = (r.statsAt p).carried := History.statsAt_carried hr
    have totals : r.history.Carries (· ∈ r.history.index) p (r.statsAt p) := hw.carries_statsAt hr
    rw [carried]
    rw [carried] at totals
    exact ⟨rfl, ⟨rfl, rfl⟩, totals⟩

namespace Run

theorem backfillsOnly (run : Run) (hc : run.Chronological) :
    run.registry.history.BackfillsOnly := by
  refine run.chronological_invariant (P := fun r _ => r.history.BackfillsOnly) ?_ ?_ ?_ hc
  · refine ⟨fun p s record => ?_⟩
    simp [Registry.fresh, History.empty] at record
  · exact fun _ hb => hb
  · intro run ctx c answer w hc ht h hb
    rcases h.periodWrite with kept | ⟨p, s, put, write⟩
    · exact kept ▸ hb
    · rw [put]
      refine write.backfillsOnly hb run.history_wellFormed run.countersAgree ?_
      exact fun current running y hy => run.index_begun hc y hy _ _ ht running

/-- The index of the periods ascends and lists recorded ones only. When time does not go back, it
answers as the set of all records would. -/
theorem index_suffices (run : Run) :
    (run.registry.history.index.toList.Pairwise (· < ·) ∧
      ∀ p ∈ run.registry.history.index, p ∈ run.registry.history.records) ∧
    (run.Chronological → run.registry.IndexSuffices) := by
  have hw := run.history_wellFormed
  refine ⟨⟨hw.ascending, hw.recorded⟩, fun hc => ⟨fun p s record unindexed => ?_, fun p new => ?_⟩⟩
  · exact ⟨hw.lt_last_of_unindexed record unindexed,
      (run.backfillsOnly hc).backfilled p s record unindexed⟩
  · have hr := Std.ExtTreeMap.getElem?_eq_none new
    exact ⟨_, (run.backfillsOnly hc).carries_records hw hr, fun _ => rfl,
      fun ctx call s written => Transition.periodWrite_of_new hr written⟩

/-- In period 3, when it is recorded, alice distributes the rewards of period 1. -/
def distributedLate : Run :=
  let started := Run.create alice .default 0 (.fresh alice .default 0) create_default
  let registered := started.call (.plain bob 5) (.registerNode 10)
  let resized := registered.call (.plain bob (nanosPerHour.mulSat 3)) (.updateAllocation 30)
  resized.call (.plain alice (nanosPerHour.mulSat 3)) (.distributeRewards 1 [alice])

/-- Period 1 is not indexed, and period 2 shows its totals. -/
theorem index_suffices_distributedLate :
    let r := distributedLate.registry
    distributedLate.Chronological ∧ r.history.index.toList = [0, 3] ∧
      (∃ s, r.history.records[(1 : Period)]? = some s ∧ r.history.Backfilled 1 s) ∧
      r.statsAt 2 = ⟨10, 0, 1, 0, 0, false⟩ ∧
      r.history.Carries (· ∈ r.history.records) 2 (r.statsAt 2) := by
  intro r
  have chronological : distributedLate.Chronological := by decide
  have index : r.history.index.toList = [0, 3] := by decide +kernel
  have record : r.history.records[(1 : Period)]? = some ⟨10, 0, 1, 0, 0, true⟩ := by decide +kernel
  have new : (2 : Period) ∉ r.history.records := by decide +kernel
  obtain ⟨unindexed, unrecorded⟩ := (index_suffices distributedLate).2 chronological
  have backfilled := (unindexed 1 _ record (by decide +kernel)).2
  obtain ⟨seed, carries, answer, -⟩ := unrecorded 2 new
  obtain rfl : r.statsAt 2 = seed := by simpa [Query.answer] using answer 0
  exact ⟨chronological, index, ⟨_, record, backfilled⟩, by decide +kernel, carries⟩

end Run

end StorageIncentives
