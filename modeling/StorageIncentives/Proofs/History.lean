import StorageIncentives.Proofs.Tally
import StorageIncentives.Period.History

/-!
# Period records and their index

The index ascends, lists recorded periods only, and reaches at least as far as the records do
(`WellFormed`). `latest?` is then the nearest indexed period, and writing one record has two
readings: a record with the totals that the period had anyway changes no other answer, and a record
at or past the end of the index sets the totals of all later periods.
-/

namespace StorageIncentives

namespace PeriodStats

theorem carried_eq_iff {s s' : PeriodStats} :
    s.carried = s'.carried ↔ s.capacity = s'.capacity ∧ s.activeNodes = s'.activeNodes := by
  simp [carried, empty]

end PeriodStats

namespace History

variable {h : History} {p q b : Period} {s : PeriodStats} {index : Array Period}

structure WellFormed (h : History) : Prop where
  ascending : h.index.toList.Pairwise (· < ·)
  recorded : ∀ p ∈ h.index, p ∈ h.records
  reached : ∀ p ∈ h.records, ∃ q ∈ h.index, p ≤ q

-- ---------------------------------------------------------------------------
-- Bisection
-- ---------------------------------------------------------------------------

theorem lt_of_index (ha : index.toList.Pairwise (· < ·)) {i j : Nat} {x y : Period}
    (hx : index[i]? = some x) (hy : index[j]? = some y) (hij : i < j) : x < y := by
  rw [← Array.getElem?_toList] at hx hy
  obtain ⟨hi, rfl⟩ := List.getElem?_eq_some_iff.1 hx
  obtain ⟨hj, rfl⟩ := List.getElem?_eq_some_iff.1 hy
  exact List.pairwise_iff_getElem.1 ha i j hi hj hij

theorem le_of_index (ha : index.toList.Pairwise (· < ·)) {i j : Nat} {x y : Period}
    (hx : index[i]? = some x) (hy : index[j]? = some y) (hij : i ≤ j) : x ≤ y := by
  rcases Nat.lt_or_eq_of_le hij with hlt | rfl
  · exact Fin.le_of_lt (lt_of_index ha hx hy hlt)
  · exact Fin.le_of_eq (Option.some.inj (hx.symm.trans hy))

/-- The positions before the result of a bisection are those of the periods up to `p`. -/
theorem bisect_spec (ha : index.toList.Pairwise (· < ·)) (lo hi : Nat) (hle : lo ≤ hi)
    (hhi : hi ≤ index.size)
    (below : ∀ i x, index[i]? = some x → i < lo → x ≤ p)
    (above : ∀ i x, index[i]? = some x → hi ≤ i → p < x) :
    bisect index p lo hi ≤ index.size ∧
      ∀ i x, index[i]? = some x → (x ≤ p ↔ i < bisect index p lo hi) := by
  fun_induction bisect index p lo hi with
  | case1 lo hi hlt mid x hx hxp ih =>
    refine ih (by omega) hhi (fun i y hy hi' => ?_) above
    exact Fin.le_trans (le_of_index ha hy hx (by omega)) hxp
  | case2 lo hi hlt mid x hx hxp ih =>
    refine ih (by omega) (by omega) below fun i y hy hi' => ?_
    exact Fin.lt_of_lt_of_le (Fin.not_le.1 hxp) (le_of_index ha hx hy hi')
  | case3 lo hi hlt mid hx ih =>
    -- The middle lies within the index.
    have := Array.getElem?_eq_none_iff.1 hx
    omega
  | case4 lo hi hlt =>
    refine ⟨by omega, fun i x hx => ⟨fun hxp => ?_, below i x hx⟩⟩
    by_cases hi' : hi ≤ i
    · exact absurd hxp (Fin.not_le.2 (above i x hx hi'))
    · omega

/-- A bisection of the whole index counts the periods up to `p`. -/
theorem bisect_whole (ha : index.toList.Pairwise (· < ·)) :
    bisect index p 0 index.size ≤ index.size ∧
      ∀ i x, index[i]? = some x → (x ≤ p ↔ i < bisect index p 0 index.size) := by
  refine bisect_spec ha 0 index.size (Nat.zero_le _) (Nat.le_refl _)
    (fun i x _ hi => absurd hi (Nat.not_lt_zero i)) fun i x hx hi => ?_
  rw [Array.getElem?_eq_none hi] at hx
  cases hx

theorem latest?_eq_some_iff (ha : h.index.toList.Pairwise (· < ·)) :
    h.latest? p = some b ↔ b ∈ h.index ∧ b ≤ p ∧ ∀ x ∈ h.index, x ≤ p → x ≤ b := by
  obtain ⟨hs, hb⟩ := bisect_whole (p := p) ha
  unfold latest?
  generalize bisect h.index p 0 h.index.size = n at hs hb
  cases n with
  | zero =>
    simp only [reduceCtorEq, false_iff]
    rintro ⟨hm, hbp, -⟩
    obtain ⟨i, hi⟩ := Array.mem_iff_getElem?.1 hm
    exact Nat.not_lt_zero i ((hb i b hi).1 hbp)
  | succ n =>
    constructor
    · intro hn
      refine ⟨Array.mem_iff_getElem?.2 ⟨n, hn⟩, (hb n b hn).2 (Nat.lt_succ_self n), ?_⟩
      intro x hx hxp
      obtain ⟨i, hi⟩ := Array.mem_iff_getElem?.1 hx
      exact le_of_index ha hi hn (Nat.lt_succ_iff.1 ((hb i x hi).1 hxp))
    · rintro ⟨hm, hbp, hmax⟩
      obtain ⟨i, hi⟩ := Array.mem_iff_getElem?.1 hm
      have hlast : h.index[n]? = some h.index[n] := Array.getElem?_eq_getElem hs
      have hle : h.index[n] ≤ b := by
        refine hmax _ (Array.getElem_mem hs) ((hb n _ hlast).2 (Nat.lt_succ_self n))
      have hge : b ≤ h.index[n] :=
        le_of_index ha hi hlast (Nat.lt_succ_iff.1 ((hb i b hi).1 hbp))
      show h.index[n]? = some b
      rw [hlast, Fin.le_antisymm hle hge]

theorem latest?_eq_none_iff (ha : h.index.toList.Pairwise (· < ·)) :
    h.latest? p = none ↔ ∀ x ∈ h.index, p < x := by
  obtain ⟨hs, hb⟩ := bisect_whole (p := p) ha
  unfold latest?
  generalize bisect h.index p 0 h.index.size = n at hs hb
  cases n with
  | zero =>
    refine ⟨fun _ x hx => Fin.not_le.1 fun hxp => ?_, fun _ => rfl⟩
    obtain ⟨i, hi⟩ := Array.mem_iff_getElem?.1 hx
    exact Nat.not_lt_zero i ((hb i x hi).1 hxp)
  | succ n =>
    have hlast : h.index[n]? = some h.index[n] := Array.getElem?_eq_getElem hs
    refine ⟨fun hn => by simp [hlast] at hn, fun hx => ?_⟩
    have hle : h.index[n] ≤ p := (hb n _ hlast).2 (Nat.lt_succ_self n)
    exact absurd hle (Fin.not_le.2 (hx _ (Array.getElem_mem hs)))

theorem latest?_congr {h h' : History} (ha : h.index.toList.Pairwise (· < ·))
    (ha' : h'.index.toList.Pairwise (· < ·))
    (hi : ∀ x, (x ∈ h.index ∧ x ≤ p) ↔ (x ∈ h'.index ∧ x ≤ q)) : h.latest? p = h'.latest? q := by
  ext b
  rw [latest?_eq_some_iff ha, latest?_eq_some_iff ha', ← and_assoc, ← and_assoc, hi]
  simp only [and_congr_right_iff]
  intro _
  constructor
  · exact fun hx x hm hxq => hx x ((hi x).2 ⟨hm, hxq⟩).1 ((hi x).2 ⟨hm, hxq⟩).2
  · exact fun hx x hm hxp => hx x ((hi x).1 ⟨hm, hxp⟩).1 ((hi x).1 ⟨hm, hxp⟩).2

-- ---------------------------------------------------------------------------
-- Reading
-- ---------------------------------------------------------------------------

theorem statsAt_of_record (hr : h.records[p]? = some s) : h.statsAt p = s := by
  simp [statsAt, hr]

theorem statsAt_of_none (hr : h.records[p]? = none) :
    h.statsAt p = (((h.latest? p).bind (h.records[·]?)).map PeriodStats.carried).getD .empty := by
  simp [statsAt, hr]

/-- A period without a record has nothing but carried totals. -/
theorem statsAt_carried (hr : h.records[p]? = none) : h.statsAt p = (h.statsAt p).carried := by
  rw [statsAt_of_none hr]
  cases (h.latest? p).bind (h.records[·]?) <;> rfl

/-- A figure that is not carried is read from the record of its own period. -/
theorem figure_statsAt {α : Type} (f : PeriodStats → α) {zero : α}
    (hf : ∀ s, f (PeriodStats.carried s) = zero) :
    f (h.statsAt p) = (h.records[p]?).elim zero f := by
  cases hr : h.records[p]? with
  | none => rw [statsAt_carried hr, hf, Option.elim_none]
  | some s => rw [statsAt_of_record hr, Option.elim_some]

theorem statsAt_empty : History.empty.statsAt p = .empty := by
  simp [statsAt, History.empty, latest?, bisect]

theorem records_put : (h.put p s).records = h.records.insert p s := rfl

theorem figure_put {α : Type} (f : PeriodStats → α) {zero : α}
    (hf : ∀ s, f (PeriodStats.carried s) = zero) :
    f ((h.put p s).statsAt q) = if q = p then f s else f (h.statsAt q) := by
  rw [figure_statsAt f hf, figure_statsAt f hf]
  simp only [put, Std.ExtTreeMap.getElem?_insert, Std.compare_eq_iff_eq]
  by_cases hq : q = p
  · simp [hq]
  · simp [hq, Ne.symm hq]

theorem figure_put_same {α : Type} (f : PeriodStats → α) {zero : α}
    (hf : ∀ s, f (PeriodStats.carried s) = zero) (hs : f s = f (h.statsAt p)) (q : Period) :
    f ((h.put p s).statsAt q) = f (h.statsAt q) := by
  rw [figure_put f hf]
  split
  · rename_i hq
    rw [hs, hq]
  · rfl

theorem figure_put_succ (f : PeriodStats → Word) (hf : ∀ s, f (PeriodStats.carried s) = 0)
    (hs : (f s).val = (f (h.statsAt p)).val + 1) (q : Period) :
    (f ((h.put p s).statsAt q)).val = (f (h.statsAt q)).val + if q = p then 1 else 0 := by
  rw [figure_put f hf]
  split
  · rename_i hq
    rw [hs, hq]
  · rfl

-- ---------------------------------------------------------------------------
-- Writing
-- ---------------------------------------------------------------------------

theorem isLatest_iff (ha : h.index.toList.Pairwise (· < ·)) :
    h.isLatest p = true ↔ ∀ q ∈ h.index, q < p := by
  unfold isLatest
  rw [Array.back?_eq_getElem?]
  cases hl : h.index[h.index.size - 1]? with
  | none =>
    have := Array.getElem?_eq_none_iff.1 hl
    have he : h.index = #[] := Array.eq_empty_of_size_eq_zero (by omega)
    simp [he]
  | some last =>
    have hm := Array.mem_of_getElem? hl
    simp only [decide_eq_true_eq]
    refine ⟨fun hlast q hq => ?_, fun hq => hq last hm⟩
    obtain ⟨i, hi⟩ := Array.mem_iff_getElem?.1 hq
    obtain ⟨hlt, -⟩ := Array.getElem?_eq_some_iff.1 hi
    exact Fin.lt_of_le_of_lt (le_of_index ha hi hl (by omega)) hlast

theorem mem_index_put (x : Period) :
    x ∈ (h.put p s).index ↔ x ∈ h.index ∨ (h.isLatest p = true ∧ x = p) := by
  unfold put
  split <;> simp_all

theorem WellFormed.put (hw : h.WellFormed) (p : Period) (s : PeriodStats) :
    (h.put p s).WellFormed where
  ascending := by
    unfold History.put
    split
    · rename_i hl
      rw [Array.toList_push, List.pairwise_append]
      refine ⟨hw.ascending, List.pairwise_singleton .., fun x hx y hy => ?_⟩
      rw [List.mem_singleton.1 hy]
      exact (isLatest_iff hw.ascending).1 hl x (Array.mem_toList_iff.1 hx)
    · exact hw.ascending
  recorded x hx := by
    rcases (mem_index_put x).1 hx with hm | ⟨-, rfl⟩
    · simp [History.put, hw.recorded x hm]
    · simp [History.put]
  reached x hx := by
    have hx' : p = x ∨ x ∈ h.records := by simpa [History.put] using hx
    rcases hx' with rfl | hm
    · by_cases hl : h.isLatest p = true
      · exact ⟨p, (mem_index_put p).2 (.inr ⟨hl, rfl⟩), Fin.le_refl p⟩
      · rw [isLatest_iff hw.ascending] at hl
        obtain ⟨q, hq, hlt⟩ : ∃ q ∈ h.index, ¬ q < p := by simpa using hl
        exact ⟨q, (mem_index_put q).2 (.inl hq), Fin.not_lt.1 hlt⟩
    · obtain ⟨q, hq, hle⟩ := hw.reached x hm
      exact ⟨q, (mem_index_put q).2 (.inl hq), hle⟩

theorem WellFormed.empty : History.empty.WellFormed where
  ascending := List.Pairwise.nil
  recorded x hx := by simp [History.empty] at hx
  reached x hx := by simp [History.empty] at hx

theorem isLatest_put_self : (h.put p s).isLatest p = false := by
  cases hl : h.isLatest p with
  | true =>
    have index : (h.put p s).index = h.index.push p := by rw [put, if_pos hl]
    rw [isLatest, index, Array.back?_push]
    exact decide_eq_false (Fin.lt_irrefl p)
  | false =>
    have index : (h.put p s).index = h.index := by rw [put, if_neg (Bool.eq_false_iff.1 hl)]
    rw [isLatest, index]
    exact hl

/-- What was written first is lost. -/
theorem put_put {s' : PeriodStats} : (h.put p s).put p s' = h.put p s' := by
  have index : ((h.put p s).put p s').index = (h.put p s).index := by
    rw [put, isLatest_put_self]
    rfl
  have records : ((h.put p s).put p s').records = (h.put p s').records := insert_insert
  exact congrArg₂ History.mk records index

/-- A recorded period does not enter the index again. -/
theorem WellFormed.put_of_recorded (hw : h.WellFormed) (hp : p ∈ h.records) :
    h.put p s = { h with records := h.records.insert p s } := by
  obtain ⟨q, hq, hle⟩ := hw.reached p hp
  have later : ¬ h.isLatest p = true := fun hl =>
    Fin.not_lt.2 hle ((isLatest_iff hw.ascending).1 hl q hq)
  rw [History.put, if_neg later]

/-- The order of two writes does not matter if one of the periods was recorded before; of two new
ones the index would tell the order. -/
theorem WellFormed.put_comm {s' : PeriodStats} (hw : h.WellFormed) (hp : p ∈ h.records)
    (hq : p ≠ q) : (h.put p s).put q s' = (h.put q s').put p s := by
  rw [hw.put_of_recorded hp, (hw.put q s').put_of_recorded (by simp [records_put, hp])]
  exact congrArg (History.mk · _) (insert_comm hq)

theorem getElem?_records_put (hq : q ≠ p) : (h.put p s).records[q]? = h.records[q]? := by
  simp [records_put, Std.ExtTreeMap.getElem?_insert, Ne.symm hq]

/-- Only the record of the written period changes in a sum over all records. -/
theorem tally_put_add (f : PeriodStats → Nat) (hf : ∀ s, f (PeriodStats.carried s) = 0) {d : Nat}
    (hs : f s = f (h.statsAt p) + d) : tally (h.put p s).records f = tally h.records f + d := by
  rw [figure_statsAt f hf] at hs
  have ht := tally_insert h.records p s f
  rw [records_put]
  omega

theorem tally_put_same (f : PeriodStats → Nat) (hf : ∀ s, f (PeriodStats.carried s) = 0)
    (hs : f s = f (h.statsAt p)) : tally (h.put p s).records f = tally h.records f := by
  rw [tally_put_add f hf (hs.trans (Nat.add_zero _).symm), Nat.add_zero]

theorem figure_le_tally (f : PeriodStats → Nat) (hf : ∀ s, f (PeriodStats.carried s) = 0) :
    f (h.statsAt p) ≤ tally h.records f := by
  rw [figure_statsAt f hf]
  cases hr : h.records[p]? with
  | none => exact Nat.zero_le _
  | some s => exact le_tally hr

theorem WellFormed.record_of_latest (hw : h.WellFormed) (hb : h.latest? p = some b) :
    ∃ s, h.records[b]? = some s :=
  ⟨_, getElem?_pos h.records b (hw.recorded b ((latest?_eq_some_iff hw.ascending).1 hb).1)⟩

/-- The record that an unwritten period takes its totals from is the nearest indexed one. -/
theorem WellFormed.statsAt_of_latest (hw : h.WellFormed) (hr : h.records[p]? = none)
    (hb : h.latest? p = some b) : h.statsAt p = (h.statsAt b).carried := by
  obtain ⟨sb, hsb⟩ := hw.record_of_latest hb
  rw [statsAt_of_none hr, hb, statsAt_of_record hsb]
  simp [hsb]

theorem statsAt_of_latest_none (hr : h.records[p]? = none) (hb : h.latest? p = none) :
    h.statsAt p = .empty := by
  simp [statsAt_of_none hr, hb]

theorem WellFormed.latest?_put (hw : h.WellFormed) (hq : h.isLatest p = true → q < p) :
    (h.put p s).latest? q = h.latest? q := by
  refine latest?_congr (hw.put p s).ascending hw.ascending fun x => ?_
  rw [mem_index_put]
  constructor
  · rintro ⟨hx | ⟨hl, rfl⟩, hle⟩
    · exact ⟨hx, hle⟩
    · exact absurd hle (Fin.not_le.2 (hq hl))
  · exact fun ⟨hx, hle⟩ => ⟨.inl hx, hle⟩

/-- At or past the end of the index, a record governs all later periods. -/
theorem WellFormed.latest?_put_of_le (hw : h.WellFormed) (hi : ∀ x ∈ h.index, x ≤ p) (hq : p ≤ q) :
    (h.put p s).latest? q = some p := by
  refine (latest?_eq_some_iff (hw.put p s).ascending).2 ⟨?_, hq, fun x hx _ => ?_⟩
  · obtain ⟨y, hy, hle⟩ := (hw.put p s).reached p (by simp [records_put])
    rcases (mem_index_put y).1 hy with hm | ⟨-, rfl⟩
    · exact Fin.le_antisymm hle (hi y hm) ▸ hy
    · exact hy
  · rcases (mem_index_put x).1 hx with hm | ⟨-, rfl⟩
    · exact hi x hm
    · exact Fin.le_refl _

/-- An answer changes only with the record of its own period or with the one it is carried from. -/
theorem WellFormed.carried_put_of_latest (hw : h.WellFormed) (hqp : q ≠ p)
    (hl : (h.put p s).latest? q = h.latest? q)
    (hs : h.latest? q = some p → s.carried = (h.statsAt p).carried) :
    ((h.put p s).statsAt q).carried = (h.statsAt q).carried := by
  cases hr : h.records[q]? with
  | some sq =>
    rw [statsAt_of_record ((getElem?_records_put hqp).trans hr), statsAt_of_record hr]
  | none =>
    have hr' : (h.put p s).records[q]? = none := (getElem?_records_put hqp).trans hr
    cases hb : h.latest? q with
    | none => rw [statsAt_of_latest_none hr' (hl.trans hb), statsAt_of_latest_none hr hb]
    | some b =>
      rw [(hw.put p s).statsAt_of_latest hr' (hl.trans hb), hw.statsAt_of_latest hr hb]
      by_cases hbp : b = p
      · rw [hbp, statsAt_put_self, hs (hbp ▸ hb)]
      · obtain ⟨sb, hsb⟩ := hw.record_of_latest hb
        rw [statsAt_of_record ((getElem?_records_put hbp).trans hsb), statsAt_of_record hsb]

/-- A record with the totals that its period had anyway changes the totals of no period. -/
theorem WellFormed.carried_put (hw : h.WellFormed) (hs : s.carried = (h.statsAt p).carried)
    (q : Period) : ((h.put p s).statsAt q).carried = (h.statsAt q).carried := by
  by_cases hqp : q = p
  · rw [hqp, statsAt_put_self, hs]
  by_cases hlp : h.isLatest p = true ∧ p ≤ q
  · cases hr : h.records[q]? with
    | some sq =>
      rw [statsAt_of_record ((getElem?_records_put hqp).trans hr), statsAt_of_record hr]
    | none =>
      -- The new record ends the index, where the old answer was that of `p` itself.
      have hi := (isLatest_iff hw.ascending).1 hlp.1
      have hl : h.latest? q = h.latest? p := latest?_congr hw.ascending hw.ascending fun x =>
        and_congr_right fun hx => ⟨fun _ => Fin.le_of_lt (hi x hx),
          fun hxp => Fin.le_trans hxp hlp.2⟩
      have hp : h.records[p]? = none := by
        refine Std.ExtTreeMap.getElem?_eq_none fun hm => ?_
        obtain ⟨y, hy, hle⟩ := hw.reached p hm
        exact absurd (hi y hy) (Fin.not_lt.2 hle)
      have hl' := hw.latest?_put_of_le (s := s) (fun x hx => Fin.le_of_lt (hi x hx)) hlp.2
      rw [(hw.put p s).statsAt_of_latest ((getElem?_records_put hqp).trans hr) hl',
        statsAt_put_self, hs, statsAt_of_none hr, hl, ← statsAt_of_none hp]
      rfl
  · exact hw.carried_put_of_latest hqp
      (hw.latest?_put fun hl => Fin.not_le.1 fun hpq => hlp ⟨hl, hpq⟩) fun _ => hs

/-- A record with the totals that its period had anyway changes the answer for no other period. -/
theorem WellFormed.statsAt_put (hw : h.WellFormed) (hs : s.carried = (h.statsAt p).carried)
    (hq : q ≠ p) : (h.put p s).statsAt q = h.statsAt q := by
  have same := getElem?_records_put (h := h) (s := s) hq
  cases hr : h.records[q]? with
  | some sq => rw [statsAt_of_record (same.trans hr), statsAt_of_record hr]
  | none => rw [statsAt_carried (same.trans hr), hw.carried_put hs, ← statsAt_carried hr]

/-- A record at or past the end of the index gives its totals to all periods from it on and changes
no answer before it. -/
theorem WellFormed.carried_put_latest (hw : h.WellFormed) (hi : ∀ x ∈ h.index, x ≤ p)
    (q : Period) :
    ((h.put p s).statsAt q).carried = if p ≤ q then s.carried else (h.statsAt q).carried := by
  split
  · rename_i hpq
    by_cases hqp : q = p
    · rw [hqp, statsAt_put_self]
    have hr : h.records[q]? = none := by
      refine Std.ExtTreeMap.getElem?_eq_none fun hm => ?_
      obtain ⟨y, hy, hle⟩ := hw.reached q hm
      exact hqp (Fin.le_antisymm (Fin.le_trans hle (hi y hy)) hpq)
    rw [(hw.put p s).statsAt_of_latest ((getElem?_records_put hqp).trans hr)
      (hw.latest?_put_of_le hi hpq), statsAt_put_self]
    rfl
  · rename_i hpq
    have hlt : q < p := Fin.not_le.1 hpq
    refine hw.carried_put_of_latest (Fin.ne_of_lt hlt) (hw.latest?_put fun _ => hlt) fun hb => ?_
    exact absurd ((latest?_eq_some_iff hw.ascending).1 hb).2.1 hpq

end History

end StorageIncentives
