import StorageIncentives.Proofs.History
import StorageIncentives.Proofs.Returns

/-!
# The search in words

The positions of the index are words of 32 bits, and the search for the latest period computes with
them. Told in such words it traps where a step leaves their range, and it notes every position that
it looks at. Over an index that the words can count it never traps, looks only at positions that the
index has, at most 33 times, and finds what `latest?` finds. Over an ascending index this is the
greatest period up to the one in question, the same that a look at every period would find.
-/

namespace StorageIncentives

/-- A place in the index of the periods, or the number of them. -/
abbrev Position := Quantity 32

namespace History

/-- The positions that a search has still to decide, from `lo` up to `hi` without it. -/
structure Span where
  lo : Position
  hi : Position

/-- What a search looks at, in this order, and what it finds. -/
structure Search where
  positions : List Position
  found : Option Period
  deriving DecidableEq

variable {h : History} {s s' : Span} {index : Array Period} {p b : Period} {mid : Position}
  {periods : List Period} {k : Nat}

-- ---------------------------------------------------------------------------
-- One turn
-- ---------------------------------------------------------------------------

namespace Span

def width (s : Span) : Nat := s.hi.val - s.lo.val

def middle (s : Span) : Except Trap Position := do
  let width ← s.hi.subOrTrap s.lo
  let half ← width.divOrTrap 2
  s.lo.addOrTrap half

/-- What a look at a position leaves to decide. -/
def rest (s : Span) (index : Array Period) (p : Period) (mid : Position) : Except Trap Span :=
  match index[mid.val]? with
  | some q => if q ≤ p then mid.succOrTrap.map (⟨·, s.hi⟩) else .ok ⟨s.lo, mid⟩
  | none => .ok ⟨s.lo, mid⟩

/-- Looks at the middle. -/
def turn (s : Span) (index : Array Period) (p : Period) : Except Trap (Position × Span) := do
  let mid ← s.middle
  return (mid, ← s.rest index p mid)

structure Within (s : Span) (index : Array Period) : Prop where
  ordered : s.lo.val ≤ s.hi.val
  bounded : s.hi.val ≤ index.size

theorem middle_eq_ok_iff : s.middle = .ok mid ↔
    s.lo.val ≤ s.hi.val ∧ mid.val = s.lo.val + (s.hi.val - s.lo.val) / 2 := by
  have two : (2 : Position).val = 2 := rfl
  simp only [middle, Procedure.bind_ok, Quantity.subOrTrap_eq_ok_iff,
    Quantity.divOrTrap_eq_ok_iff, Quantity.addOrTrap_eq_ok_iff, two]
  constructor
  · rintro ⟨width, hwidth, half, ⟨-, hhalf⟩, hmid⟩
    omega
  · rintro ⟨hle, hmid⟩
    have hlt := s.hi.isLt
    refine ⟨⟨s.hi.val - s.lo.val, by omega⟩, Nat.sub_add_cancel hle,
      ⟨(s.hi.val - s.lo.val) / 2, by omega⟩, ⟨by decide, rfl⟩, hmid⟩

theorem exists_middle (undecided : s.lo.val < s.hi.val) : ∃ mid, s.middle = .ok mid ∧
    mid.val = s.lo.val + (s.hi.val - s.lo.val) / 2 ∧ mid.val < s.hi.val := by
  have hlt := s.hi.isLt
  refine ⟨⟨s.lo.val + (s.hi.val - s.lo.val) / 2, by omega⟩, ?_, rfl, ?_⟩
  · exact middle_eq_ok_iff.2 ⟨Nat.le_of_lt undecided, rfl⟩
  · show s.lo.val + (s.hi.val - s.lo.val) / 2 < s.hi.val
    omega

theorem turn_eq_ok_iff :
    s.turn index p = .ok (mid, s') ↔ s.middle = .ok mid ∧ s.rest index p mid = .ok s' := by
  simp [turn, Procedure.bind_ok, pure, Except.pure]

theorem rest_cases (h : s.rest index p mid = .ok s') :
    (s'.lo.val = mid.val + 1 ∧ s'.hi = s.hi) ∨ s' = ⟨s.lo, mid⟩ := by
  unfold rest at h
  split at h
  · split at h
    · obtain ⟨next, hnext, rfl⟩ := Procedure.map_ok.1 h
      exact .inl ⟨Quantity.succOrTrap_eq_ok_iff.1 hnext, rfl⟩
    · exact .inr (Except.ok.inj h).symm
  · exact .inr (Except.ok.inj h).symm

/-- A turn leaves at most half of what there was to decide. -/
theorem width_le_of_turn (undecided : s.lo.val < s.hi.val)
    (h : s.turn index p = .ok (mid, s')) : s'.width ≤ s.width / 2 := by
  obtain ⟨middle, rest⟩ := turn_eq_ok_iff.1 h
  have place := (middle_eq_ok_iff.1 middle).2
  unfold width
  rcases rest_cases rest with ⟨hlo, hhi⟩ | rfl
  · rw [hlo, hhi]
    omega
  · show mid.val - s.lo.val ≤ _
    omega

/-- While something is to decide, a turn does not trap. It looks at a position that the index has,
stays within the index, and leaves the result of the bisection as it was. -/
theorem exists_turn (hw : s.Within index) (undecided : s.lo.val < s.hi.val) :
    ∃ mid s', s.turn index p = .ok (mid, s') ∧ mid.val < index.size ∧ s'.Within index ∧
      bisect index p s.lo.val s.hi.val = bisect index p s'.lo.val s'.hi.val := by
  obtain ⟨mid, middle, place, before⟩ := exists_middle undecided
  have inside : mid.val < index.size := Nat.lt_of_lt_of_le before hw.bounded
  have look : index[mid.val]? = some index[mid.val] := Array.getElem?_eq_getElem inside
  rw [bisect, if_pos undecided]
  simp only [← place, look]
  by_cases hle : index[mid.val] ≤ p
  · obtain ⟨next, succ⟩ := Quantity.exists_succOrTrap (Nat.lt_of_le_of_lt before s.hi.isLt)
    have hnext := Quantity.succOrTrap_eq_ok_iff.1 succ
    have rest : s.rest index p mid = .ok ⟨next, s.hi⟩ := by
      simp only [Span.rest, look, if_pos hle, succ]
      rfl
    refine ⟨mid, _, turn_eq_ok_iff.2 ⟨middle, rest⟩, inside, ⟨?_, hw.bounded⟩, ?_⟩
    · exact hnext ▸ before
    · rw [if_pos hle, ← hnext]
  · have rest : s.rest index p mid = .ok ⟨s.lo, mid⟩ := by
      simp only [Span.rest, look, if_neg hle]
    refine ⟨mid, _, turn_eq_ok_iff.2 ⟨middle, rest⟩, inside, ⟨?_, Nat.le_of_lt inside⟩, ?_⟩
    · exact place ▸ Nat.le_add_right ..
    · rw [if_neg hle]

end Span

-- ---------------------------------------------------------------------------
-- All turns
-- ---------------------------------------------------------------------------

/-- Turns until nothing is left to decide: the positions looked at, and how many of the periods are
up to `p`. -/
def narrow (index : Array Period) (p : Period) (s : Span) :
    Except Trap (List Position × Position) :=
  if s.lo.val < s.hi.val then
    match _ : s.turn index p with
    | .error trap => .error trap
    | .ok (mid, s') => (narrow index p s').map fun (looked, found) => (mid :: looked, found)
  else .ok ([], s.lo)
termination_by s.width
decreasing_by
  have halved := Span.width_le_of_turn ‹s.lo.val < s.hi.val› ‹s.turn index p = _›
  unfold Span.width at *
  omega

/-- `latest?` in words. -/
def search (h : History) (size : Position) (p : Period) : Except Trap Search := do
  let (looked, found) ← narrow h.index p ⟨0, size⟩
  if found = 0 then return ⟨looked, none⟩
  let last ← found.subOrTrap 1
  return ⟨looked ++ [last], h.index[last.val]?⟩

theorem narrow_of_decided (index : Array Period) (p : Period) (decided : s.hi.val ≤ s.lo.val) :
    narrow index p s = .ok ([], s.lo) ∧ bisect index p s.lo.val s.hi.val = s.lo.val := by
  rw [narrow, bisect, if_neg (Nat.not_lt.2 decided), if_neg (Nat.not_lt.2 decided)]
  exact ⟨rfl, rfl⟩

theorem narrow_of_turn (undecided : s.lo.val < s.hi.val)
    (turn : s.turn index p = .ok (mid, s')) :
    narrow index p s = (narrow index p s').map fun (looked, found) => (mid :: looked, found) := by
  rw [narrow, if_pos undecided]
  split
  · rename_i trapped
    rw [turn] at trapped
    cases trapped
  · rename_i turned
    rw [turn] at turned
    cases turned
    rfl

/-- Less than `2 ^ k` positions are decided in `k` turns, none of which traps. -/
theorem exists_narrow (hw : s.Within index) (hk : s.width < 2 ^ k) :
    ∃ looked found, narrow index p s = .ok (looked, found) ∧
      found.val = bisect index p s.lo.val s.hi.val ∧
      (∀ i ∈ looked, i.val < index.size) ∧ looked.length ≤ k := by
  -- The induction is on the turns: each at least halves what is to decide.
  induction k generalizing s with
  | zero =>
    have decided : s.hi.val ≤ s.lo.val := Nat.sub_eq_zero_iff_le.1 (Nat.lt_one_iff.1 hk)
    obtain ⟨run, result⟩ := narrow_of_decided index p decided
    exact ⟨[], s.lo, run, result.symm, by simp, Nat.le_refl _⟩
  | succ k ih =>
    by_cases undecided : s.lo.val < s.hi.val
    · obtain ⟨mid, s', turn, inside, within, same⟩ := Span.exists_turn (p := p) hw undecided
      have halved := Span.width_le_of_turn undecided turn
      have hk' : s'.width < 2 ^ k := by
        rw [Nat.pow_succ] at hk
        omega
      obtain ⟨looked, found, run, result, all, length⟩ := ih within hk'
      refine ⟨mid :: looked, found, ?_, result.trans same.symm, ?_, Nat.succ_le_succ length⟩
      · rw [narrow_of_turn undecided turn, run]
        rfl
      · simpa using ⟨inside, all⟩
    · obtain ⟨run, result⟩ := narrow_of_decided index p (Nat.not_lt.1 undecided)
      exact ⟨[], s.lo, run, result.symm, by simp, Nat.zero_le _⟩

theorem bisect_le {lo hi : Nat} (h : lo ≤ hi) : bisect index p lo hi ≤ hi := by
  fun_induction bisect index p lo hi with
  | case1 lo hi hlt mid x hx hxp ih => exact ih (by omega)
  | case2 lo hi hlt mid x hx hxp ih => exact Nat.le_trans (ih (by omega)) (by omega)
  | case3 lo hi hlt mid hx ih => exact Nat.le_trans (ih (by omega)) (by omega)
  | case4 lo hi hlt => exact h

/-- Words that can count the index suffice to search it. -/
theorem exists_search (h : History) (p : Period) (counted : h.index.size < 2 ^ 32) :
    ∃ positions, h.search ⟨h.index.size, counted⟩ p = .ok ⟨positions, h.latest? p⟩ ∧
      (∀ i ∈ positions, i.val < h.index.size) ∧ positions.length ≤ 33 := by
  obtain ⟨looked, found, run, result, all, length⟩ := exists_narrow (p := p) (k := 32)
    (s := ⟨0, ⟨h.index.size, counted⟩⟩) ⟨Nat.zero_le _, Nat.le_refl _⟩ counted
  have reached : found.val ≤ h.index.size := result ▸ bisect_le (Nat.zero_le _)
  change found.val = bisect h.index p 0 h.index.size at result
  rw [search, run, latest?, ← result]
  by_cases zero : found = 0
  · subst zero
    exact ⟨looked, rfl, all, Nat.le_succ_of_le length⟩
  · -- The last look is at the position before the number of periods that are up to `p`.
    have one : 1 ≤ found := Quantity.pos_iff_ne_zero.2 zero
    obtain ⟨last, before⟩ := Quantity.exists_subOrTrap one
    have step : last.val + 1 = found.val := Quantity.subOrTrap_eq_ok_iff.1 before
    refine ⟨looked ++ [last], ?_, ?_, ?_⟩
    · show (if found = 0 then _ else (found.subOrTrap 1 >>= fun last => _)) = _
      rw [if_neg zero, before, ← step]
      rfl
    · intro i hi
      rcases List.mem_append.1 hi with hi | hi
      · exact all i hi
      · rw [List.mem_singleton.1 hi]
        omega
    · rw [List.length_append]
      exact Nat.succ_le_succ length

-- ---------------------------------------------------------------------------
-- A look at every period
-- ---------------------------------------------------------------------------

/-- The greatest period up to `p`, by a look at every one. -/
def scan (p : Period) : List Period → Option Period
  | [] => none
  | q :: rest =>
    let best := scan p rest
    if q ≤ p ∧ best.all (· < q) then some q else best

theorem scan_eq_none_iff : scan p periods = none ↔ ∀ x ∈ periods, p < x := by
  induction periods with
  | nil => simp [scan]
  | cons q rest ih =>
    rw [List.forall_mem_cons, ← ih, scan]
    by_cases hq : q ≤ p
    · have first : ¬ p < q := Fin.not_lt.2 hq
      cases scan p rest with
      | none => simp [hq]
      | some best => by_cases hb : best < q <;> simp [hq, hb]
    · simp [hq, Fin.not_le.1 hq]

theorem greatest_of_scan (h : scan p periods = some b) :
    b ∈ periods ∧ b ≤ p ∧ ∀ x ∈ periods, x ≤ p → x ≤ b := by
  induction periods generalizing b with
  | nil => cases h
  | cons q rest ih =>
    rw [scan] at h
    rw [List.forall_mem_cons, List.mem_cons]
    -- What the rest has to offer decides whether `q` is taken.
    cases hb : scan p rest with
    | none =>
      have later := scan_eq_none_iff.1 hb
      simp only [hb, Option.all_none, and_true] at h
      split at h
      · rename_i hq
        obtain rfl := Option.some.inj h
        refine ⟨.inl rfl, hq, fun _ => Fin.le_refl q, fun x hx hxp => ?_⟩
        exact absurd hxp (Fin.not_le.2 (later x hx))
      · cases h
    | some best =>
      obtain ⟨member, before, greatest⟩ := ih hb
      simp only [hb, Option.all_some, decide_eq_true_eq] at h
      split at h
      · rename_i hq
        obtain rfl := Option.some.inj h
        refine ⟨.inl rfl, hq.1, fun _ => Fin.le_refl q, fun x hx hxp => ?_⟩
        exact Fin.le_trans (greatest x hx hxp) (Fin.le_of_lt hq.2)
      · rename_i hq
        obtain rfl := Option.some.inj h
        exact ⟨.inr member, before, fun hqp => Fin.not_lt.1 fun hlt => hq ⟨hqp, hlt⟩, greatest⟩

/-- Where the index ascends, a search of a part of it is as good as a look at all of it. -/
theorem latest?_eq_scan (ha : h.index.toList.Pairwise (· < ·)) :
    h.latest? p = scan p h.index.toList := by
  cases hs : scan p h.index.toList with
  | none =>
    refine (latest?_eq_none_iff ha).2 fun x hx => ?_
    exact scan_eq_none_iff.1 hs x (Array.mem_toList_iff.2 hx)
  | some b =>
    obtain ⟨member, before, greatest⟩ := greatest_of_scan hs
    refine (latest?_eq_some_iff ha).2 ⟨Array.mem_toList_iff.1 member, before, fun x hx => ?_⟩
    exact greatest x (Array.mem_toList_iff.2 hx)

/-- What a search for a period does and finds. -/
structure FindsLatest (h : History) (size : Position) (p : Period) : Prop where
  runs : ∃ positions, h.search size p = .ok ⟨positions, h.latest? p⟩ ∧
    (∀ i ∈ positions, i.val < h.index.size) ∧ positions.length ≤ 33
  greatest : ∀ b, h.latest? p = some b ↔ b ∈ h.index ∧ b ≤ p ∧ ∀ x ∈ h.index, x ≤ p → x ≤ b
  nothing : h.latest? p = none ↔ h.index = #[] ∨ ∀ x ∈ h.index, p < x
  scanned : h.latest? p = scan p h.index.toList

theorem search_finds_latest (h : History) (p : Period)
    (ascending : h.index.toList.Pairwise (· < ·)) (counted : h.index.size < 2 ^ 32) :
    h.FindsLatest ⟨h.index.size, counted⟩ p where
  runs := h.exists_search p counted
  greatest _ := latest?_eq_some_iff ascending
  nothing := by
    rw [latest?_eq_none_iff ascending]
    refine ⟨.inr, ?_⟩
    rintro (empty | later)
    · simp [empty]
    · exact later
  scanned := latest?_eq_scan ascending

/-- Period 5 lies between the second entry and the third one. -/
theorem search_finds_latest_between :
    search ⟨∅, #[0, 3, 7]⟩ 3 5 = .ok ⟨[1, 2, 1], some 3⟩ ∧
      [(0 : Period), 3, 7].Pairwise (· < ·) ∧ #[(0 : Period), 3, 7].size < 2 ^ 32 ∧
      FindsLatest ⟨∅, #[0, 3, 7]⟩ 3 5 := by
  have ascending : [(0 : Period), 3, 7].Pairwise (· < ·) := by decide
  have counted : #[(0 : Period), 3, 7].size < 2 ^ 32 := by decide
  exact ⟨by decide +kernel, ascending, counted,
    search_finds_latest ⟨∅, #[0, 3, 7]⟩ 5 ascending counted⟩

end History

end StorageIncentives
