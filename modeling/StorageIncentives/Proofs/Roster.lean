import Mathlib.Logic.Basic
import StorageIncentives.Roster

/-!
# Positions and slots

In a well-formed roster the position of a member is the slot that holds it, and the other way
round. Adding at the end keeps this, and so does taking a member out wherever it stands: the last
member moves into the slot that falls free, or is itself the one that leaves.
-/

namespace StorageIncentives.Roster

open Std (ExtTreeMap)

variable {r r' : Roster} {a b : Account} {i j : Nat} {slots : List Account}

def WellFormed (r : Roster) : Prop :=
  ∀ (a : Account) (i : Nat), r.positions[a]? = some i ↔ r.slots[i]? = some a

theorem eq_push_of_insert? (h : r.insert? a = some r') : ¬ r.contains a ∧ r' = r.push a := by
  unfold insert? at h
  split at h
  · cases h
  · rename_i hc
    exact ⟨hc, (Option.some.inj h).symm⟩

namespace WellFormed

theorem empty : Roster.empty.WellFormed := by
  intro a i
  simp [Roster.empty]

/-- No member stands in two slots. -/
theorem eq_of_slots (h : r.WellFormed) (hi : r.slots[i]? = some a) (hj : r.slots[j]? = some a) :
    i = j := by
  have hp := (h a i).2 hi
  rw [(h a j).2 hj] at hp
  exact (Option.some.inj hp).symm

theorem nodup (h : r.WellFormed) : r.slots.Nodup := by
  refine List.pairwise_iff_getElem.2 fun i j hi hj hij heq => ?_
  have ha := List.getElem?_eq_getElem hi
  rw [heq] at ha
  exact Nat.ne_of_lt hij (h.eq_of_slots ha (List.getElem?_eq_getElem hj))

theorem mem_positions (h : r.WellFormed) (a : Account) : a ∈ r.positions ↔ a ∈ r.slots := by
  rw [← ExtTreeMap.isSome_getElem?_iff_mem, Option.isSome_iff_exists, List.mem_iff_getElem?]
  exact exists_congr (h a)

theorem push (h : r.WellFormed) (ha : a ∉ r.slots) : (r.push a).WellFormed := by
  intro b i
  have hpos : (r.push a).positions = r.positions.insert a r.slots.length := rfl
  have hslots : (r.push a).slots = r.slots ++ [a] := rfl
  rw [hpos, hslots, ExtTreeMap.getElem?_insert, List.getElem?_append]
  by_cases hab : a = b
  · subst hab
    have hold : r.slots[i]? ≠ some a := fun hs => ha (List.mem_of_getElem? hs)
    by_cases hi : i < r.slots.length
    · rw [if_pos hi]
      simp [hold, Nat.ne_of_gt hi]
    · have hone : [a][i - r.slots.length]? = some a ↔ i - r.slots.length = 0 := by
        simp [List.getElem?_singleton]
      rw [if_neg hi, hone, if_pos Std.compare_self, Option.some.injEq]
      omega
  · by_cases hi : i < r.slots.length
    · rw [if_pos hi]
      simp [hab, h b i]
    · have hp : r.slots[i]? = none := List.getElem?_eq_none (by omega)
      have hone : [a][i - r.slots.length]? ≠ some b := fun hs =>
        hab (List.mem_singleton.1 (List.mem_of_getElem? hs)).symm
      rw [if_neg hi]
      simp [hab, h b i, hp, hone]

theorem insert? (h : r.WellFormed) (hi : r.insert? a = some r') : r'.WellFormed := by
  obtain ⟨absent, rfl⟩ := eq_push_of_insert? hi
  refine h.push fun ha => absent ?_
  exact ExtTreeMap.contains_iff_mem.2 ((h.mem_positions a).2 ha)

end WellFormed

-- ---------------------------------------------------------------------------
-- Taking a member out
-- ---------------------------------------------------------------------------

/-- Slot `i` takes over the last member, and the last slot is gone. -/
theorem getElem?_swapErase (hi : i < slots.length) : (swapErase slots i)[j]? =
    if j + 1 < slots.length then slots[if i = j then slots.length - 1 else j]? else none := by
  obtain ⟨last, hl⟩ : ∃ last, slots.getLast? = some last :=
    ⟨_, List.getLast?_eq_some_getLast (List.ne_nil_of_length_pos (Nat.zero_lt_of_lt hi))⟩
  have hlast := hl
  rw [List.getLast?_eq_getElem?] at hlast
  simp only [swapErase, hl, List.getElem?_dropLast, List.length_set, List.getElem?_set]
  by_cases hj : j + 1 < slots.length
  · have hj' : j < slots.length - 1 := by omega
    by_cases hij : i = j
    · subst hij
      simp [hj, hj', hi, hlast]
    · simp [hj, hj', hij]
  · have hj' : ¬ j < slots.length - 1 := by omega
    simp [hj, hj']

theorem getElem?_swapErase_eq_some_iff (hi : i < slots.length) :
    (swapErase slots i)[j]? = some b ↔
      j + 1 < slots.length ∧ slots[if i = j then slots.length - 1 else j]? = some b := by
  rw [getElem?_swapErase hi]
  split
  · rename_i hj
    simp [hj]
  · rename_i hj
    simp [hj]

theorem slots_eraseAt : (r.eraseAt a i).slots = swapErase r.slots i := by
  simp only [eraseAt]
  split <;> rfl

theorem getElem?_positions_eraseAt : (r.eraseAt a i).positions[b]? =
    if (swapErase r.slots i)[i]? = some b then some i
    else if a = b then none else r.positions[b]? := by
  simp only [eraseAt]
  split
  · rename_i moved hm
    simp [hm, ExtTreeMap.getElem?_insert, ExtTreeMap.getElem?_erase]
  · rename_i hm
    simp [hm, ExtTreeMap.getElem?_erase]

namespace WellFormed

theorem eraseAt (h : r.WellFormed) (ha : r.slots[i]? = some a) : (r.eraseAt a i).WellFormed := by
  have hi : i < r.slots.length := (List.getElem?_eq_some_iff.1 ha).1
  intro b j
  rw [getElem?_positions_eraseAt, slots_eraseAt]
  split <;> rw [getElem?_swapErase_eq_some_iff hi]
  · -- `b` was the last member and stands in slot `i` now.
    rename_i moved
    obtain ⟨hl, hb⟩ := (getElem?_swapErase_eq_some_iff hi).1 moved
    rw [if_pos rfl] at hb
    constructor
    · intro hij
      obtain rfl := Option.some.inj hij
      exact ⟨hl, by rwa [if_pos rfl]⟩
    · rintro ⟨hj, hs⟩
      have := h.eq_of_slots hs hb
      split at this
      · rename_i hij
        rw [hij]
      · omega
  · rename_i stays
    rw [getElem?_swapErase_eq_some_iff hi, if_pos rfl] at stays
    constructor
    · intro hp
      split at hp
      · cases hp
      rename_i hab
      rw [h b j] at hp
      have hj := (List.getElem?_eq_some_iff.1 hp).1
      have hij : i ≠ j := by
        rintro rfl
        exact hab (Option.some.inj (ha.symm.trans hp))
      refine ⟨Nat.lt_of_not_le fun hlast => stays ⟨by omega, ?_⟩, by rwa [if_neg hij]⟩
      rwa [show r.slots.length - 1 = j by omega]
    · rintro ⟨hj, hs⟩
      have hij : i ≠ j := by
        rintro rfl
        exact stays ⟨hj, by rwa [if_pos rfl] at hs⟩
      rw [if_neg hij] at hs
      have hab : a ≠ b := by
        rintro rfl
        exact hij (h.eq_of_slots ha hs)
      rw [if_neg hab, h b j, hs]

/-- What is taken out is gone, and all other members stay. -/
theorem mem_eraseAt (h : r.WellFormed) (ha : r.slots[i]? = some a) :
    b ∈ (r.eraseAt a i).slots ↔ b ≠ a ∧ b ∈ r.slots := by
  have hi : i < r.slots.length := (List.getElem?_eq_some_iff.1 ha).1
  simp only [slots_eraseAt, List.mem_iff_getElem?, getElem?_swapErase_eq_some_iff hi]
  constructor
  · rintro ⟨j, hj, hs⟩
    refine ⟨?_, _, hs⟩
    rintro rfl
    have := h.eq_of_slots ha hs
    split at this <;> omega
  · rintro ⟨hba, k, hk⟩
    have hlt := (List.getElem?_eq_some_iff.1 hk).1
    have hik : i ≠ k := by
      rintro rfl
      exact hba (Option.some.inj (hk.symm.trans ha))
    by_cases hlast : k + 1 = r.slots.length
    · exact ⟨i, by omega, by rwa [if_pos rfl, show r.slots.length - 1 = k by omega]⟩
    · exact ⟨k, by omega, by rwa [if_neg hik]⟩

theorem erase? (h : r.WellFormed) (he : r.erase? a = some r') :
    r'.WellFormed ∧ ∀ b, b ∈ r'.slots ↔ b ≠ a ∧ b ∈ r.slots := by
  obtain ⟨i, hi, rfl⟩ := Option.map_eq_some_iff.1 he
  have ha := (h a i).1 hi
  exact ⟨h.eraseAt ha, fun b => h.mem_eraseAt ha⟩

theorem exists_erase? (h : r.WellFormed) (ha : a ∈ r.slots) : ∃ r', r.erase? a = some r' := by
  obtain ⟨i, hi⟩ := List.mem_iff_getElem?.1 ha
  exact ⟨_, Option.map_eq_some_iff.2 ⟨i, (h a i).2 hi, rfl⟩⟩

end WellFormed

end StorageIncentives.Roster
