import Mathlib.Algebra.Ring.Nat
import Std.Data.ExtTreeMap

/-!
# Sums over the records of a map

`tally m f` adds up `f` over all records. One law says what an insertion does to it: the new record
counts, and the one that it replaces does not. Counting is the tally of a property.
-/

namespace StorageIncentives

open Std (ExtTreeMap TransOrd LawfulEqOrd)

variable {K V : Type} [Ord K] [TransOrd K] [LawfulEqOrd K]

def tally (m : ExtTreeMap K V) (f : V → Nat) : Nat := (m.toList.map fun e => f e.2).sum

/-- How many records have a property. -/
def count (m : ExtTreeMap K V) (p : V → Prop) [DecidablePred p] : Nat :=
  tally m fun v => if p v then 1 else 0

variable {m : ExtTreeMap K V} {k : K} {v old : V} {f g : V → Nat}

theorem nodup_toList (m : ExtTreeMap K V) : m.toList.Nodup :=
  m.distinct_keys_toList.imp fun h e => h (by rw [e]; exact Std.ReflOrd.compare_self)

theorem toList_perm_erase (h : m[k]? = some v) : m.toList.Perm ((k, v) :: (m.erase k).toList) := by
  refine (List.perm_ext_iff_of_nodup (nodup_toList m) ?_).2 ?_
  · refine List.nodup_cons.2 ⟨?_, nodup_toList _⟩
    simp
  · rintro ⟨a, b⟩
    simp only [ExtTreeMap.mem_toList_iff_getElem?_eq_some, List.mem_cons, Prod.mk.injEq,
      ExtTreeMap.getElem?_erase, Std.compare_eq_iff_eq]
    by_cases hk : k = a
    · subst hk
      simp [h, eq_comm]
    · simp [hk, Ne.symm hk]

omit [LawfulEqOrd K] in
theorem tally_empty (f : V → Nat) : tally (∅ : ExtTreeMap K V) f = 0 := by
  simp [tally, ExtTreeMap.toList_eq_nil_iff.2]

theorem tally_erase (h : m[k]? = some v) : tally m f = f v + tally (m.erase k) f := by
  have hp := (toList_perm_erase h).map fun e => f e.2
  simpa [tally] using hp.sum_nat

theorem erase_insert : (m.insert k v).erase k = m.erase k := by
  ext a
  by_cases h : k = a <;> simp [ExtTreeMap.getElem?_erase, ExtTreeMap.getElem?_insert, h]

theorem insert_insert {v' : V} : (m.insert k v).insert k v' = m.insert k v' := by
  ext a
  by_cases h : k = a <;> simp [ExtTreeMap.getElem?_insert, h]

theorem getElem?_insert_of_ne {a : K} (h : a ≠ k) : (m.insert k v)[a]? = m[a]? := by
  simp [ExtTreeMap.getElem?_insert, Ne.symm h]

theorem insert_comm {k' : K} {v' : V} (h : k ≠ k') :
    (m.insert k v).insert k' v' = (m.insert k' v').insert k v := by
  refine ExtTreeMap.ext_getElem? fun a => ?_
  by_cases hk : k = a
  · subst hk
    rw [getElem?_insert_of_ne h, ExtTreeMap.getElem?_insert_self, ExtTreeMap.getElem?_insert_self]
  · simp [ExtTreeMap.getElem?_insert, hk]

theorem getElem?_insert_cases {a : K} (h : (m.insert k v)[a]? = some old) :
    k = a ∧ v = old ∨ k ≠ a ∧ m[a]? = some old := by
  rw [ExtTreeMap.getElem?_insert] at h
  by_cases hk : k = a
  · subst hk
    exact .inl ⟨rfl, by simpa using h⟩
  · exact .inr ⟨hk, by simpa [hk] using h⟩

/-- What holds of all records still does if it holds of the new one. -/
theorem forall_getElem?_insert {P : K → V → Prop} (hm : ∀ (a : K) (b : V), m[a]? = some b → P a b)
    (hv : P k v) (a : K) (b : V) (h : (m.insert k v)[a]? = some b) : P a b := by
  rcases getElem?_insert_cases h with ⟨rfl, rfl⟩ | ⟨-, h⟩
  · exact hv
  · exact hm a b h

/-- A value read from each record stays if the new record has it from the old one. -/
theorem elim_insert_same {β : Type} {z : β} {f : V → β} (h : f v = (m[k]?).elim z f) (a : K) :
    ((m.insert k v)[a]?).elim z f = (m[a]?).elim z f := by
  rw [ExtTreeMap.getElem?_insert]
  by_cases hk : k = a
  · subst hk
    simpa using h
  · simp [hk]

theorem map_insert_same {β : Type} {f : V → β} (h : m[k]? = some old) (hf : f v = f old) (a : K) :
    ((m.insert k v)[a]?).map f = (m[a]?).map f := by
  rw [ExtTreeMap.getElem?_insert]
  by_cases hk : k = a
  · subst hk
    simp [h, hf]
  · simp [hk]

theorem erase_of_none (h : m[k]? = none) : m.erase k = m := by
  ext a
  by_cases hk : k = a
  · subst hk
    simp [h]
  · simp [ExtTreeMap.getElem?_erase, hk]

theorem tally_insert (m : ExtTreeMap K V) (k : K) (v : V) (f : V → Nat) :
    tally (m.insert k v) f + (m[k]?).elim 0 f = tally m f + f v := by
  have hi : tally (m.insert k v) f = f v + tally (m.erase k) f := by
    rw [tally_erase (k := k) (v := v) (by simp), erase_insert]
  cases h : m[k]? with
  | none =>
    rw [hi, erase_of_none h]
    simp only [Option.elim_none]
    omega
  | some old =>
    rw [hi, tally_erase h]
    simp only [Option.elim_some]
    omega

theorem tally_insert_old (h : m[k]? = some old) :
    tally (m.insert k v) f + f old = tally m f + f v := by
  simpa [h] using tally_insert m k v f

theorem tally_insert_new (h : m[k]? = none) : tally (m.insert k v) f = tally m f + f v := by
  simpa [h] using tally_insert m k v f

theorem tally_insert_same (h : m[k]? = some old) (hf : f v = f old) :
    tally (m.insert k v) f = tally m f := by
  have := tally_insert_old (v := v) (f := f) h
  omega

/-- A sum depends only on the summands. -/
theorem tally_congr {m' : ExtTreeMap K V} (h : ∀ k : K, (m'[k]?).map f = (m[k]?).map f) :
    tally m' f = tally m f := by
  have nodup (m : ExtTreeMap K V) : (m.toList.map fun e => (e.1, f e.2)).Nodup :=
    List.pairwise_map.2 <| m.distinct_keys_toList.imp fun hk he =>
      hk (by rw [(Prod.mk.inj he).1]; exact Std.ReflOrd.compare_self)
  have summands (m : ExtTreeMap K V) (k : K) (n : Nat) :
      (k, n) ∈ (m.toList.map fun e => (e.1, f e.2)) ↔ (m[k]?).map f = some n := by
    rw [List.mem_map, Option.map_eq_some_iff]
    constructor
    · rintro ⟨⟨k', v⟩, hm, he⟩
      obtain ⟨rfl, rfl⟩ := Prod.mk.inj he
      exact ⟨v, ExtTreeMap.mem_toList_iff_getElem?_eq_some.1 hm, rfl⟩
    · rintro ⟨v, hv, rfl⟩
      exact ⟨(k, v), ExtTreeMap.mem_toList_iff_getElem?_eq_some.2 hv, rfl⟩
  have hp := (List.perm_ext_iff_of_nodup (nodup m') (nodup m)).2 fun ⟨k, n⟩ => by
    rw [summands, summands, h k]
  simpa [tally, Function.comp_def] using (hp.map Prod.snd).sum_nat

theorem tally_mono (h : ∀ (k : K) (v : V), m[k]? = some v → f v ≤ g v) :
    tally m f ≤ tally m g := by
  have entries : ∀ e ∈ m.toList, f e.2 ≤ g e.2 := fun e he =>
    h e.1 e.2 (ExtTreeMap.mem_toList_iff_getElem?_eq_some.1 he)
  unfold tally
  generalize m.toList = list at entries
  induction list with
  | nil => exact Nat.le_refl _
  | cons e rest ih =>
    rw [List.forall_mem_cons] at entries
    exact Nat.add_le_add entries.1 (ih entries.2)

theorem le_tally (h : m[k]? = some v) : f v ≤ tally m f := by
  rw [tally_erase h]
  omega

theorem tally_eq_zero_iff : tally m f = 0 ↔ ∀ (k : K) (v : V), m[k]? = some v → f v = 0 := by
  constructor
  · intro h k v hk
    have := le_tally (f := f) hk
    omega
  · intro h
    have : ∀ x ∈ m.toList.map fun e => f e.2, x = 0 := by
      simp only [List.mem_map, forall_exists_index, and_imp]
      rintro _ ⟨a, b⟩ hm rfl
      exact h a b (ExtTreeMap.mem_toList_iff_getElem?_eq_some.1 hm)
    exact List.sum_eq_zero_iff_forall_eq_nat.2 this

-- ---------------------------------------------------------------------------
-- Counting
-- ---------------------------------------------------------------------------

variable {p : V → Prop} [DecidablePred p]

theorem count_insert (h : m[k]? = some old) :
    count (m.insert k v) p + (if p old then 1 else 0) = count m p + if p v then 1 else 0 :=
  tally_insert_old (f := fun v => if p v then 1 else 0) h

theorem count_insert_new (h : m[k]? = none) :
    count (m.insert k v) p = count m p + if p v then 1 else 0 :=
  tally_insert_new (f := fun v => if p v then 1 else 0) h

theorem count_insert_same (h : m[k]? = some old) (hp : p v ↔ p old) :
    count (m.insert k v) p = count m p :=
  tally_insert_same (f := fun v => if p v then 1 else 0) h (by simp only [hp])

theorem count_pos (h : m[k]? = some v) (hv : p v) : 0 < count m p := by
  have hle := le_tally (f := fun v => if p v then 1 else 0) h
  rw [if_pos hv] at hle
  exact hle

theorem count_eq_zero_iff : count m p = 0 ↔ ∀ (k : K) (v : V), m[k]? = some v → ¬ p v := by
  rw [count, tally_eq_zero_iff]
  simp

omit [LawfulEqOrd K] in
theorem tally_one (m : ExtTreeMap K V) : tally m (fun _ => 1) = m.size := by
  rw [tally, List.map_const', List.sum_replicate_nat, ExtTreeMap.length_toList, Nat.mul_one]

theorem count_le_size : count m p ≤ m.size := by
  rw [← tally_one m]
  refine tally_mono fun _ v _ => ?_
  split <;> decide

theorem count_lt_size (h : m[k]? = some v) (hv : ¬ p v) : count m p < m.size := by
  have hle : tally (m.erase k) (fun v => if p v then 1 else 0) ≤ tally (m.erase k) fun _ => 1 :=
    tally_mono fun _ v _ => by split <;> decide
  have hcount := tally_erase (f := fun v => if p v then 1 else 0) h
  have hsize := tally_erase (f := fun _ => 1) h
  rw [if_neg hv] at hcount
  rw [tally_one] at hsize
  show tally m _ < m.size
  omega

end StorageIncentives
