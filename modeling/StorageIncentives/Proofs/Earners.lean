import Mathlib.Algebra.BigOperators.Ring.List
import Mathlib.Algebra.Order.BigOperators.Group.List
import Mathlib.Algebra.Order.Group.Nat
import StorageIncentives.Proofs.Membership

/-!
# Who is paid, and how much

A payout is made of the candidates that earn a reward by the counters of their records, in order and
once each, at the price of their capacities. It is refused for a candidate that was not challenged,
or because the prices add up to more than money can express; and they add up to no more than the
price of all allocated capacity.
-/

namespace StorageIncentives

open Std (ExtTreeMap TransOrd LawfulEqOrd)

namespace Registry

variable (r : Registry) (p : Period) (a : Account)

/-- Unless its node is inactive or unknown, `a` was last challenged in `p`. -/
def covers : Bool := (r.nodes[a]?).all fun n => !n.active || n.challengedIn p

/-- The node of `a` is active, and its counters satisfy the policy for `p`. -/
def earns : Bool := (r.nodes[a]?).any fun n => n.active && r.config.eligibility.earned n p

def capacityOf : Word := (r.nodes[a]?).elim 0 (·.capacity)

/-- The price of the capacity of `a` at the reward rate. -/
def dueTo : Nat := (r.capacityOf a).val * r.config.rewardPerUnit.val

/-- What `accounts` are due together. -/
def dueSum (accounts : List Account) : Nat := (accounts.map r.dueTo).sum

end Registry

variable {r : Registry} {p : Period} {a : Account} {n : Node} {l : List Account}
  {due due' : Payout} {cause : Rejection}

namespace Registry

theorem dueSum_cons : r.dueSum (a :: l) = r.dueTo a + r.dueSum l := List.sum_cons

theorem dueTo_le_dueSum (h : a ∈ l) : r.dueTo a ≤ r.dueSum l :=
  List.le_sum_of_mem (List.mem_map_of_mem h)

theorem covers_iff :
    r.covers p a = true ↔ ∀ n, r.nodes[a]? = some n → n.active = true →
      n.lastChallenged = some p := by
  simp only [covers, Option.all_eq_true, Bool.or_eq_true, Bool.not_eq_true', Node.challengedIn_iff]
  exact forall₂_congr fun n _ => by cases n.active <;> simp

theorem earns_iff : r.earns p a = true ↔ ∃ n, r.nodes[a]? = some n ∧ n.active = true ∧
    r.config.eligibility.earned n p = true := by
  simp only [earns, Option.any_eq_true, Bool.and_eq_true]

end Registry

-- ---------------------------------------------------------------------------
-- One candidate
-- ---------------------------------------------------------------------------

namespace Payout

theorem consider_eq : consider r p due a =
    if r.covers p a then
      if r.earns p a then due.add a (r.capacityOf a) r.config.rewardPerUnit else .ok due
    else .error (.incompleteCoverage a p) := by
  unfold consider Registry.covers Registry.earns Registry.capacityOf
  cases r.nodes[a]? with
  | none => simp
  | some n =>
    cases active : n.active <;> cases covered : n.challengedIn p <;>
      cases earned : r.config.eligibility.earned n p <;> simp [active, covered, earned]

/-- A credit is refused where the price or the new total is past the range of money. -/
theorem add_error {capacity : Word} {rate : Amount} (h : due.add a capacity rate = .error cause) :
    2 ^ 128 ≤ due.total.val + capacity.val * rate.val := by
  unfold add at h
  split at h
  · rename_i unpriced
    exact Nat.le_add_left_of_le (Quantity.ofNat?_eq_none_iff.1 unpriced)
  · rename_i reward priced
    split at h
    · rename_i overflow
      rw [← Quantity.ofNat?_eq_some_iff.1 priced]
      exact Quantity.add?_eq_none_iff.1 overflow
    · cases h

-- ---------------------------------------------------------------------------
-- All candidates
-- ---------------------------------------------------------------------------

/-- The credits as accounts and numbers. -/
def lines (due : Payout) : List (Account × Nat) := due.credits.map fun e => (e.1, e.2.val)

theorem foldlM_ok (h : l.foldlM (consider r p) due = .ok due') :
    (∀ a ∈ l, r.covers p a = true) ∧
      due'.lines = due.lines ++ (l.filter (r.earns p)).map (fun a => (a, r.dueTo a)) ∧
      due'.total.val = due.total.val + r.dueSum (l.filter (r.earns p)) := by
  induction l generalizing due with
  | nil =>
    obtain rfl := Except.ok.inj h
    simp [Registry.dueSum]
  | cons a l ih =>
    rw [List.foldlM_cons, Procedure.bind_ok] at h
    obtain ⟨next, considered, h⟩ := h
    obtain ⟨covered, lines, total⟩ := ih h
    rw [consider_eq] at considered
    split at considered
    · rename_i coveredFirst
      refine ⟨List.forall_mem_cons.2 ⟨coveredFirst, covered⟩, ?_⟩
      split at considered
      · rename_i earned
        obtain ⟨reward, price, credits, sum⟩ := add_ok considered
        rw [List.filter_cons_of_pos earned, Registry.dueSum_cons, total, sum, lines]
        refine ⟨?_, by rw [Nat.add_assoc, price, Registry.dueTo]⟩
        simp [Payout.lines, credits, price, Registry.dueTo]
      · rename_i unearned
        rw [List.filter_cons_of_neg unearned]
        obtain rfl := Except.ok.inj considered
        exact ⟨lines, total⟩
    · cases considered

theorem foldlM_error (h : l.foldlM (consider r p) due = .error cause) :
    (∃ a ∈ l, cause = .incompleteCoverage a p ∧ r.covers p a = false) ∨
      2 ^ 128 ≤ due.total.val + r.dueSum (l.filter (r.earns p)) := by
  induction l generalizing due with
  | nil => cases h
  | cons a l ih =>
    rw [List.foldlM_cons, consider_eq] at h
    have later {next : Payout} (h : l.foldlM (consider r p) next = .error cause) :
        (∃ b ∈ a :: l, cause = .incompleteCoverage b p ∧ r.covers p b = false) ∨
          2 ^ 128 ≤ next.total.val + r.dueSum (l.filter (r.earns p)) :=
      (ih h).imp_left fun ⟨b, member, refused⟩ => ⟨b, List.mem_cons_of_mem a member, refused⟩
    split at h
    · split at h
      · rename_i earned
        rw [List.filter_cons_of_pos earned, Registry.dueSum_cons, Registry.dueTo,
          ← Nat.add_assoc]
        cases added : due.add a (r.capacityOf a) r.config.rewardPerUnit with
        | error _ => exact .inr (Nat.le_add_right_of_le (add_error added))
        | ok next =>
          obtain ⟨_, price, -, total⟩ := add_ok added
          rw [added] at h
          rw [← price, ← total]
          exact later h
      · rename_i unearned
        rw [List.filter_cons_of_neg unearned]
        exact later h
    · rename_i uncovered
      exact .inl ⟨a, List.mem_cons_self, (Except.error.inj h).symm, Bool.eq_false_iff.2 uncovered⟩

end Payout

namespace Registry

/-- The candidates that earn a reward for `p`, once each. -/
def earners (r : Registry) (p : Period) (candidates : List Account) : List Account :=
  candidates.eraseDups.filter (r.earns p)

theorem nodup_earners : (r.earners p l).Nodup := (nodup_eraseDups l).filter _

end Registry

/-- What a payout is made of. -/
theorem Payout.ofCandidates_ok (h : Payout.ofCandidates r p l = .ok due) :
    (∀ a ∈ l, r.covers p a = true) ∧
      due.lines = (r.earners p l).map (fun a => (a, r.dueTo a)) ∧
      due.total.val = r.dueSum (r.earners p l) := by
  obtain ⟨covered, lines, total⟩ := foldlM_ok h
  exact ⟨fun a member => covered a (List.mem_eraseDups.2 member), lines,
    total.trans (Nat.zero_add _)⟩

/-- Why there is no payout. -/
theorem Payout.ofCandidates_error (h : Payout.ofCandidates r p l = .error cause) :
    (∃ a ∈ l, cause = .incompleteCoverage a p ∧ r.covers p a = false) ∨
      2 ^ 128 ≤ r.dueSum (r.earners p l) := by
  rcases foldlM_error h with ⟨a, member, refused⟩ | overflow
  · exact .inl ⟨a, List.mem_eraseDups.1 member, refused⟩
  · exact .inr (overflow.trans (Nat.le_of_eq (Nat.zero_add _)))

-- ---------------------------------------------------------------------------
-- The price of all capacity
-- ---------------------------------------------------------------------------

section

variable {K V : Type} [Ord K] [TransOrd K] [LawfulEqOrd K] {m : ExtTreeMap K V} {keys : List K}
  {f : V → Nat} {g : K → Nat}

/-- Shares of different records add up to no more than the sum over all records. -/
theorem sum_le_tally (distinct : keys.Nodup)
    (share : ∀ k ∈ keys, ∃ v, m[k]? = some v ∧ g k ≤ f v) : (keys.map g).sum ≤ tally m f := by
  induction keys generalizing m with
  | nil => exact Nat.zero_le _
  | cons k keys ih =>
    obtain ⟨fresh, distinct⟩ := List.nodup_cons.1 distinct
    obtain ⟨v, found, le⟩ := share k List.mem_cons_self
    have rest := ih (m := m.erase k) distinct fun k' member => by
      have hk : k ≠ k' := fun same => fresh (same ▸ member)
      simpa [ExtTreeMap.getElem?_erase, hk] using share k' (List.mem_cons_of_mem k member)
    rw [List.map_cons, List.sum_cons, tally_erase found]
    omega

end

/-- Nobody is paid but active nodes, and these share what is allocated. -/
theorem Registry.MembershipSound.dueSum_le (hr : r.MembershipSound) :
    r.dueSum (r.earners p l) ≤ r.allocated.val * r.config.rewardPerUnit.val := by
  have shares : ((r.earners p l).map fun a => (r.capacityOf a).val).sum ≤ r.allocated.val := by
    rw [hr.allocated]
    refine sum_le_tally nodup_earners fun a member => ?_
    obtain ⟨n, found, active, -⟩ := earns_iff.1 (List.mem_filter.1 member).2
    refine ⟨n, found, ?_⟩
    rw [capacityOf, found, Node.activeCapacity, if_pos active]
    exact Nat.le_refl _
  calc r.dueSum (r.earners p l)
      = ((r.earners p l).map fun a => (r.capacityOf a).val).sum * r.config.rewardPerUnit.val :=
        List.sum_map_mul_right _ _ _
    _ ≤ r.allocated.val * r.config.rewardPerUnit.val := Nat.mul_le_mul_right _ shares

end StorageIncentives
