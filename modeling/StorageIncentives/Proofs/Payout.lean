import StorageIncentives.Operation.Rewards
import StorageIncentives.Proofs.Returns
import StorageIncentives.Proofs.Tally

/-!
# Payouts

A payout names each account once, with the price of its capacity at the reward rate, and its total
is the sum of its credits. Crediting it adds exactly these sums where the range of money allows it,
and touches nothing of a node but its pending rewards and the period of its last reward.
-/

namespace StorageIncentives

open Std (ExtTreeMap)

-- ---------------------------------------------------------------------------
-- Lists without repetition
-- ---------------------------------------------------------------------------

theorem nodup_eraseDups {α : Type} [BEq α] [LawfulBEq α] : (l : List α) → l.eraseDups.Nodup
  | [] => by simp
  | a :: l => by
    rw [List.eraseDups_cons, List.nodup_cons]
    exact ⟨by simp, nodup_eraseDups _⟩
termination_by l => l.length
decreasing_by exact Nat.lt_succ_of_le (List.length_filter_le ..)

namespace Payout

variable {r : Registry} {p : Period} {a : Account} {due due' : Payout} {l : List Account}

/-- What a payout for `p` is made of. -/
structure Sound (r : Registry) (p : Period) (due : Payout) : Prop where
  nodup : (due.credits.map (·.1)).Nodup
  earned : ∀ e ∈ due.credits, ∃ node, r.nodes[e.1]? = some node ∧ node.active = true ∧
    node.challengedIn p = true ∧ r.config.eligibility.earned node p = true ∧
    e.2.val = node.capacity.val * r.config.rewardPerUnit.val
  total : due.total.val = (due.credits.map (·.2.val)).sum

theorem Sound.empty : Payout.empty.Sound r p where
  nodup := List.nodup_nil
  earned e he := by simp [Payout.empty] at he
  total := rfl

theorem add_ok {capacity : Word} {rate : Amount} (h : due.add a capacity rate = .ok due') :
    ∃ reward, reward.val = capacity.val * rate.val ∧
      due'.credits = due.credits ++ [(a, reward)] ∧
      due'.total.val = due.total.val + reward.val := by
  unfold add at h
  split at h
  · cases h
  rename_i reward hr
  split at h
  · cases h
  rename_i total ht
  cases h
  exact ⟨reward, Quantity.ofNat?_eq_some_iff.1 hr, rfl, Quantity.add?_eq_some_iff.1 ht⟩

/-- A candidate is passed over, or credited with the price of its capacity. -/
theorem consider_ok (h : consider r p due a = .ok due') :
    due' = due ∨ ∃ node reward, r.nodes[a]? = some node ∧ node.active = true ∧
      node.challengedIn p = true ∧ r.config.eligibility.earned node p = true ∧
      reward.val = node.capacity.val * r.config.rewardPerUnit.val ∧
      due'.credits = due.credits ++ [(a, reward)] ∧
      due'.total.val = due.total.val + reward.val := by
  unfold consider at h
  split at h
  · exact .inl (Except.ok.inj h).symm
  rename_i node hn
  split at h
  · exact .inl (Except.ok.inj h).symm
  rename_i ha
  split at h
  · cases h
  rename_i hc
  split at h
  · exact .inl (Except.ok.inj h).symm
  rename_i he
  obtain ⟨reward, hr, hcr, ht⟩ := add_ok h
  exact .inr ⟨node, reward, hn, by simpa using ha, by simpa using hc, by simpa using he,
    hr, hcr, ht⟩

theorem Sound.consider (hs : due.Sound r p) (ha : a ∉ due.credits.map (·.1))
    (h : Payout.consider r p due a = .ok due') : due'.Sound r p := by
  rcases consider_ok h with rfl | ⟨node, reward, hn, hact, hc, he, hr, hcr, ht⟩
  · exact hs
  refine ⟨?_, ?_, ?_⟩
  · rw [hcr, List.map_append, List.nodup_append]
    refine ⟨hs.nodup, by simp, fun x hx y hy => ?_⟩
    simp only [List.map_cons, List.map_nil, List.mem_singleton] at hy
    exact fun hxy => ha (hy ▸ hxy ▸ hx)
  · intro e hm
    rw [hcr, List.mem_append, List.mem_singleton] at hm
    rcases hm with hm | rfl
    · exact hs.earned e hm
    · exact ⟨node, hn, hact, hc, he, hr⟩
  · simp [hcr, ht, hs.total]

theorem Sound.foldlM (hs : due.Sound r p) (hl : l.Nodup) (hd : ∀ a ∈ l, a ∉ due.credits.map (·.1))
    (h : l.foldlM (Payout.consider r p) due = .ok due') : due'.Sound r p := by
  induction l generalizing due with
  | nil => exact (Except.ok.inj h) ▸ hs
  | cons a l ih =>
    rw [List.foldlM_cons, Procedure.bind_ok] at h
    obtain ⟨next, hn, h⟩ := h
    obtain ⟨hal, hl⟩ := List.nodup_cons.1 hl
    refine ih (hs.consider (hd a (by simp)) hn) hl (fun b hb => ?_) h
    rcases consider_ok hn with rfl | ⟨_, reward, _, _, _, _, _, hcr, _⟩
    · exact hd b (by simp [hb])
    · rw [hcr, List.map_append, List.mem_append]
      rintro (hm | hm)
      · exact hd b (by simp [hb]) hm
      · simp only [List.map_cons, List.map_nil, List.mem_singleton] at hm
        exact hal (hm ▸ hb)

theorem sound_ofCandidates (h : ofCandidates r p l = .ok due) : due.Sound r p :=
  Sound.empty.foldlM (nodup_eraseDups l) (by simp [Payout.empty]) h

-- ---------------------------------------------------------------------------
-- Crediting
-- ---------------------------------------------------------------------------

variable {nodes : ExtTreeMap Account Node} {e : Account × Amount}
  {credits : List (Account × Amount)} {x bound : Amount} {f : Node → Nat}

theorem getElem?_creditNode : (creditNode p nodes e)[a]? =
    if e.1 = a then (nodes[a]?).map (·.credit p e.2) else nodes[a]? := by
  unfold creditNode
  by_cases h : e.1 = a
  · subst h
    cases hn : nodes[e.1]? <;> simp [hn]
  · cases hn : nodes[e.1]? <;> simp [h, ExtTreeMap.getElem?_insert]

theorem getElem?_credits_of_not_mem (h : a ∉ credits.map (·.1)) :
    (credits.foldl (creditNode p) nodes)[a]? = nodes[a]? := by
  induction credits generalizing nodes with
  | nil => rfl
  | cons e credits ih =>
    simp only [List.map_cons, List.mem_cons, not_or] at h
    rw [List.foldl_cons, ih h.2, getElem?_creditNode, if_neg (Ne.symm h.1)]

theorem getElem?_credits_of_mem (hd : (credits.map (·.1)).Nodup) (h : (a, x) ∈ credits) :
    (credits.foldl (creditNode p) nodes)[a]? = (nodes[a]?).map (·.credit p x) := by
  induction credits generalizing nodes with
  | nil => cases h
  | cons e credits ih =>
    rw [List.map_cons, List.nodup_cons] at hd
    rw [List.foldl_cons]
    rcases List.mem_cons.1 h with rfl | h
    · rw [getElem?_credits_of_not_mem hd.1, getElem?_creditNode, if_pos rfl]
    · have hne : e.1 ≠ a := fun he => hd.1 (he ▸ List.mem_map_of_mem (f := (·.1)) h)
      rw [ih hd.2 h, getElem?_creditNode, if_neg hne]

/-- A node is credited once, or left as it was. -/
theorem Sound.creditTo_cases (hs : due.Sound r p) (nodes : ExtTreeMap Account Node) (q : Period)
    (a : Account) :
    (a ∉ due.credits.map (·.1) ∧ (due.creditTo q nodes)[a]? = nodes[a]?) ∨
      ∃ x, (a, x) ∈ due.credits ∧
        (due.creditTo q nodes)[a]? = (nodes[a]?).map (Node.credit · q x) := by
  by_cases h : a ∈ due.credits.map (·.1)
  · obtain ⟨⟨b, x⟩, hm, rfl⟩ := List.mem_map.1 h
    exact .inr ⟨x, hm, getElem?_credits_of_mem hs.nodup hm⟩
  · exact .inl ⟨h, getElem?_credits_of_not_mem h⟩

theorem Sound.map_creditTo {β : Type} {f : Node → β} (hs : due.Sound r p)
    (hf : ∀ n x, f (Node.credit n p x) = f n) (a : Account) :
    ((due.creditTo p nodes)[a]?).map f = (nodes[a]?).map f := by
  rcases hs.creditTo_cases nodes p a with ⟨-, h⟩ | ⟨x, -, h⟩
  · rw [h]
  · rw [h, Option.map_map]
    exact congrArg (Option.map · nodes[a]?) (funext fun n => hf n x)

theorem tally_creditNode_same (hf : ∀ n x, f (Node.credit n p x) = f n) :
    tally (creditNode p nodes e) f = tally nodes f := by
  unfold creditNode
  split
  · rename_i n hn
    exact tally_insert_same hn (hf n e.2)
  · rfl

/-- What a credit does not touch adds up as before. -/
theorem tally_creditTo_same (hf : ∀ n x, f (Node.credit n p x) = f n) :
    tally (due.creditTo p nodes) f = tally nodes f := by
  unfold creditTo
  generalize due.credits = credits
  induction credits generalizing nodes with
  | nil => rfl
  | cons e credits ih => rw [List.foldl_cons, ih, tally_creditNode_same hf]

theorem tally_creditNode {n : Node} (hn : nodes[e.1]? = some n)
    (hb : n.pendingRewards.val + e.2.val ≤ bound.val) :
    tally (creditNode p nodes e) (·.pendingRewards.val) =
      tally nodes (·.pendingRewards.val) + e.2.val := by
  have ht := tally_insert nodes e.1 (n.credit p e.2) (·.pendingRewards.val)
  have hv : (n.credit p e.2).pendingRewards.val = n.pendingRewards.val + e.2.val := by
    have := bound.isLt
    show min (n.pendingRewards.val + e.2.val) (2 ^ 128 - 1) = _
    omega
  unfold creditNode
  simp only [hn, Option.elim_some, hv] at ht ⊢
  omega

theorem tally_credits (hk : ∀ e ∈ credits, e.1 ∈ nodes)
    (hb : tally nodes (·.pendingRewards.val) + (credits.map (·.2.val)).sum ≤ bound.val) :
    tally (credits.foldl (creditNode p) nodes) (·.pendingRewards.val) =
      tally nodes (·.pendingRewards.val) + (credits.map (·.2.val)).sum := by
  induction credits generalizing nodes with
  | nil => rfl
  | cons e credits ih =>
    simp only [List.map_cons, List.sum_cons] at hb ⊢
    obtain ⟨n, hn⟩ : ∃ n, nodes[e.1]? = some n :=
      ⟨_, getElem?_pos nodes e.1 (hk e (List.mem_cons_self ..))⟩
    have hle := le_tally (f := (·.pendingRewards.val)) hn
    have hfit : n.pendingRewards.val + e.2.val ≤ bound.val := by omega
    have hc := tally_creditNode (p := p) hn hfit
    rw [List.foldl_cons, ih ?_ (by omega), hc]
    · omega
    · intro b hb'
      rw [← ExtTreeMap.isSome_getElem?_iff_mem, getElem?_creditNode]
      have := ExtTreeMap.isSome_getElem?_iff_mem.2 (hk b (by simp [hb']))
      split <;> simpa using this

theorem Sound.known (hs : due.Sound r p) {e : Account × Amount} (he : e ∈ due.credits) :
    e.1 ∈ r.nodes := by
  obtain ⟨node, hn, -⟩ := hs.earned e he
  exact (getElem?_eq_some_iff.1 hn).1

/-- A payout adds its total to what the nodes may claim, as long as money can express the sum. -/
theorem Sound.tally_creditTo (hs : due.Sound r p)
    (hb : tally r.nodes (·.pendingRewards.val) + due.total.val ≤ bound.val) :
    tally (due.creditTo p r.nodes) (·.pendingRewards.val) =
      tally r.nodes (·.pendingRewards.val) + due.total.val := by
  rw [hs.total] at hb ⊢
  exact tally_credits (fun _ => hs.known) hb

theorem Sound.le_total (hs : due.Sound r p) (hx : (a, x) ∈ due.credits) :
    x.val ≤ due.total.val := by
  rw [hs.total]
  obtain ⟨before, after, h⟩ := List.append_of_mem hx
  simp only [h, List.map_append, List.map_cons, List.sum_append_nat, List.sum_cons]
  omega

/-- What a node may claim grows by the price of its capacity if it is credited. -/
theorem Sound.pending_creditTo (hs : due.Sound r p)
    (hb : tally r.nodes (·.pendingRewards.val) + due.total.val ≤ bound.val) (a : Account) :
    (((due.creditTo p r.nodes)[a]?).elim 0 (·.pendingRewards)).val =
      ((r.nodes[a]?).elim 0 (·.pendingRewards)).val +
        if a ∈ due.credits.map (·.1) then
          (r.nodes[a]?).elim 0 fun n => n.capacity.val * r.config.rewardPerUnit.val
        else 0 := by
  rcases hs.creditTo_cases r.nodes p a with ⟨ha, hc⟩ | ⟨x, hx, hc⟩
  · rw [hc, if_neg ha, Nat.add_zero]
  · obtain ⟨n, hn, -, -, -, hv⟩ := hs.earned _ hx
    have hm : a ∈ due.credits.map (·.1) := List.mem_map_of_mem (f := (·.1)) hx
    have hle : n.pendingRewards.val ≤ _ := le_tally (f := (·.pendingRewards.val)) hn
    have ht := hs.le_total hx
    rw [hc, if_pos hm, hn, Option.map_some, Option.elim_some, Option.elim_some, Option.elim_some]
    have := bound.isLt
    show min (n.pendingRewards.val + x.val) (2 ^ 128 - 1) = n.pendingRewards.val + _
    change x.val = _ at hv
    omega

end Payout

end StorageIncentives
