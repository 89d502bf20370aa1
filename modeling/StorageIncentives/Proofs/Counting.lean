import StorageIncentives.Proofs.CounterBounds

/-!
# The order of counting

A call counts at most one challenge or one pass: at a node, in the record of a period, and in the
registry's own total. Two of them can be counted in either order. At one node this needs that a late
pass is for an earlier period than the one that a new challenge begins, and among the records that
the period of a pass has one already.
-/

namespace StorageIncentives

open Std (ExtTreeMap)
open Procedure (bind_ok)

/-- Where `f` and then `g` succeeds, `g` and then `f` comes to the same. -/
def Swaps {ε α : Type} (f g : α → Except ε α) (a : α) : Prop :=
  ∀ b, f a >>= g = .ok b → g a >>= f = .ok b

/-- A challenge to a node, or a pass for one, with the period of its issue. -/
inductive Counting where
  | issue (account : Account) (p : Period)
  | pass (account : Account) (p : Period)

namespace Counting

def account : Counting → Account
  | .issue a _ => a
  | .pass a _ => a

def period : Counting → Period
  | .issue _ p => p
  | .pass _ p => p

/-- Only active nodes are challenged. -/
def admits : Counting → Node → Bool
  | .issue .., n => n.active
  | .pass .., _ => true

def onNode : Counting → Node → Except Trap Node
  | .issue _ p, n => n.recordChallenge p
  | .pass _ p, n => n.recordPass p

def onStats : Counting → PeriodStats → Except Trap PeriodStats
  | .issue .., s => do return { s with issued := ← s.issued.succOrTrap }
  | .pass .., s => do return { s with passed := ← s.passed.succOrTrap }

def onTotal : Counting → Word → Except Trap Word
  | .issue .., total => total.succOrTrap
  | .pass .., total => .ok total

/-- In the running period `p`, new challenges belong to it, and so does a pass only if the node was
challenged in it before. -/
def Fits (p : Period) (n : Node) : Counting → Prop
  | .issue _ q => q = p
  | .pass _ q => q = p → n.lastChallenged = some p

end Counting

variable {x y : Counting} {n n' : Node} {p q : Period} {s s' : PeriodStats}

-- ---------------------------------------------------------------------------
-- At a node
-- ---------------------------------------------------------------------------

namespace Node

/-- A challenge and a pass can be counted in either order. -/
theorem ScopedWithinLife.challenge_pass_diamond (life : n.ScopedWithinLife)
    (belongs : q = p → n.lastChallenged = some p) (room : n.challenges.val + 1 < 2 ^ 64)
    (room' : n.passed.val + 1 < 2 ^ 64) :
    ∃ n', n.recordChallenge p >>= (·.recordPass q) = .ok n' ∧
      n.recordPass q >>= (·.recordChallenge p) = .ok n' := by
  obtain ⟨n₁, first⟩ := exists_recordChallenge (p := p) life room
  obtain ⟨n₂, second⟩ := exists_recordPass (p := q) life room'
  have life₁ := life.recordChallenge first
  have life₂ := life.recordPass second
  obtain ⟨challenges, periodChallenges, hc, hpc, rfl⟩ := recordChallenge_ok first
  obtain ⟨passed, periodPassed, hp, hpp, rfl⟩ := recordPass_ok second
  obtain ⟨m₁, third⟩ := exists_recordPass (p := q) life₁ room'
  obtain ⟨m₂, fourth⟩ := exists_recordChallenge (p := p) life₂ room
  refine ⟨m₁, bind_ok.2 ⟨_, first, third⟩, bind_ok.2 ⟨_, second, ?_⟩⟩
  suffices same : m₂ = m₁ from same ▸ fourth
  obtain ⟨passed', periodPassed', hp', hpp', rfl⟩ := recordPass_ok third
  obtain ⟨challenges', periodChallenges', hc', hpc', rfl⟩ := recordChallenge_ok fourth
  obtain rfl : challenges' = challenges := Fin.ext (hc'.trans hc.symm)
  obtain rfl : passed' = passed := Fin.ext (hp'.trans hp.symm)
  obtain rfl : periodChallenges' = periodChallenges := Fin.ext (hpc'.trans hpc.symm)
  suffices inPeriod : (if n.lastChallenged = some p then periodPassed else 0) = periodPassed' by
    simp only [inPeriod]
  refine Fin.ext ?_
  by_cases hl : n.lastChallenged = some p
  · simp only [hl, if_true, Option.some.injEq] at hpp hpp' ⊢
    omega
  · have late : q ≠ p := fun h => hl (belongs h)
    simp [hl, Ne.symm late] at hpp' ⊢
    omega

/-- Two passes can be counted in either order. -/
theorem ScopedWithinLife.pass_pass_diamond (life : n.ScopedWithinLife)
    (room : n.passed.val + 2 < 2 ^ 64) :
    ∃ n', n.recordPass p >>= (·.recordPass q) = .ok n' ∧
      n.recordPass q >>= (·.recordPass p) = .ok n' := by
  obtain ⟨n₁, first⟩ := exists_recordPass (p := p) life (by omega)
  obtain ⟨n₂, second⟩ := exists_recordPass (p := q) life (by omega)
  have life₁ := life.recordPass first
  have life₂ := life.recordPass second
  obtain ⟨passed₁, periodPassed₁, hp₁, hpp₁, rfl⟩ := recordPass_ok first
  obtain ⟨passed₂, periodPassed₂, hp₂, hpp₂, rfl⟩ := recordPass_ok second
  have room₁ : passed₁.val + 1 < 2 ^ 64 := by omega
  have room₂ : passed₂.val + 1 < 2 ^ 64 := by omega
  obtain ⟨m₁, third⟩ := exists_recordPass (p := q) life₁ room₁
  obtain ⟨m₂, fourth⟩ := exists_recordPass (p := p) life₂ room₂
  refine ⟨m₁, bind_ok.2 ⟨_, first, third⟩, bind_ok.2 ⟨_, second, ?_⟩⟩
  suffices same : m₂ = m₁ from same ▸ fourth
  obtain ⟨passed, periodPassed, hp, hpp, rfl⟩ := recordPass_ok third
  obtain ⟨passed', periodPassed', hp', hpp', rfl⟩ := recordPass_ok fourth
  simp only at hp hp' hpp hpp'
  obtain rfl : passed' = passed := Fin.ext (by omega)
  obtain rfl : periodPassed' = periodPassed := Fin.ext (by omega)
  rfl

end Node

namespace Counting

theorem swaps_onNode (life : n.ScopedWithinLife) (hx : x.Fits p n) (hy : y.Fits p n) :
    Swaps x.onNode y.onNode n := by
  intro m h
  obtain ⟨n₁, first, second⟩ := bind_ok.1 h
  cases x with
  | issue a q =>
    obtain rfl : q = p := hx
    cases y with
    | issue b q' =>
      obtain rfl : q' = q := hy
      exact h
    | pass b q' =>
      obtain ⟨challenges, _, hc, -, rfl⟩ := Node.recordChallenge_ok first
      obtain ⟨passed, _, hp, -, rfl⟩ := Node.recordPass_ok second
      obtain ⟨m', one, other⟩ := life.challenge_pass_diamond hy (hc ▸ challenges.isLt)
        (hp ▸ passed.isLt)
      exact other.trans (one.symm.trans h)
  | pass a q =>
    cases y with
    | issue b q' =>
      obtain rfl : q' = p := hy
      obtain ⟨passed, _, hp, -, rfl⟩ := Node.recordPass_ok first
      obtain ⟨challenges, _, hc, -, rfl⟩ := Node.recordChallenge_ok second
      obtain ⟨m', one, other⟩ := life.challenge_pass_diamond hx (hc ▸ challenges.isLt)
        (hp ▸ passed.isLt)
      exact one.trans (other.symm.trans h)
    | pass b q' =>
      obtain ⟨passed, _, hp, -, rfl⟩ := Node.recordPass_ok first
      obtain ⟨both, _, hb, -, rfl⟩ := Node.recordPass_ok second
      have total : both.val = passed.val + 1 := hb
      have room := both.isLt
      obtain ⟨m', one, other⟩ := life.pass_pass_diamond (p := q) (q := q') (by omega)
      exact other.trans (one.symm.trans h)

theorem onStats_ok : x.onStats s = .ok s' ↔ match x with
    | .issue .. => ∃ issued, s.issued.succOrTrap = .ok issued ∧ { s with issued } = s'
    | .pass .. => ∃ passed, s.passed.succOrTrap = .ok passed ∧ { s with passed } = s' := by
  cases x <;> simp [onStats, bind_ok, pure, Except.pure]

theorem swaps_onStats : Swaps x.onStats y.onStats s := by
  intro s' h
  obtain ⟨s₁, first, second⟩ := bind_ok.1 h
  cases x <;> cases y
  case issue.issue => exact h
  case pass.pass => exact h
  case issue.pass =>
    obtain ⟨issued, counted, rfl⟩ := onStats_ok.1 first
    obtain ⟨passed, counted', rfl⟩ := onStats_ok.1 second
    exact bind_ok.2 ⟨_, onStats_ok.2 ⟨passed, counted', rfl⟩, onStats_ok.2 ⟨issued, counted, rfl⟩⟩
  case pass.issue =>
    obtain ⟨passed, counted, rfl⟩ := onStats_ok.1 first
    obtain ⟨issued, counted', rfl⟩ := onStats_ok.1 second
    exact bind_ok.2 ⟨_, onStats_ok.2 ⟨issued, counted', rfl⟩, onStats_ok.2 ⟨passed, counted, rfl⟩⟩

theorem swaps_onTotal {total : Word} : Swaps x.onTotal y.onTotal total := by
  intro total' h
  obtain ⟨between, first, second⟩ := bind_ok.1 h
  cases x <;> cases y
  case issue.issue => exact h
  case pass.pass => exact h
  case issue.pass => exact bind_ok.2 ⟨total, rfl, second ▸ first⟩
  case pass.issue =>
    obtain rfl := Except.ok.inj first
    exact bind_ok.2 ⟨total', second, rfl⟩

theorem admits_onNode (h : x.onNode n = .ok n') : y.admits n' = y.admits n := by
  cases y with
  | pass => rfl
  | issue =>
    cases x with
    | issue =>
      obtain ⟨_, _, -, -, rfl⟩ := Node.recordChallenge_ok h
      rfl
    | pass =>
      obtain ⟨_, _, -, -, rfl⟩ := Node.recordPass_ok h
      rfl

theorem carried_onStats (h : x.onStats s = .ok s') : s'.carried = s.carried := by
  cases x <;> obtain ⟨_, -, rfl⟩ := onStats_ok.1 h <;> rfl

end Counting

-- ---------------------------------------------------------------------------
-- Among nodes and records
-- ---------------------------------------------------------------------------

/-- All that counts challenges. -/
structure Book where
  nodes : ExtTreeMap Account Node
  history : History
  total : Word

namespace Counting

inductive AtNode (k : Counting) (nodes : ExtTreeMap Account Node) : ExtTreeMap Account Node → Prop
  | intro {n n' : Node} (found : nodes[k.account]? = some n) (admitted : k.admits n = true)
      (counted : k.onNode n = .ok n') : AtNode k nodes (nodes.insert k.account n')

inductive InRecord (k : Counting) (h : History) : History → Prop
  | intro {s : PeriodStats} (counted : k.onStats (h.statsAt k.period) = .ok s) :
      InRecord k h (h.put k.period s)

structure Enters (k : Counting) (b b' : Book) : Prop where
  nodes : k.AtNode b.nodes b'.nodes
  history : k.InRecord b.history b'.history
  total : k.onTotal b.total = .ok b'.total

/-- In the running period `p`, nothing is counted for a period without a record but `p`. -/
structure Due (k : Counting) (b : Book) (p : Period) : Prop where
  fits : ∀ n, b.nodes[k.account]? = some n → k.Fits p n
  recorded : k.period = p ∨ k.period ∈ b.history.records

variable {nodes nodes₁ nodes₂ : ExtTreeMap Account Node} {h h₁ h₂ : History} {b b₁ b₂ : Book}

theorem AtNode.swap (hx : x.AtNode nodes nodes₁) (hy : y.AtNode nodes₁ nodes₂)
    (swaps : x.account = y.account → ∀ n, nodes[x.account]? = some n →
      Swaps x.onNode y.onNode n) :
    ∃ nodes', y.AtNode nodes nodes' ∧ x.AtNode nodes' nodes₂ := by
  obtain @⟨n, n₁, found, admitted, counted⟩ := hx
  obtain @⟨m, n₂, found', admitted', counted'⟩ := hy
  by_cases ha : x.account = y.account
  · rw [← ha, ExtTreeMap.getElem?_insert_self] at found'
    obtain rfl := Option.some.inj found'
    obtain ⟨n', first, second⟩ := bind_ok.1 (swaps ha n found _ (bind_ok.2 ⟨_, counted, counted'⟩))
    rw [admits_onNode counted] at admitted'
    refine ⟨_, .intro (ha ▸ found) admitted' first, ?_⟩
    have last : (nodes.insert x.account n₁).insert x.account n₂ =
        (nodes.insert x.account n').insert x.account n₂ := insert_insert.trans insert_insert.symm
    rw [← ha, last]
    exact .intro ExtTreeMap.getElem?_insert_self ((admits_onNode first).trans admitted) second
  · rw [getElem?_insert_of_ne (Ne.symm ha)] at found'
    refine ⟨_, .intro found' admitted' counted', ?_⟩
    rw [insert_comm ha]
    exact .intro ((getElem?_insert_of_ne ha).trans found) admitted counted

theorem InRecord.swap (hx : x.InRecord h h₁) (hy : y.InRecord h₁ h₂) (hw : h.WellFormed)
    (recorded : x.period = y.period ∨ x.period ∈ h.records ∨ y.period ∈ h.records) :
    ∃ h', y.InRecord h h' ∧ x.InRecord h' h₂ := by
  obtain @⟨s₁, counted⟩ := hx
  obtain @⟨s₂, counted'⟩ := hy
  by_cases hp : x.period = y.period
  · rw [← hp, History.statsAt_put_self] at counted'
    obtain ⟨s', first, second⟩ := bind_ok.1 (swaps_onStats _ (bind_ok.2 ⟨_, counted, counted'⟩))
    refine ⟨_, .intro (hp ▸ first), ?_⟩
    have last : (h.put x.period s₁).put x.period s₂ = (h.put x.period s').put x.period s₂ :=
      History.put_put.trans History.put_put.symm
    rw [← hp, last]
    exact .intro (by rwa [History.statsAt_put_self])
  · rw [hw.statsAt_put (carried_onStats counted) (Ne.symm hp)] at counted'
    have comm : (h.put x.period s₁).put y.period s₂ = (h.put y.period s₂).put x.period s₁ := by
      rcases recorded with same | first | second
      · exact absurd same hp
      · exact hw.put_comm first hp
      · exact (hw.put_comm second (Ne.symm hp)).symm
    refine ⟨_, .intro counted', ?_⟩
    rw [comm]
    exact .intro (by rwa [hw.statsAt_put (carried_onStats counted') hp])

theorem Due.recorded_or (hx : x.Due b p) (hy : y.Due b p) :
    x.period = y.period ∨ x.period ∈ b.history.records ∨ y.period ∈ b.history.records := by
  rcases hx.recorded with first | first
  · rcases hy.recorded with second | second
    · exact .inl (first.trans second.symm)
    · exact .inr (.inr second)
  · exact .inr (.inl first)

/-- What is due at one time can be counted in either order. -/
theorem Enters.swap (hx : x.Enters b b₁) (hy : y.Enters b₁ b₂) (hw : b.history.WellFormed)
    (life : ∀ (a : Account) (n : Node), b.nodes[a]? = some n → n.ScopedWithinLife)
    (dueX : x.Due b p) (dueY : y.Due b p) : ∃ b', y.Enters b b' ∧ x.Enters b' b₂ := by
  obtain ⟨nodes', nodeY, nodeX⟩ := hx.nodes.swap hy.nodes fun ha n found =>
    swaps_onNode (life _ n found) (dueX.fits n found) (dueY.fits n (ha ▸ found))
  obtain ⟨history', recordY, recordX⟩ := hx.history.swap hy.history hw (dueX.recorded_or dueY)
  obtain ⟨total', totalY, totalX⟩ :=
    bind_ok.1 (swaps_onTotal _ (bind_ok.2 ⟨_, hx.total, hy.total⟩))
  exact ⟨⟨nodes', history', total'⟩, ⟨nodeY, recordY, totalY⟩, ⟨nodeX, recordX, totalX⟩⟩

end Counting

/-- The book after a call, with what it counts if anything. -/
def Book.After (b : Book) : Option Counting → Book → Prop
  | none, b' => b' = b
  | some k, b' => k.Enters b b'

theorem Book.After.swap {b b₁ b₂ : Book} {x y : Option Counting} (hx : b.After x b₁)
    (hy : b₁.After y b₂) (hw : b.history.WellFormed)
    (life : ∀ (a : Account) (n : Node), b.nodes[a]? = some n → n.ScopedWithinLife)
    (dueX : ∀ k ∈ x, k.Due b p) (dueY : ∀ k ∈ y, k.Due b p) :
    ∃ b', b.After y b' ∧ b'.After x b₂ := by
  cases x with
  | none =>
    obtain rfl := hx
    exact ⟨b₂, hy, rfl⟩
  | some k =>
    cases y with
    | none =>
      obtain rfl := hy
      exact ⟨b, rfl, hx⟩
    | some k' => exact Counting.Enters.swap hx hy hw life (dueX k rfl) (dueY k' rfl)

end StorageIncentives
