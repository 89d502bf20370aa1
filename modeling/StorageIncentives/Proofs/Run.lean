import Mathlib.Algebra.Ring.Nat
import StorageIncentives.Proofs.History
import StorageIncentives.Proofs.Success

/-!
# Runs

A run begins with the creation of a registry and grows by one call at a time: any caller, any
arguments, any time, and whether the call succeeds or not. What holds of the fresh registry and is
kept by every accepted call holds after every run (`Run.invariant`).
-/

namespace StorageIncentives

inductive Run where
  | create (admin : Account) (config : Config) (genesis : Instant) (r : Registry)
      (created : Registry.create admin config genesis = .ok r)
  | call (run : Run) (ctx : Context) (call : Call)

/-- One call of a run, from the registry that it met. -/
structure Transition where
  before : Registry
  ctx : Context
  call : Call

namespace Transition

def after (t : Transition) : Registry := (t.before.perform t.ctx t.call).1

def outcome (t : Transition) : Outcome := (t.before.perform t.ctx t.call).2

/-- The call of a transition fails and changes nothing, or it is accepted. -/
theorem cases (t : Transition) :
    (∃ fault, t.after = t.before ∧ t.outcome = .silent (.error fault)) ∨
      ∃ answer w, Accepts t.before t.ctx t.call answer w ∧ t.after = w.registry ∧
        t.outcome = ⟨.ok answer, w.events, w.receipts⟩ := by
  rcases perform_cases t.before t.ctx t.call with ⟨fault, h⟩ | ⟨answer, w, ha, h⟩
  · exact .inl ⟨fault, by simp [after, outcome, h]⟩
  · exact .inr ⟨answer, w, ha, by simp [after, outcome, h]⟩

/-- What holds before a call holds after it if the call keeps it when it is accepted. -/
theorem after_of_accepts {P : Registry → Prop} (t : Transition) (idle : P t.before)
    (step : ∀ {answer w}, Accepts t.before t.ctx t.call answer w → P w.registry) : P t.after := by
  rcases t.cases with ⟨_, h, _⟩ | ⟨_, _, ha, h, _⟩
  · exact h ▸ idle
  · exact h ▸ step ha

theorem accepts_of_ok {t : Transition} {answer : Answer} (h : t.outcome.result = .ok answer) :
    ∃ w, Accepts t.before t.ctx t.call answer w ∧ t.after = w.registry := by
  rcases t.cases with ⟨_, _, ho⟩ | ⟨_, w, ha, hw, ho⟩
  · rw [ho] at h
    cases h
  · rw [ho] at h
    obtain rfl := Except.ok.inj h
    exact ⟨w, ha, hw⟩

end Transition

namespace Run

def registry : Run → Registry
  | .create _ _ _ r _ => r
  | .call run ctx c => (run.registry.perform ctx c).1

/-- The time of the last call. -/
def now : Run → Instant
  | .create _ _ genesis _ _ => genesis
  | .call _ ctx _ => ctx.now

def transitions : Run → List Transition
  | .create .. => []
  | .call run ctx c => run.transitions ++ [⟨run.registry, ctx, c⟩]

theorem length_transitions_call (run : Run) (ctx : Context) (c : Call) :
    (run.call ctx c).transitions.length = run.transitions.length + 1 := List.length_append

/-- What is gathered from the calls of a run grows by what the last call adds. -/
theorem filterMap_transitions_call {α : Type} (f : Transition → Option α) (run : Run)
    (ctx : Context) (c : Call) : (run.call ctx c).transitions.filterMap f =
      run.transitions.filterMap f ++ (f ⟨run.registry, ctx, c⟩).toList := by
  rw [transitions, List.filterMap_append]
  congr 1

/-- Time never goes back from one call to the next. -/
def Chronological : Run → Prop
  | .create .. => True
  | .call run ctx _ => run.Chronological ∧ run.now ≤ ctx.now

instance : (run : Run) → Decidable run.Chronological
  | .create .. => inferInstanceAs (Decidable True)
  | .call run ctx _ =>
    have := instDecidableChronological run
    inferInstanceAs (Decidable (run.Chronological ∧ run.now ≤ ctx.now))

/-- The second run goes on where the first one ends, with calls at `now` or after it. -/
inductive LeadsTo (run : Run) (now : Instant) : Run → Prop
  | refl : LeadsTo run now run
  | call {later : Run} (h : LeadsTo run now later) (ctx : Context) (c : Call)
      (after : now ≤ ctx.now) : LeadsTo run now (later.call ctx c)

end Run

namespace Registry

/-- A registry as it is created. -/
def fresh (admin : Account) (config : Config) (now : Instant) : Registry where
  version := currentVersion
  admin := admin
  paused := false
  challengers := .empty
  storageAdmins := .empty
  config := config
  clock := .startingAt now config.periodLength
  nodes := ∅
  activeNodes := .empty
  metadata := ∅
  challenges := ∅
  history := .empty
  bookings := .empty
  allocated := 0
  booked := 0
  pendingRewards := 0
  distributedRewards := 0
  challengesIssued := 0

theorem create_eq_ok_iff {admin : Account} {config : Config} {now : Instant} {r : Registry} :
    create admin config now = .ok r ↔ config.validate = .ok () ∧ r = fresh admin config now := by
  cases h : config.validate with
  | error cause => simp [create, h, bind, Except.bind]
  | ok => simp [create, h, bind, Except.bind, pure, Except.pure, fresh, eq_comm]

theorem statsAt_fresh {admin : Account} {config : Config} {now : Instant} {p : Period} :
    (fresh admin config now).statsAt p = .empty := History.statsAt_empty

end Registry

namespace Run

theorem invariant {P : Registry → Prop}
    (init : ∀ {admin config now}, config.validate = .ok () → P (.fresh admin config now))
    (step : ∀ {r ctx c answer w}, Accepts r ctx c answer w → P r → P w.registry)
    (run : Run) : P run.registry := by
  induction run with
  | create admin config genesis r created =>
    obtain ⟨hv, rfl⟩ := Registry.create_eq_ok_iff.1 created
    exact init hv
  | call run ctx c ih =>
    exact Transition.after_of_accepts ⟨run.registry, ctx, c⟩ ih fun ha => step ha ih

/-- The invariant of a run whose time does not go back may speak of the time of the last call. -/
theorem chronological_invariant {P : Registry → Instant → Prop}
    (init : ∀ {admin config now}, P (.fresh admin config now) now)
    (idle : ∀ {r t t'}, t ≤ t' → P r t → P r t')
    (step : ∀ {run : Run} {ctx c answer w}, run.Chronological → run.now ≤ ctx.now →
      Accepts run.registry ctx c answer w → P run.registry run.now → P w.registry ctx.now)
    (run : Run) (hc : run.Chronological) : P run.registry run.now := by
  induction run with
  | create admin config genesis r created =>
    obtain ⟨-, rfl⟩ := Registry.create_eq_ok_iff.1 created
    exact init
  | call run ctx c ih =>
    exact Transition.after_of_accepts (P := fun r => P r ctx.now) ⟨run.registry, ctx, c⟩
      (idle hc.2 (ih hc.1)) fun ha => step hc.1 hc.2 ha (ih hc.1)

/-- A transition of a run is the last call of an earlier one. -/
theorem mem_transitions {run : Run} {t : Transition} (h : t ∈ run.transitions) :
    ∃ earlier : Run, t.before = earlier.registry ∧
      (run.Chronological → earlier.Chronological ∧ earlier.now ≤ t.ctx.now) := by
  induction run with
  | create => simp [transitions] at h
  | call run ctx c ih =>
    rcases List.mem_append.1 h with h | h
    · obtain ⟨earlier, hb, hl⟩ := ih h
      exact ⟨earlier, hb, fun hc => hl hc.1⟩
    · rw [List.mem_singleton.1 h]
      exact ⟨run, rfl, id⟩

/-- What flows into a quantity and out of it along a run, if each call accounts for its change. -/
theorem account (g : Registry → Nat) (inflow outflow : Transition → Nat)
    (init : ∀ {admin config now}, g (.fresh admin config now) = 0)
    (step : ∀ (run : Run) (ctx : Context) (c : Call),
      g (Transition.after ⟨run.registry, ctx, c⟩) + outflow ⟨run.registry, ctx, c⟩ =
        g run.registry + inflow ⟨run.registry, ctx, c⟩)
    (run : Run) :
    g run.registry + (run.transitions.map outflow).sum = (run.transitions.map inflow).sum := by
  induction run with
  | create admin config genesis r created =>
    obtain ⟨-, rfl⟩ := Registry.create_eq_ok_iff.1 created
    exact init
  | call run ctx c ih =>
    have hs := step run ctx c
    simp only [transitions, List.map_append, List.map_cons, List.map_nil, List.sum_append_nat,
      List.sum_cons, List.sum_nil]
    show g (Transition.after ⟨run.registry, ctx, c⟩) + _ = _
    omega

end Run

-- ---------------------------------------------------------------------------
-- One reward, from the registration of a node to its claim
-- ---------------------------------------------------------------------------

def alice : Account := ⟨"alice", by decide⟩
def bob : Account := ⟨"bob", by decide⟩

/-- A context without a deposit. -/
def Context.plain (caller : Account) (now : Instant) : Context where
  caller := caller
  self := ⟨"registry", by decide⟩
  now := now
  deposit := 0
  balance := 100_000_000_000_000_000_000_000_000
  locked := 0
  storageUsage := 300_000
  input := []

theorem Run.create_default :
    Registry.create alice .default 0 = .ok (.fresh alice .default 0) := rfl

/-- Bob serves the first period and is paid in the second one. -/
def Run.oneReward : Run :=
  let started := Run.create alice .default 0 (.fresh alice .default 0) create_default
  let registered := started.call (.plain bob 5) (.registerNode 10)
  let issued := registered.call (.plain alice 7) (.issueChallenge "first" bob "chunk" 0)
  let passed := issued.call (.plain bob 8) (.submitProof "first" [1])
  let paid := passed.call (.plain alice nanosPerHour) (.distributeRewards 0 [bob, bob])
  paid.call (.plain bob nanosPerHour) .claimRewards

theorem Run.chronological_oneReward : Run.oneReward.Chronological := by decide

end StorageIncentives
