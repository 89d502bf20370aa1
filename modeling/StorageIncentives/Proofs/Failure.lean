import Mathlib.Logic.Basic
import StorageIncentives.Proofs.Success

/-!
# When a procedure fails

`p.Fails ctx w fault` says that `p` stops in the world `w` with a fault. A sequence fails in its
first part, or in its second one from a world that the first part returns; so the faults of a whole
body unfold into those of its guards and of its arithmetic, each under the guards before it.
-/

namespace StorageIncentives

namespace Procedure

variable {α β : Type} {ctx : Context} {w : World} {fault : Fault}

def Fails (p : Procedure α) (ctx : Context) (w : World) (fault : Fault) : Prop :=
  ∃ w', p.runIn ctx w = (.error fault, w')

@[simp] theorem fails_pure {a : α} : (pure a : Procedure α).Fails ctx w fault ↔ False := by
  simp [Fails, runIn_pure]

@[simp] theorem fails_bind {x : Procedure α} {f : α → Procedure β} :
    (x >>= f).Fails ctx w fault ↔
      x.Fails ctx w fault ∨ ∃ a v, x.Returns ctx w a v ∧ (f a).Fails ctx v fault := by
  simp only [Fails, Returns, runIn_bind]
  cases x.runIn ctx w with
  | mk result v => cases result <;> simp [and_assoc]

@[simp] theorem fails_map {x : Procedure α} {f : α → β} :
    (f <$> x).Fails ctx w fault ↔ x.Fails ctx w fault := by
  simp only [map_eq_pure_bind, fails_bind, fails_pure, and_false, exists_false, or_false]

-- ---------------------------------------------------------------------------
-- Decisions
-- ---------------------------------------------------------------------------

@[simp] theorem fails_require {p : Prop} [Decidable p] {cause : Rejection} :
    (require p cause).Fails ctx w fault ↔ ¬ p ∧ .rejected cause = fault := by
  by_cases h : p <;> simp [Fails, runIn_require, h]

@[simp] theorem fails_found {value : Option α} {cause : Rejection} :
    (found value cause).Fails ctx w fault ↔ value = none ∧ .rejected cause = fault := by
  cases value <;> simp [Fails, runIn_found]

theorem mapError_error {ε ε' : Type} {x : Except ε α} {f : ε → ε'} {e' : ε'} :
    x.mapError f = .error e' ↔ ∃ e, x = .error e ∧ f e = e' := by
  cases x with
  | error e =>
    show Except.error (f e) = .error e' ↔ _
    simp
  | ok a =>
    show Except.ok a = .error e' ↔ _
    simp

theorem map_error {ε : Type} {x : Except ε α} {f : α → β} {e : ε} :
    f <$> x = .error e ↔ x = .error e := by
  cases x <;> simp [Functor.map, Except.map]

theorem ne_error_of_ok {ε : Type} {x : Except ε α} {e : ε} (h : ∃ a, x = .ok a) :
    x ≠ .error e := by
  obtain ⟨a, rfl⟩ := h
  exact nofun

@[simp] theorem fails_accepted {e : Except Rejection α} :
    (accepted e).Fails ctx w fault ↔ ∃ cause, e = .error cause ∧ .rejected cause = fault := by
  simp [Fails, runIn_accepted, mapError_error]

@[simp] theorem fails_computed {e : Except Trap α} :
    (computed e).Fails ctx w fault ↔ ∃ trap, e = .error trap ∧ .trapped trap = fault := by
  simp [Fails, runIn_computed, mapError_error]

-- ---------------------------------------------------------------------------
-- Reads and writes
-- ---------------------------------------------------------------------------

@[simp] theorem fails_read : (read : Procedure Context).Fails ctx w fault ↔ False := by
  simp [Fails, runIn_read]

@[simp] theorem fails_registry : registry.Fails ctx w fault ↔ False := by
  simp [Fails, runIn_registry]

@[simp] theorem fails_caller : caller.Fails ctx w fault ↔ False := by
  simp [Fails, runIn_caller]

@[simp] theorem fails_now : now.Fails ctx w fault ↔ False := by simp [Fails, runIn_now]

@[simp] theorem fails_update {f : Registry → Registry} : (update f).Fails ctx w fault ↔ False := by
  simp [Fails, runIn_update]

@[simp] theorem fails_emit {e : Event} : (emit e).Fails ctx w fault ↔ False := by
  simp [Fails, runIn_emit]

@[simp] theorem fails_promise {r : Receipt} : (promise r).Fails ctx w fault ↔ False := by
  simp [Fails, runIn_promise]

-- ---------------------------------------------------------------------------
-- Guards and composite steps
-- ---------------------------------------------------------------------------

@[simp] theorem fails_currentPeriod : currentPeriod.Fails ctx w fault ↔
    ∃ trap, w.registry.periodAt ctx.now = .error trap ∧ .trapped trap = fault := by
  simp [currentPeriod, and_assoc]

@[simp] theorem fails_amendStats {p : Period} {f : PeriodStats → Except Trap PeriodStats} :
    (amendStats p f).Fails ctx w fault ↔
      ∃ trap, f (w.registry.statsAt p) = .error trap ∧ .trapped trap = fault := by
  simp [amendStats, and_assoc]

@[simp] theorem fails_setNode {a : Account} {n : Node} :
    (setNode a n).Fails ctx w fault ↔ False := by
  simp [setNode]

@[simp] theorem fails_setChallenge {id : String} {c : Challenge} :
    (setChallenge id c).Fails ctx w fault ↔ False := by
  simp [setChallenge]

@[simp] theorem fails_requireUnpaused :
    requireUnpaused.Fails ctx w fault ↔ w.registry.paused = true ∧ .rejected .paused = fault := by
  simp [requireUnpaused, and_assoc]

@[simp] theorem fails_requireAdmin : requireAdmin.Fails ctx w fault ↔
    ctx.caller ≠ w.registry.admin ∧ .rejected (.onlyFor .admin) = fault := by
  simp [requireAdmin, and_assoc]

@[simp] theorem fails_requireChallenger : requireChallenger.Fails ctx w fault ↔
    w.registry.isChallenger ctx.caller = false ∧ .rejected (.onlyFor .challenger) = fault := by
  simp [requireChallenger, and_assoc]

@[simp] theorem fails_requireOneYocto : requireOneYocto.Fails ctx w fault ↔
    ctx.deposit ≠ 1 ∧ .rejected .oneYoctoRequired = fault := by
  simp [requireOneYocto, and_assoc]

@[simp] theorem fails_requireLabel {label : Label} {text : String} :
    (requireLabel label text).Fails ctx w fault ↔
      ¬ (0 < text.utf8ByteSize ∧ text.utf8ByteSize ≤ label.maxBytes) ∧
        .rejected (.badLength label) = fault := by
  simp only [requireLabel, fails_require]

end Procedure

-- ---------------------------------------------------------------------------
-- Calls
-- ---------------------------------------------------------------------------

variable {r : Registry} {ctx : Context} {call : Call} {answer : Answer} {w : World} {fault : Fault}

theorem perform_of_accepts (h : Accepts r ctx call answer w) :
    r.perform ctx call = (w.registry, ⟨.ok answer, w.events, w.receipts⟩) := by
  have hr : call.procedure.runIn ctx ⟨r, [], []⟩ = (.ok answer, w) := succeeds_iff_accepts.2 h
  simp [Registry.perform, hr]

theorem perform_of_fails (h : call.procedure.Fails ctx ⟨r, [], []⟩ fault) :
    r.perform ctx call = (r, .silent (.error fault)) := by
  obtain ⟨_, hr⟩ := h
  simp [Registry.perform, hr]

theorem perform_eq_error_iff : (r.perform ctx call).2.result = .error fault ↔
    call.procedure.Fails ctx ⟨r, [], []⟩ fault := by
  unfold Registry.perform Procedure.Fails
  cases call.procedure.runIn ctx ⟨r, [], []⟩ with
  | mk result w => cases result <;> simp [Outcome.silent]

theorem Accepts.not_fails (h : Accepts r ctx call answer w) :
    ¬ call.procedure.Fails ctx ⟨r, [], []⟩ fault := by
  intro failed
  have refused := perform_eq_error_iff.2 failed
  rw [perform_of_accepts h] at refused
  cases refused

end StorageIncentives
