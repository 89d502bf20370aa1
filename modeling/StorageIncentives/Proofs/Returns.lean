import StorageIncentives.Call

/-!
# When a procedure succeeds

`p.Returns ctx w a w'` says that `p` succeeds in the world `w` with the result `a` and leaves `w'`.
Each step of a procedure is read as the condition under which it succeeds and what it writes, so
the success of a whole body unfolds into its guards and its final world.
-/

namespace StorageIncentives.Procedure

variable {α β : Type} {ctx : Context} {w w' : World} {a : α} {b : β} {u : Unit}

def Returns (p : Procedure α) (ctx : Context) (w : World) (a : α) (w' : World) : Prop :=
  p.runIn ctx w = (.ok a, w')

@[simp] theorem returns_pure {c : α} :
    (pure c : Procedure α).Returns ctx w a w' ↔ c = a ∧ w = w' := by
  simp [Returns, runIn_pure]

@[simp] theorem returns_bind {x : Procedure α} {f : α → Procedure β} :
    (x >>= f).Returns ctx w b w' ↔ ∃ a v, x.Returns ctx w a v ∧ (f a).Returns ctx v b w' := by
  simp only [Returns, runIn_bind]
  cases x.runIn ctx w with
  | mk result v => cases result <;> simp [and_assoc]

@[simp] theorem returns_map {x : Procedure α} {f : α → β} :
    (f <$> x).Returns ctx w b w' ↔ ∃ a, x.Returns ctx w a w' ∧ f a = b := by
  simp only [map_eq_pure_bind, returns_bind, returns_pure]
  constructor
  · rintro ⟨a, v, h, rfl, rfl⟩
    exact ⟨a, h, rfl⟩
  · rintro ⟨a, h, rfl⟩
    exact ⟨a, w', h, rfl, rfl⟩

theorem bind_ok {ε : Type} {x : Except ε α} {f : α → Except ε β} :
    x >>= f = .ok b ↔ ∃ a, x = .ok a ∧ f a = .ok b := by
  cases x <;> simp [bind, Except.bind]

theorem map_ok {ε : Type} {x : Except ε α} {f : α → β} :
    f <$> x = .ok b ↔ ∃ a, x = .ok a ∧ f a = b := by
  cases x <;> simp [Functor.map, Except.map]

theorem isOk_iff {ε : Type} {x : Except ε α} : x.isOk = true ↔ ∃ a, x = .ok a := by
  cases x <;> simp [Except.isOk, Except.toBool]

theorem mapError_ok {ε ε' : Type} {x : Except ε α} {f : ε → ε'} :
    x.mapError f = .ok a ↔ x = .ok a := by
  cases x with
  | error e =>
    show Except.error (f e) = .ok a ↔ _
    simp
  | ok c =>
    show Except.ok c = .ok a ↔ _
    simp

-- ---------------------------------------------------------------------------
-- Decisions
-- ---------------------------------------------------------------------------

@[simp] theorem returns_require {p : Prop} [Decidable p] {cause : Rejection} :
    (require p cause).Returns ctx w u w' ↔ p ∧ w = w' := by
  by_cases h : p <;> simp [Returns, runIn_require, h]

@[simp] theorem returns_found {value : Option α} {cause : Rejection} :
    (found value cause).Returns ctx w a w' ↔ value = some a ∧ w = w' := by
  cases value <;> simp [Returns, runIn_found]

@[simp] theorem returns_accepted {e : Except Rejection α} :
    (accepted e).Returns ctx w a w' ↔ e = .ok a ∧ w = w' := by
  simp [Returns, runIn_accepted, mapError_ok]

@[simp] theorem returns_computed {e : Except Trap α} :
    (computed e).Returns ctx w a w' ↔ e = .ok a ∧ w = w' := by
  simp [Returns, runIn_computed, mapError_ok]

-- ---------------------------------------------------------------------------
-- Reads and writes
-- ---------------------------------------------------------------------------

@[simp] theorem returns_read {c : Context} :
    (read : Procedure Context).Returns ctx w c w' ↔ ctx = c ∧ w = w' := by
  simp [Returns, runIn_read]

@[simp] theorem returns_registry {r : Registry} :
    registry.Returns ctx w r w' ↔ w.registry = r ∧ w = w' := by
  simp [Returns, runIn_registry]

@[simp] theorem returns_caller {c : Account} :
    caller.Returns ctx w c w' ↔ ctx.caller = c ∧ w = w' := by
  simp [Returns, runIn_caller]

@[simp] theorem returns_now {t : Instant} : now.Returns ctx w t w' ↔ ctx.now = t ∧ w = w' := by
  simp [Returns, runIn_now]

@[simp] theorem returns_update {f : Registry → Registry} :
    (update f).Returns ctx w u w' ↔ { w with registry := f w.registry } = w' := by
  simp [Returns, runIn_update]

@[simp] theorem returns_emit {e : Event} :
    (emit e).Returns ctx w u w' ↔ { w with events := w.events ++ [e] } = w' := by
  simp [Returns, runIn_emit]

@[simp] theorem returns_promise {r : Receipt} :
    (promise r).Returns ctx w u w' ↔ { w with receipts := w.receipts ++ [r] } = w' := by
  simp [Returns, runIn_promise]

-- ---------------------------------------------------------------------------
-- Guards and composite steps
-- ---------------------------------------------------------------------------

@[simp] theorem returns_currentPeriod {p : Period} :
    currentPeriod.Returns ctx w p w' ↔ w.registry.periodAt ctx.now = .ok p ∧ w = w' := by
  simp [currentPeriod, and_assoc]

@[simp] theorem returns_amendStats {p : Period} {f : PeriodStats → Except Trap PeriodStats} :
    (amendStats p f).Returns ctx w u w' ↔ ∃ s, f (w.registry.statsAt p) = .ok s ∧
      { w with registry := { w.registry with history := w.registry.history.put p s } } = w' := by
  simp [amendStats, and_assoc]

@[simp] theorem returns_setNode {c : Account} {n : Node} :
    (setNode c n).Returns ctx w u w' ↔
      { w with registry := { w.registry with nodes := w.registry.nodes.insert c n } } = w' := by
  simp [setNode]

@[simp] theorem returns_setChallenge {id : String} {c : Challenge} :
    (setChallenge id c).Returns ctx w u w' ↔
      { w with registry := { w.registry with challenges := w.registry.challenges.insert id c } } =
        w' := by
  simp [setChallenge]

@[simp] theorem returns_requireUnpaused :
    requireUnpaused.Returns ctx w u w' ↔ w.registry.paused = false ∧ w = w' := by
  simp [requireUnpaused, and_assoc]

@[simp] theorem returns_requireAdmin :
    requireAdmin.Returns ctx w u w' ↔ ctx.caller = w.registry.admin ∧ w = w' := by
  simp [requireAdmin, and_assoc]

@[simp] theorem returns_requireChallenger :
    requireChallenger.Returns ctx w u w' ↔ w.registry.isChallenger ctx.caller ∧ w = w' := by
  simp [requireChallenger, and_assoc]

@[simp] theorem returns_requireOneYocto :
    requireOneYocto.Returns ctx w u w' ↔ ctx.deposit = 1 ∧ w = w' := by
  simp [requireOneYocto, and_assoc]

@[simp] theorem returns_requireLabel {label : Label} {text : String} :
    (requireLabel label text).Returns ctx w u w' ↔
      (0 < text.utf8ByteSize ∧ text.utf8ByteSize ≤ label.maxBytes) ∧ w = w' := by
  simp [requireLabel]

end StorageIncentives.Procedure
