import StorageIncentives.Proofs.Run

/-!
# The running period

A clock of a registry counts in positive steps from an anchor whose number is at most its instant,
so every instant has a period. Along a run whose time does not go back, periods do not either: a
period that has begun stays begun, whatever lengths are put in force.
-/

namespace StorageIncentives

namespace Clock

variable {c c' : Clock} {t t' now : Instant} {p p' : Period} {length : Word}

structure WellFormed (c : Clock) : Prop where
  positive : 0 < c.length.val
  anchored : c.anchorPeriod.val ≤ c.anchorInstant.val

theorem WellFormed.exists_periodAt (h : c.WellFormed) (t : Instant) :
    ∃ p, c.periodAt t = .ok p := by
  have hd : (t.val - c.anchorInstant.val) / c.length.val ≤ t.val - c.anchorInstant.val :=
    Nat.div_le_self ..
  have := h.anchored
  refine ⟨⟨c.anchorPeriod.val + (t.val - c.anchorInstant.val) / c.length.val, ?_⟩, ?_⟩
  · omega
  · exact periodAt_eq_ok_iff.2 ⟨by have := h.positive; omega, rfl⟩

theorem periodAt_mono (ht : t ≤ t') (hp : c.periodAt t = .ok p) (hp' : c.periodAt t' = .ok p') :
    p ≤ p' := by
  have htv : t.val ≤ t'.val := ht
  have hd : (t.val - c.anchorInstant.val) / c.length.val ≤
      (t'.val - c.anchorInstant.val) / c.length.val := Nat.div_le_div_right (by omega)
  have := (periodAt_eq_ok_iff.1 hp).2
  have := (periodAt_eq_ok_iff.1 hp').2
  show p.val ≤ p'.val
  omega

theorem anchorPeriod_le (hp : c.periodAt t = .ok p) : c.anchorPeriod ≤ p := by
  have hv := (periodAt_eq_ok_iff.1 hp).2
  show c.anchorPeriod.val ≤ p.val
  exact hv ▸ Nat.le_add_right ..

/-- A new length starts with the running period, or is the old one. -/
theorem reanchor_cases (h : c.reanchor now length = .ok c') :
    (length = c.length ∧ c' = c) ∨
      ∃ p, c.periodAt now = .ok p ∧ c' = ⟨p, c.periodStart p, length⟩ := by
  unfold reanchor at h
  split at h
  · rename_i hl
    exact .inl ⟨hl, (Except.ok.inj h).symm⟩
  · obtain ⟨p, hp, hc⟩ := Procedure.bind_ok.1 h
    exact .inr ⟨p, hp, (Except.ok.inj hc).symm⟩

theorem WellFormed.exists_reanchor (h : c.WellFormed) (now : Instant) (length : Word) :
    ∃ c', c.reanchor now length = .ok c' := by
  unfold Clock.reanchor
  split
  · exact ⟨c, rfl⟩
  · obtain ⟨p, hp⟩ := h.exists_periodAt now
    exact ⟨⟨p, c.periodStart p, length⟩, by rw [hp]; rfl⟩

theorem length_reanchor (h : c.reanchor now length = .ok c') : c'.length = length := by
  rcases reanchor_cases h with ⟨hl, rfl⟩ | ⟨p, -, rfl⟩
  · exact hl.symm
  · rfl

theorem WellFormed.reanchor (hw : c.WellFormed) (hl : 0 < length.val)
    (h : c.reanchor now length = .ok c') : c'.WellFormed := by
  rcases reanchor_cases h with ⟨-, rfl⟩ | ⟨p, hp, rfl⟩
  · exact hw
  · refine ⟨hl, ?_⟩
    -- The running period starts no earlier than its number, also at the end of time.
    have hs := val_periodStart c p
    have hn : p.val - c.anchorPeriod.val ≤ (p.val - c.anchorPeriod.val) * c.length.val :=
      Nat.le_mul_of_pos_right _ hw.positive
    have := hw.anchored
    have := p.isLt
    show p.val ≤ (c.periodStart p).val
    omega

theorem periodAt_le_reanchor (h : c.reanchor now length = .ok c') (ht : now ≤ t)
    (hp : c.periodAt now = .ok p) (hp' : c'.periodAt t = .ok p') : p ≤ p' := by
  rcases reanchor_cases h with ⟨-, rfl⟩ | ⟨q, hq, rfl⟩
  · exact periodAt_mono ht hp hp'
  · have : p = q := Except.ok.inj (hp.symm.trans hq)
    exact this ▸ anchorPeriod_le hp'

end Clock

-- ---------------------------------------------------------------------------
-- The clock of a registry
-- ---------------------------------------------------------------------------

variable {r : Registry} {ctx : Context} {call : Call} {answer : Answer} {w : World}
  {t : Instant} {p p' q : Period}

/-- The clock counts in the period length that is in force. -/
structure Registry.ClockSound (r : Registry) : Prop where
  wellFormed : r.clock.WellFormed
  length : r.clock.length = r.config.periodLength
  valid : r.config.validate = .ok ()

/-- The clock and the configuration change together, by a valid configuration. -/
theorem Accepts.clock_cases (h : Accepts r ctx call answer w) :
    (w.registry.clock = r.clock ∧ w.registry.config = r.config) ∨
      w.registry.config.validate = .ok () ∧
        r.clock.reanchor ctx.now w.registry.config.periodLength = .ok w.registry.clock := by
  cases h with
  | updateConfig _ hv hc _ => exact .inr ⟨hv, hc⟩
  | _ => exact .inl ⟨rfl, rfl⟩

theorem Registry.ClockSound.fresh {admin : Account} {config : Config} {now : Instant}
    (hv : config.validate = .ok ()) : (Registry.fresh admin config now).ClockSound where
  wellFormed := ⟨(Config.validate_eq_ok_iff.1 hv).1.2.2.2.2.1, Nat.zero_le _⟩
  length := rfl
  valid := hv

theorem Registry.ClockSound.step (h : Accepts r ctx call answer w) (hs : r.ClockSound) :
    w.registry.ClockSound := by
  rcases h.clock_cases with ⟨hc, hf⟩ | ⟨hv, hc⟩
  · exact ⟨hc ▸ hs.wellFormed, by rw [hc, hf, hs.length], hf ▸ hs.valid⟩
  · have hl := (Config.validate_eq_ok_iff.1 hv).1.2.2.2.2.1
    exact ⟨hs.wellFormed.reanchor hl hc, Clock.length_reanchor hc, hv⟩

theorem Run.clockSound (run : Run) : run.registry.ClockSound :=
  run.invariant .fresh .step

theorem Run.exists_periodAt (run : Run) (t : Instant) : ∃ p, run.registry.periodAt t = .ok p :=
  run.clockSound.wellFormed.exists_periodAt t

theorem Accepts.periodAt_le (h : Accepts r ctx call answer w) (ht : ctx.now ≤ t)
    (hp : r.periodAt ctx.now = .ok p) (hp' : w.registry.periodAt t = .ok p') : p ≤ p' := by
  rcases h.clock_cases with ⟨hc, -⟩ | ⟨-, hc⟩
  · rw [Registry.periodAt, hc] at hp'
    exact Clock.periodAt_mono ht hp hp'
  · exact Clock.periodAt_le_reanchor hc ht hp hp'

/-- The running period of a call, which the clock before it tells, is the earliest one after it. -/
theorem Transition.periodAt_le (c : Transition) (ht : c.ctx.now ≤ t)
    (hp : c.before.periodAt c.ctx.now = .ok p) (hp' : c.after.periodAt t = .ok p') : p ≤ p' := by
  rcases c.cases with ⟨_, h, _⟩ | ⟨_, _, ha, h, _⟩
  · exact Clock.periodAt_mono ht hp (h ▸ hp')
  · exact ha.periodAt_le ht hp (h ▸ hp')

/-- At `t` and after it, no period before `p` runs. -/
def Registry.Begun (r : Registry) (t : Instant) (p : Period) : Prop :=
  ∀ t' p', t ≤ t' → r.periodAt t' = .ok p' → p ≤ p'

theorem Registry.Begun.of_periodAt (h : r.periodAt t = .ok p) : r.Begun t p :=
  fun _ _ ht hp => Clock.periodAt_mono ht h hp

theorem Registry.Begun.of_le (h : r.Begun t p) (hq : q ≤ p) : r.Begun t q :=
  fun t' p' ht hp => Fin.le_trans hq (h t' p' ht hp)

theorem Registry.Begun.step (ha : Accepts r ctx call answer w) (hs : r.ClockSound)
    (h : r.Begun t p) (ht : t ≤ ctx.now) : w.registry.Begun ctx.now p := by
  intro t' p' ht' hp'
  obtain ⟨q, hq⟩ := hs.wellFormed.exists_periodAt ctx.now
  exact Fin.le_trans (h _ _ ht hq) (ha.periodAt_le ht' hq hp')

theorem Registry.Begun.later {t' : Instant} (h : r.Begun t p) (ht : t ≤ t') : r.Begun t' p :=
  fun u p' hu hp => h u p' (Fin.le_trans ht hu) hp

end StorageIncentives
