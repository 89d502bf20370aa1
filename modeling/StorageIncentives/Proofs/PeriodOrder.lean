import StorageIncentives.Proofs.Clock

/-!
# Periods never go back

No instant belongs to a period before the clock's anchor, and a new period length moves the anchor
to the running period. So the anchor only moves forward, and with it the earliest period in which
anything can still happen, whatever lengths are put in force and whatever times the calls claim.
-/

namespace StorageIncentives

variable {r : Registry} {ctx : Context} {call : Call} {answer : Answer} {w : World}
  {now : Instant} {length : Word} {p q : Period} {t : Transition}

namespace Clock

variable {c c' : Clock}

/-- Every instant has a period, and none before `p`. -/
def OpensAt (c : Clock) (p : Period) : Prop := ∀ t, ∃ q, c.periodAt t = .ok q ∧ p ≤ q

theorem WellFormed.opensAt (hw : c.WellFormed) (hp : p ≤ c.anchorPeriod) : c.OpensAt p := by
  intro t
  obtain ⟨q, hq⟩ := hw.exists_periodAt t
  exact ⟨q, hq, Fin.le_trans hp (anchorPeriod_le hq)⟩

/-- A length that differs from the old one moves the anchor to the running period. -/
theorem anchorPeriod_reanchor (hl : length ≠ c.length) (h : c.reanchor now length = .ok c')
    (hp : c.periodAt now = .ok p) : c'.anchorPeriod = p := by
  rcases reanchor_cases h with ⟨same, -⟩ | ⟨q, hq, rfl⟩
  · exact absurd same hl
  · exact Except.ok.inj (hq.symm.trans hp)

theorem anchorPeriod_le_reanchor (h : c.reanchor now length = .ok c') :
    c.anchorPeriod ≤ c'.anchorPeriod := by
  rcases reanchor_cases h with ⟨-, rfl⟩ | ⟨q, hq, rfl⟩
  · exact Fin.le_refl _
  · exact anchorPeriod_le hq

end Clock

-- ---------------------------------------------------------------------------
-- What a call does to the anchor
-- ---------------------------------------------------------------------------

namespace Transition

theorem anchorPeriod_le (t : Transition) :
    t.before.clock.anchorPeriod ≤ t.after.clock.anchorPeriod := by
  refine t.after_of_accepts (P := fun r => t.before.clock.anchorPeriod ≤ r.clock.anchorPeriod)
    (Fin.le_refl _) fun ha => ?_
  rcases ha.clock_cases with ⟨hc, -⟩ | ⟨-, hc⟩
  · exact hc ▸ Fin.le_refl _
  · exact Clock.anchorPeriod_le_reanchor hc

theorem anchorPeriod_of_length_ne (hl : t.after.clock.length ≠ t.before.clock.length)
    (hp : t.before.periodAt t.ctx.now = .ok p) : t.after.clock.anchorPeriod = p := by
  rcases t.cases with ⟨_, h, _⟩ | ⟨_, w, ha, h, _⟩
  · exact absurd (congrArg (·.clock.length) h) hl
  · rw [h] at hl ⊢
    rcases ha.clock_cases with ⟨hc, -⟩ | ⟨-, hc⟩
    · exact absurd (congrArg Clock.length hc) hl
    · exact Clock.anchorPeriod_reanchor (Clock.length_reanchor hc ▸ hl) hc hp

/-- The call registers a node, changes an allocation or issues a challenge in period `p`, as the
new record tells or, for an allocation, the event. -/
inductive ActsIn (t : Transition) (p : Period) : Prop
  | registers {capacity : Word} {n : Node} (call : t.call = .registerNode capacity)
      (accepted : t.outcome.result = .ok .nothing) (node : t.after.nodes[t.ctx.caller]? = some n)
      (period : n.registered = p)
  | resizes {capacity old : Word} (call : t.call = .updateAllocation capacity)
      (event : .allocationUpdated t.ctx.caller old capacity p ∈ t.outcome.events)
  | issues {id chunk : String} {node : Account} {nonce : Word} {c : Challenge}
      (call : t.call = .issueChallenge id node chunk nonce)
      (accepted : t.outcome.result = .ok .nothing) (challenge : t.after.challenges[id]? = some c)
      (period : c.issued = p)

/-- It is always the running period. -/
theorem ActsIn.periodAt_eq (h : t.ActsIn p) : t.before.periodAt t.ctx.now = .ok p := by
  rcases t.cases with ⟨fault, -, ho⟩ | ⟨answer, w, ha, hw, ho⟩
  · cases h with
    | registers _ accepted _ _ => simp [ho, Outcome.silent] at accepted
    | resizes _ event => simp [ho, Outcome.silent] at event
    | issues _ accepted _ _ => simp [ho, Outcome.silent] at accepted
  obtain ⟨r, ctx, c⟩ := t
  cases h with
  | registers call _ node period =>
    obtain rfl : c = _ := call
    cases ha with
    | registerNode _ _ _ _ current _ =>
      rw [hw] at node
      obtain rfl : Node.register .. = _ := by simpa using node
      exact period ▸ current
  | resizes call event =>
    obtain rfl : c = _ := call
    cases ha with
    | updateAllocation _ _ _ _ _ _ current =>
      rw [ho] at event
      obtain ⟨-, -, -, rfl⟩ := Event.allocationUpdated.inj (List.mem_singleton.1 event)
      exact current
  | issues call _ challenge period =>
    obtain rfl : c = _ := call
    cases ha with
    | issueChallenge _ _ _ _ _ _ _ _ current _ _ _ =>
      rw [hw] at challenge
      obtain rfl : Challenge.mk .. = _ := by simpa using challenge
      exact period ▸ current

end Transition

-- ---------------------------------------------------------------------------
-- Runs
-- ---------------------------------------------------------------------------

namespace Run

/-- The running period as it is shown, after the creation and before and after each call, always at
the time of the call. -/
def periodReadings : Run → List (Except Trap Answer)
  | .create _ _ genesis r _ => [Query.answer r genesis .currentPeriod]
  | .call run ctx c => run.periodReadings ++
    [Query.answer run.registry ctx.now .currentPeriod,
      Query.answer (run.call ctx c).registry ctx.now .currentPeriod]

/-- The readings of a run are periods in ascending order, and all of them have begun. -/
theorem exists_periodReadings (run : Run) (hc : run.Chronological) :
    ∃ ps : List Period, run.periodReadings = ps.map (fun p => .ok (.count p.val)) ∧
      ps.Pairwise (· ≤ ·) ∧ ∀ p ∈ ps, run.registry.Begun run.now p := by
  have shown {r : Registry} {now : Instant} {p : Period} (h : r.periodAt now = .ok p) :
      Query.answer r now .currentPeriod = .ok (.count p.val) := by
    rw [Query.answer, h]
    rfl
  induction run with
  | create admin config genesis r created =>
    obtain ⟨p, hp⟩ := (Run.create admin config genesis r created).exists_periodAt genesis
    refine ⟨[p], ?_, List.pairwise_singleton .., fun q hq => ?_⟩
    · exact congrArg (· :: []) (shown hp)
    · obtain rfl := List.mem_singleton.1 hq
      exact .of_periodAt hp
  | call run ctx c ih =>
    obtain ⟨ps, readings, ascending, begun⟩ := ih hc.1
    obtain ⟨before, hb⟩ := run.exists_periodAt ctx.now
    obtain ⟨after, ha⟩ := (run.call ctx c).exists_periodAt ctx.now
    have hle : before ≤ after :=
      Transition.periodAt_le ⟨run.registry, ctx, c⟩ (Fin.le_refl _) hb ha
    have earlier (p : Period) (hp : p ∈ ps) : p ≤ before := begun p hp _ _ hc.2 hb
    have latest : (run.call ctx c).registry.Begun ctx.now after := .of_periodAt ha
    refine ⟨ps ++ [before, after], ?_, ?_, fun p hp => ?_⟩
    · rw [periodReadings, readings, shown hb, shown ha, List.map_append]
      rfl
    · refine List.pairwise_append.2 ⟨ascending, by simpa using hle, fun p hp q hq => ?_⟩
      simp only [List.mem_cons, List.not_mem_nil, or_false] at hq
      rcases hq with rfl | rfl
      · exact earlier p hp
      · exact Fin.le_trans (earlier p hp) hle
    · simp only [List.mem_append, List.mem_cons, List.not_mem_nil, or_false] at hp
      rcases hp with hp | rfl | rfl
      · exact latest.of_le (Fin.le_trans (earlier p hp) hle)
      · exact latest.of_le hle
      · exact latest

theorem LeadsTo.anchorPeriod_le {run later : Run} (h : run.LeadsTo now later) :
    run.registry.clock.anchorPeriod ≤ later.registry.clock.anchorPeriod := by
  induction h with
  | refl => exact Fin.le_refl _
  | @call later _ ctx c _ ih =>
    exact Fin.le_trans ih (Transition.anchorPeriod_le ⟨later.registry, ctx, c⟩)

/-- From a change of the period length on, every clock opens at the period that ran before it. -/
theorem opensAt_of_length_ne {run later : Run} {c : Call}
    (changed : (run.call ctx c).registry.clock.length ≠ run.registry.clock.length)
    (h : (run.call ctx c).LeadsTo now later) (hp : run.registry.periodAt ctx.now = .ok p) :
    later.registry.clock.OpensAt p := by
  have anchored : (run.call ctx c).registry.clock.anchorPeriod = p :=
    Transition.anchorPeriod_of_length_ne (t := ⟨run.registry, ctx, c⟩) changed hp
  exact later.clockSound.wellFormed.opensAt (anchored ▸ h.anchorPeriod_le)

/-- Periods do not go back: not from one call to the next as long as time does not, and not by a
new period length at whatever times the clock is asked, before the change or after any later calls. -/
theorem periods_never_go_back (run : Run) :
    (run.Chronological → ∃ ps : List Period,
      run.periodReadings = ps.map (fun p => .ok (.count p.val)) ∧ ps.Pairwise (· ≤ ·)) ∧
    (∀ now length, 0 < length → length ≠ run.registry.clock.length →
      ∃ current clock, run.registry.periodAt now = .ok current ∧
        run.registry.clock.reanchor now length = .ok clock ∧ clock.length = length ∧
        clock.OpensAt current) ∧
    (∀ ctx c later, (run.call ctx c).registry.clock.length ≠ run.registry.clock.length →
      (run.call ctx c).LeadsTo 0 later →
      ∃ current, run.registry.periodAt ctx.now = .ok current ∧
        later.registry.clock.OpensAt current ∧
        ∀ ctx' c' p, Transition.ActsIn ⟨later.registry, ctx', c'⟩ p → current ≤ p) := by
  refine ⟨fun hc => ?_, fun now length positive changed => ?_, fun ctx c later changed h => ?_⟩
  · obtain ⟨ps, readings, ascending, -⟩ := run.exists_periodReadings hc
    exact ⟨ps, readings, ascending⟩
  · have sound := run.clockSound.wellFormed
    obtain ⟨current, hp⟩ := run.exists_periodAt now
    obtain ⟨clock, reanchored⟩ := sound.exists_reanchor now length
    have anchored := Clock.anchorPeriod_reanchor changed reanchored hp
    refine ⟨current, clock, hp, reanchored, Clock.length_reanchor reanchored, ?_⟩
    exact (sound.reanchor positive reanchored).opensAt (Fin.le_of_eq anchored.symm)
  · obtain ⟨current, hp⟩ := run.exists_periodAt ctx.now
    have opens := opensAt_of_length_ne changed h hp
    refine ⟨current, hp, opens, fun ctx' c' p acts => ?_⟩
    obtain ⟨q, hq, hle⟩ := opens ctx'.now
    obtain rfl := Except.ok.inj (hq.symm.trans acts.periodAt_eq)
    exact hle

/-- Bob's node has joined when, in the fourth hour, the period length becomes a minute. -/
def joined : Run :=
  (Run.create alice .default 0 (.fresh alice .default 0) create_default).call (.plain bob 5)
    (.registerNode 10)

def shortened : Run :=
  joined.call { Context.plain alice 12_000_000_000_000 with deposit := 1 }
    (.updateConfig { Config.default with periodLength := nanosPerMinute })

/-- A call that claims a time long before the change still acts in the fourth period, number 3. -/
theorem periods_never_go_back_shortened :
    (shortened.Chronological ∧ ∃ ps : List Period,
      shortened.periodReadings = ps.map (fun p => .ok (.count p.val)) ∧ ps.Pairwise (· ≤ ·)) ∧
    (0 < nanosPerHour ∧ nanosPerHour ≠ shortened.registry.clock.length ∧
      ∃ current clock, shortened.registry.periodAt 6 = .ok current ∧
        shortened.registry.clock.reanchor 6 nanosPerHour = .ok clock ∧
        clock.length = nanosPerHour ∧ clock.OpensAt current) ∧
    (shortened.registry.clock.length ≠ joined.registry.clock.length ∧ shortened.LeadsTo 0 shortened ∧
      Transition.ActsIn ⟨shortened.registry, .plain bob 6, .updateAllocation 20⟩ 3 ∧
      ∃ current, joined.registry.periodAt 12_000_000_000_000 = .ok current ∧
        shortened.registry.clock.OpensAt current ∧ current ≤ 3) := by
  have chronological : shortened.Chronological := by decide
  have lengthens : nanosPerHour ≠ shortened.registry.clock.length := by decide +kernel
  have changed : shortened.registry.clock.length ≠ joined.registry.clock.length := by
    decide +kernel
  have event : .allocationUpdated bob 10 20 3 ∈
      (Transition.outcome ⟨shortened.registry, .plain bob 6, .updateAllocation 20⟩).events := by
    decide +kernel
  have acts : Transition.ActsIn ⟨shortened.registry, .plain bob 6, .updateAllocation 20⟩ 3 :=
    .resizes rfl event
  obtain ⟨readings, reanchored, -⟩ := periods_never_go_back shortened
  obtain ⟨current, running, opens, later⟩ :=
    (periods_never_go_back joined).2.2 _ _ shortened changed .refl
  exact ⟨⟨chronological, readings chronological⟩,
    ⟨by decide, lengthens, reanchored 6 nanosPerHour (by decide) lengthens⟩,
    changed, .refl, acts, current, running, opens, later _ _ 3 acts⟩

end Run

end StorageIncentives
