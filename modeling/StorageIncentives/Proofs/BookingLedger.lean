import StorageIncentives.Proofs.Failure
import StorageIncentives.Proofs.Growth

/-!
# The booking ledger

The ledger is what the accepted bookings make of it, account by account, in their order and in all.
A booking needs capacity that is allocated when it is made. Nodes may shrink and leave afterwards, so
what is booked stays within the most that has been allocated so far, and not within what is
allocated now.
-/

namespace StorageIncentives

-- ---------------------------------------------------------------------------
-- Entries
-- ---------------------------------------------------------------------------

namespace Bookings

variable {b : Bookings} {a : Account} {units n : Word} {entries : List (Account × Word)}

def total (b : Bookings) : Nat := (b.entries.map (·.2.val)).sum

/-- An account keeps its place, and a new one comes last. -/
theorem map_fst_setEntry : (setEntry a units entries).map (·.1) =
    if a ∈ entries.map (·.1) then entries.map (·.1) else entries.map (·.1) ++ [a] := by
  induction entries with
  | nil => rfl
  | cons entry rest ih =>
    obtain ⟨b, n⟩ := entry
    unfold setEntry
    by_cases hb : b = a
    · simp [hb]
    · rw [if_neg hb, List.map_cons, ih]
      by_cases ha : a ∈ rest.map (·.1)
      · rw [if_pos ha, List.map_cons, if_pos (List.mem_cons_of_mem b ha)]
      · rw [if_neg ha, List.map_cons, if_neg (by simpa [Ne.symm hb] using ha), List.cons_append]

theorem sum_setEntry :
    ((setEntry a units entries).map (·.2.val)).sum + ((entries.lookup a).getD 0).val =
      (entries.map (·.2.val)).sum + units.val := by
  induction entries with
  | nil => simp [setEntry]
  | cons entry rest ih =>
    obtain ⟨b, n⟩ := entry
    unfold setEntry
    by_cases hb : b = a
    · subst hb
      simp only [if_true, List.map_cons, List.sum_cons, List.lookup_cons_self, Option.getD_some]
      omega
    · simp only [if_neg hb, List.map_cons, List.sum_cons, List.lookup_cons,
        beq_eq_false_iff_ne.2 (Ne.symm hb)]
      omega

theorem total_set (b : Bookings) (a : Account) (units : Word) :
    (b.set a units).total + (b.booked a).val = b.total + units.val := sum_setEntry

theorem booked_le_total (b : Bookings) (a : Account) : (b.booked a).val ≤ b.total := by
  have cleared := b.total_set a 0
  change _ = b.total + 0 at cleared
  omega

theorem lookup_of_mem (hd : (entries.map (·.1)).Nodup) (h : (a, n) ∈ entries) :
    entries.lookup a = some n := by
  induction entries with
  | nil => cases h
  | cons entry rest ih =>
    obtain ⟨b, m⟩ := entry
    rw [List.map_cons, List.nodup_cons] at hd
    rcases List.mem_cons.1 h with h | h
    · obtain ⟨rfl, rfl⟩ := Prod.mk.inj h
      exact List.lookup_cons_self
    · have hne : a ≠ b := fun he => hd.1 (he ▸ List.mem_map_of_mem (f := (·.1)) h)
      rw [List.lookup_cons, beq_eq_false_iff_ne.2 hne]
      exact ih hd.2 h

/-- The accounts and what they have booked are all there is. -/
theorem entries_eq (hd : (b.entries.map (·.1)).Nodup) :
    b.entries = (b.entries.map (·.1)).map fun a => (a, b.booked a) := by
  rw [List.map_map]
  conv => lhs; rw [← List.map_id b.entries]
  refine List.map_congr_left fun ⟨a, n⟩ h => ?_
  show (a, n) = (a, ((b.entries.lookup a).getD 0))
  rw [lookup_of_mem hd h, Option.getD_some]

end Bookings

-- ---------------------------------------------------------------------------
-- Lists of bookings
-- ---------------------------------------------------------------------------

/-- What `a` has booked in all. -/
def unitsOf (a : Account) (made : List (Account × Word)) : Nat :=
  ((made.filter (·.1 = a)).map (·.2.val)).sum

/-- The accounts in the order of their first bookings. -/
def bookersOf (made : List (Account × Word)) : List Account := (made.map (·.1)).eraseDups

variable {made : List (Account × Word)} {a b : Account} {units : Word}

theorem mem_bookersOf : a ∈ bookersOf made ↔ ∃ e ∈ made, e.1 = a := by
  rw [bookersOf, List.mem_eraseDups, List.mem_map]

theorem bookersOf_append : bookersOf (made ++ [(a, units)]) =
    if a ∈ bookersOf made then bookersOf made else bookersOf made ++ [a] := by
  simp only [bookersOf, List.map_append, List.eraseDups_append, List.mem_eraseDups]
  generalize made.map (·.1) = accounts
  by_cases h : a ∈ accounts <;> simp [h, List.removeAll, List.eraseDups_cons]

theorem unitsOf_append : unitsOf b (made ++ [(a, units)]) =
    unitsOf b made + if b = a then units.val else 0 := by
  by_cases h : b = a
  · simp [unitsOf, h]
  · simp [unitsOf, h, Ne.symm h]

/-- Whoever has booked has booked something. -/
theorem unitsOf_pos_iff (positive : ∀ e ∈ made, 0 < e.2.val) :
    0 < unitsOf a made ↔ a ∈ bookersOf made := by
  rw [unitsOf, List.sum_pos_iff_exists_pos_nat, mem_bookersOf]
  constructor
  · rintro ⟨_, h, -⟩
    obtain ⟨e, he, -⟩ := List.mem_map.1 h
    obtain ⟨hm, ha⟩ := List.mem_filter.1 he
    exact ⟨e, hm, of_decide_eq_true ha⟩
  · rintro ⟨e, he, ha⟩
    exact ⟨e.2.val, List.mem_map_of_mem (f := (·.2.val))
      (List.mem_filter.2 ⟨he, decide_eq_true ha⟩), positive e he⟩

-- ---------------------------------------------------------------------------
-- What a call does to the ledger
-- ---------------------------------------------------------------------------

/-- The account and the units of a booking that is accepted. -/
def Transition.booking? (t : Transition) : Option (Account × Word) :=
  match t.call, t.outcome.result with
  | .bookCapacity units, .ok _ => some (t.ctx.caller, units)
  | _, _ => none

inductive BookingStep (t : Transition) : Prop
  | kept (unbooked : t.booking? = none) (bookings : t.after.bookings = t.before.bookings)
      (booked : t.after.booked = t.before.booked)
  | made {units own : Word} (accepted : t.booking? = some (t.ctx.caller, units))
      (positive : 0 < units.val)
      (bookings : t.after.bookings = t.before.bookings.set t.ctx.caller own)
      (account : own.val = (t.before.bookings.booked t.ctx.caller).val + units.val)
      (booked : t.after.booked.val = t.before.booked.val + units.val)
      (room : t.after.booked.val ≤ t.after.allocated.val)

/-- What a booking of so many units takes. -/
structure Registry.CanBook (r : Registry) (ctx : Context) (units : Word) : Prop where
  running : r.paused = false
  positive : 0 < units.val
  priced : units.val * r.config.pricePerUnit.val < 2 ^ 128
  paid : units.val * r.config.pricePerUnit.val ≤ ctx.deposit.val
  room : r.booked.val + units.val ≤ r.allocated.val

variable {r : Registry} {ctx : Context} {call : Call} {answer : Answer} {w : World} {t : Transition}

/-- The headroom is held at zero where more is booked than allocated, and then nothing fits. -/
theorem Registry.le_headroom_iff (r : Registry) (positive : 0 < units.val) :
    units ≤ r.headroom ↔ r.booked.val + units.val ≤ r.allocated.val := by
  show units.val ≤ r.allocated.val - r.booked.val ↔ _
  omega

theorem Accepts.canBook (h : Accepts r ctx (.bookCapacity units) answer w) :
    r.CanBook ctx units := by
  cases h with
  | bookCapacity running positive priced paid fits _ _ =>
    have price := Quantity.ofNat?_eq_some_iff.1 priced
    rw [← Quantity.pos_iff_ne_zero] at positive
    exact {
      running
      positive
      priced := price ▸ Fin.isLt _
      paid := price ▸ paid
      room := (r.le_headroom_iff positive).1 fits }

theorem Transition.booking?_of_ok (call : t.call = .bookCapacity units)
    (accepted : t.outcome.result = .ok answer) : t.booking? = some (t.ctx.caller, units) := by
  rw [booking?, call, accepted]

theorem Transition.bookingStep (t : Transition) : BookingStep t := by
  rcases t.cases with ⟨fault, ha, ho⟩ | ⟨answer, w, h, ha, ho⟩
  · exact .kept (by simp [booking?, ho, Outcome.silent]) (congrArg _ ha) (congrArg _ ha)
  have result : t.outcome.result = .ok answer := by rw [ho]
  have bookings : t.after.bookings = w.registry.bookings := by rw [ha]
  have booked : t.after.booked = w.registry.booked := by rw [ha]
  obtain ⟨r, ctx, call⟩ := t
  cases h with
  | bookCapacity running positive priced paid fits own all =>
    have can := (Accepts.bookCapacity running positive priced paid fits own all).canBook
    have sum := Quantity.addOrTrap_eq_ok_iff.1 all
    refine .made (booking?_of_ok rfl result) can.positive bookings
      (Quantity.add?_eq_some_iff.1 own) ?_ ?_
    · rw [booked]
      exact sum
    · rw [ha]
      exact sum ▸ can.room
  | _ => exact .kept (by simp [booking?]) bookings booked

-- ---------------------------------------------------------------------------
-- The ledger of a list of bookings
-- ---------------------------------------------------------------------------

/-- The ledger is what these bookings make of it. -/
structure Registry.LedgerOf (r : Registry) (made : List (Account × Word)) : Prop where
  accounts : r.bookings.entries.map (·.1) = bookersOf made
  units : ∀ a, (r.bookings.booked a).val = unitsOf a made
  total : r.booked.val = r.bookings.total
  positive : ∀ e ∈ made, 0 < e.2.val

namespace Registry.LedgerOf

theorem fresh {admin : Account} {config : Config} {now : Instant} :
    (Registry.fresh admin config now).LedgerOf [] where
  accounts := rfl
  units _ := rfl
  total := rfl
  positive := by simp

theorem step (h : t.before.LedgerOf made) :
    t.after.LedgerOf (made ++ t.booking?.toList) := by
  cases t.bookingStep with
  | kept unbooked bookings booked =>
    rw [unbooked, Option.toList_none, List.append_nil]
    exact {
      accounts := bookings ▸ h.accounts
      units := bookings ▸ h.units
      total := by rw [booked, bookings, h.total]
      positive := h.positive }
  | @made units own accepted positive bookings account booked _ =>
    rw [accepted, Option.toList_some]
    refine ⟨?_, fun a => ?_, ?_, ?_⟩
    · -- A first booking comes last in both lists, and a later one moves nobody.
      rw [bookings, bookersOf_append, ← h.accounts]
      exact Bookings.map_fst_setEntry
    · rw [bookings, Bookings.booked_set, unitsOf_append, ← h.units a]
      by_cases ha : a = t.ctx.caller
      · rw [if_pos ha, if_pos ha, account, ha]
      · rw [if_neg ha, if_neg ha, Nat.add_zero]
    · have sum := t.before.bookings.total_set t.ctx.caller own
      rw [bookings, booked, h.total]
      omega
    · intro e he
      rcases List.mem_append.1 he with he | he
      · exact h.positive e he
      · exact List.mem_singleton.1 he ▸ positive

theorem nodup (h : r.LedgerOf made) : (r.bookings.entries.map (·.1)).Nodup :=
  h.accounts ▸ nodup_eraseDups _

theorem booked_pos_iff (h : r.LedgerOf made) (a : Account) :
    0 < (r.bookings.booked a).val ↔ a ∈ bookersOf made :=
  h.units a ▸ unitsOf_pos_iff h.positive

theorem entries_eq (h : r.LedgerOf made) :
    r.bookings.entries = (bookersOf made).map fun a => (a, r.bookings.booked a) :=
  h.accounts ▸ Bookings.entries_eq h.nodup

/-- The sums of a booking that has room are in range: no account has booked more than all have. -/
theorem exists_accepts (h : r.LedgerOf made) (can : r.CanBook ctx units) :
    ∃ answer w, Accepts r ctx (.bookCapacity units) answer w := by
  have own := r.bookings.booked_le_total ctx.caller
  have total := h.total
  have room := can.room
  have bound := r.allocated.isLt
  have account : Quantity.add? (r.bookings.booked ctx.caller) units =
      some ⟨(r.bookings.booked ctx.caller).val + units.val, by omega⟩ :=
    Quantity.add?_eq_some_iff.2 rfl
  have all : r.booked.addOrTrap units = .ok ⟨r.booked.val + units.val, by omega⟩ :=
    Quantity.addOrTrap_eq_ok_iff.2 rfl
  have price : Amount.ofUnits? units r.config.pricePerUnit = some ⟨_, can.priced⟩ :=
    Quantity.ofNat?_eq_some_iff.2 rfl
  exact ⟨_, _, .bookCapacity can.running (Quantity.pos_iff_ne_zero.1 can.positive) price can.paid
    ((r.le_headroom_iff can.positive).2 room) account all⟩

end Registry.LedgerOf

-- ---------------------------------------------------------------------------
-- What a booking takes and gives
-- ---------------------------------------------------------------------------

namespace Run

/-- The bookings of a run that were accepted, in their order. -/
def bookingsMade (run : Run) : List (Account × Word) := run.transitions.filterMap (·.booking?)

theorem ledgerOf (run : Run) : run.registry.LedgerOf run.bookingsMade := by
  induction run with
  | create admin config genesis r created =>
    obtain ⟨-, rfl⟩ := Registry.create_eq_ok_iff.1 created
    exact .fresh
  | call run ctx c ih =>
    rw [bookingsMade, filterMap_transitions_call]
    exact Registry.LedgerOf.step (t := ⟨run.registry, ctx, c⟩) ih

end Run

end StorageIncentives
