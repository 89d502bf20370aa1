import StorageIncentives.Proofs.PeriodTotals
import StorageIncentives.Proofs.Roster

/-!
# What grows with the calls

No list of the registry and no counter of things gets longer by more than one in a call. So after a
run each is at most as long as the run, and the positions in the rosters are those of their slots.
-/

namespace StorageIncentives

open Std (ExtTreeMap)

variable {r : Registry} {ctx : Context} {call : Call} {answer : Answer} {w : World} {k : Nat}
  {p : Period}

-- ---------------------------------------------------------------------------
-- The parts
-- ---------------------------------------------------------------------------

namespace History

variable {h : History} {s : PeriodStats}

/-- No record counts more than `k` active nodes. -/
structure CountsAtMost (h : History) (k : Nat) : Prop where
  record : ∀ (p : Period) (s : PeriodStats), h.records[p]? = some s → s.activeNodes.val ≤ k

theorem CountsAtMost.mono {k' : Nat} (hc : h.CountsAtMost k) (hk : k ≤ k') :
    h.CountsAtMost k' where
  record p s hs := Nat.le_trans (hc.record p s hs) hk

/-- Carried totals are those of a record too. -/
theorem CountsAtMost.statsAt (hc : h.CountsAtMost k) (p : Period) :
    (h.statsAt p).activeNodes.val ≤ k := by
  cases hr : h.records[p]? with
  | some s =>
    rw [statsAt_of_record hr]
    exact hc.record p s hr
  | none =>
    rw [statsAt_of_none hr]
    cases hb : (h.latest? p).bind (h.records[·]?) with
    | none => exact Nat.zero_le _
    | some s =>
      obtain ⟨q, -, hq⟩ := Option.bind_eq_some_iff.1 hb
      exact hc.record q s hq

theorem CountsAtMost.put (hc : h.CountsAtMost k) (hs : s.activeNodes.val ≤ k) :
    (h.put p s).CountsAtMost k where
  record := forall_getElem?_insert hc.record hs

theorem size_index_put : (h.put p s).index.size ≤ h.index.size + 1 := by
  unfold put
  split
  · simp
  · exact Nat.le_succ _

end History

theorem Bookings.size_set {b : Bookings} {a : Account} {units : Word} :
    (b.set a units).size ≤ b.size + 1 := by
  show (setEntry a units b.entries).length ≤ b.entries.length + 1
  induction b.entries with
  | nil => exact Nat.le_refl _
  | cons entry rest ih =>
    unfold setEntry
    split
    · exact Nat.le_succ _
    · exact Nat.succ_le_succ ih

namespace Roster

variable {s s' : Roster} {a : Account}

theorem size_insert? (h : s.insert? a = some s') : s'.size ≤ s.size + 1 := by
  obtain ⟨-, rfl⟩ := eq_push_of_insert? h
  exact Nat.le_of_eq size_push

end Roster

-- ---------------------------------------------------------------------------
-- The registry
-- ---------------------------------------------------------------------------

namespace Registry

/-- Nothing has more than `k` entries. -/
structure SizesWithin (r : Registry) (k : Nat) : Prop where
  activeNodes : r.activeNodes.size ≤ k
  challengers : r.challengers.size ≤ k
  storageAdmins : r.storageAdmins.size ≤ k
  bookings : r.bookings.size ≤ k
  index : r.history.index.size ≤ k
  counted : r.history.CountsAtMost k
  issued : r.challengesIssued.val ≤ k

theorem SizesWithin.fresh {admin : Account} {config : Config} {now : Instant} :
    (Registry.fresh admin config now).SizesWithin 0 where
  activeNodes := Nat.le_refl _
  challengers := Nat.le_refl _
  storageAdmins := Nat.le_refl _
  bookings := Nat.le_refl _
  index := Nat.le_refl _
  counted := ⟨fun p s hs => by simp [Registry.fresh, History.empty] at hs⟩
  issued := Nat.le_refl _

theorem SizesWithin.mono {k' : Nat} (hr : r.SizesWithin k) (hk : k ≤ k') : r.SizesWithin k' where
  activeNodes := Nat.le_trans hr.activeNodes hk
  challengers := Nat.le_trans hr.challengers hk
  storageAdmins := Nat.le_trans hr.storageAdmins hk
  bookings := Nat.le_trans hr.bookings hk
  index := Nat.le_trans hr.index hk
  counted := hr.counted.mono hk
  issued := Nat.le_trans hr.issued hk

/-- A call that writes the record of a period. -/
theorem SizesWithin.of_put {r' : Registry} {s : PeriodStats} (hr : r.SizesWithin k)
    (history : r'.history = r.history.put p s) (counted : s.activeNodes.val ≤ k + 1)
    (activeNodes : r'.activeNodes.size ≤ k + 1) (issued : r'.challengesIssued.val ≤ k + 1)
    (challengers : r'.challengers = r.challengers)
    (storageAdmins : r'.storageAdmins = r.storageAdmins) (bookings : r'.bookings = r.bookings) :
    r'.SizesWithin (k + 1) where
  activeNodes := activeNodes
  challengers := challengers ▸ Nat.le_succ_of_le hr.challengers
  storageAdmins := storageAdmins ▸ Nat.le_succ_of_le hr.storageAdmins
  bookings := bookings ▸ Nat.le_succ_of_le hr.bookings
  index := history ▸ Nat.le_trans History.size_index_put (Nat.succ_le_succ hr.index)
  counted := history ▸ (hr.counted.mono (Nat.le_succ k)).put counted
  issued := issued

theorem SizesWithin.step (h : Accepts r ctx call answer w) (hr : r.SizesWithin k) :
    w.registry.SizesWithin (k + 1) := by
  have later := hr.mono (Nat.le_succ k)
  have counted (p : Period) : (r.statsAt p).activeNodes.val ≤ k := hr.counted.statsAt p
  cases h with
  | addChallenger _ inserted =>
    exact { later with
      challengers :=
        Nat.le_trans (Roster.size_insert? inserted) (Nat.succ_le_succ hr.challengers) }
  | removeChallenger _ erased =>
    refine { later with challengers := ?_ }
    exact Roster.size_erase? erased ▸ Nat.le_trans (Nat.sub_le _ _) later.challengers
  | addStorageAdmin _ inserted =>
    exact { later with
      storageAdmins :=
        Nat.le_trans (Roster.size_insert? inserted) (Nat.succ_le_succ hr.storageAdmins) }
  | removeStorageAdmin _ erased =>
    refine { later with storageAdmins := ?_ }
    exact Roster.size_erase? erased ▸ Nat.le_trans (Nat.sub_le _ _) later.storageAdmins
  | registerNode _ _ _ _ _ counted' =>
    refine hr.of_put rfl ?_ ?_ later.issued rfl rfl rfl
    · exact Quantity.succOrTrap_eq_ok_iff.1 counted' ▸ Nat.succ_le_succ (counted _)
    · exact Nat.le_trans (Nat.le_of_eq Roster.size_push) (Nat.succ_le_succ hr.activeNodes)
  | updateAllocation _ _ _ _ _ _ _ =>
    exact hr.of_put rfl (Nat.le_succ_of_le (counted _)) later.activeNodes later.issued rfl rfl rfl
  | unregisterNode _ _ _ erased _ _ =>
    refine hr.of_put rfl ?_ ?_ later.issued rfl rfl rfl
    · exact Nat.le_trans (Nat.sub_le _ _) (Nat.le_succ_of_le (counted _))
    · exact Roster.size_erase? erased ▸ Nat.le_trans (Nat.sub_le _ _) later.activeNodes
  | issueChallenge _ _ _ _ _ _ _ _ _ _ _ total =>
    refine hr.of_put rfl (Nat.le_succ_of_le (counted _)) later.activeNodes ?_ rfl rfl rfl
    exact Quantity.succOrTrap_eq_ok_iff.1 total ▸ Nat.succ_le_succ hr.issued
  | proofPassed _ _ _ _ _ _ _ _ _ =>
    exact hr.of_put rfl (Nat.le_succ_of_le (counted _)) later.activeNodes later.issued rfl rfl rfl
  | distributeRewards _ _ _ _ _ _ _ _ _ =>
    exact hr.of_put rfl (Nat.le_succ_of_le (counted _)) later.activeNodes later.issued rfl rfl rfl
  | bookCapacity _ _ _ _ _ _ _ =>
    exact { later with
      bookings := Nat.le_trans Bookings.size_set (Nat.succ_le_succ hr.bookings) }
  | _ => exact { later with }

/-- The positions in the rosters of roles are those of their slots. -/
structure RolesWellFormed (r : Registry) : Prop where
  challengers : r.challengers.WellFormed
  storageAdmins : r.storageAdmins.WellFormed

theorem RolesWellFormed.step (h : Accepts r ctx call answer w) (hr : r.RolesWellFormed) :
    w.registry.RolesWellFormed := by
  cases h with
  | addChallenger _ inserted => exact ⟨hr.challengers.insert? inserted, hr.storageAdmins⟩
  | removeChallenger _ erased => exact ⟨(hr.challengers.erase? erased).1, hr.storageAdmins⟩
  | addStorageAdmin _ inserted => exact ⟨hr.challengers, hr.storageAdmins.insert? inserted⟩
  | removeStorageAdmin _ erased => exact ⟨hr.challengers, (hr.storageAdmins.erase? erased).1⟩
  | _ => exact ⟨hr.challengers, hr.storageAdmins⟩

end Registry

namespace Run

theorem sizesWithin (run : Run) : run.registry.SizesWithin run.transitions.length := by
  induction run with
  | create admin config genesis r created =>
    obtain ⟨-, rfl⟩ := Registry.create_eq_ok_iff.1 created
    exact .fresh
  | call run ctx c ih =>
    rw [length_transitions_call]
    exact Transition.after_of_accepts (P := fun r => r.SizesWithin _) ⟨run.registry, ctx, c⟩
      (ih.mono (Nat.le_succ _)) fun ha => ih.step ha

theorem rolesWellFormed (run : Run) : run.registry.RolesWellFormed :=
  run.invariant (fun _ => ⟨.empty, .empty⟩) .step

end Run

end StorageIncentives
