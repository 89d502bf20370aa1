import StorageIncentives.Account
import StorageIncentives.Quantity

/-!
# Bookings

The capacity that each uploader has booked, in the order of the first bookings. Bookings only grow.
-/

namespace StorageIncentives

structure Bookings where
  entries : List (Account × Word)

namespace Bookings

def empty : Bookings := ⟨[]⟩

def size (b : Bookings) : Nat := b.entries.length

def booked? (b : Bookings) (a : Account) : Option Word := b.entries.lookup a

/-- Units booked by an account, none at first. -/
def booked (b : Bookings) (a : Account) : Word := (b.booked? a).getD 0

def setEntry (a : Account) (units : Word) : List (Account × Word) → List (Account × Word)
  | [] => [(a, units)]
  | (b, n) :: rest => if b = a then (b, units) :: rest else (b, n) :: setEntry a units rest

def set (b : Bookings) (a : Account) (units : Word) : Bookings := ⟨setEntry a units b.entries⟩

theorem lookup_setEntry (a b : Account) (units : Word) (entries : List (Account × Word)) :
    (setEntry a units entries).lookup b = if b = a then some units else entries.lookup b := by
  induction entries with
  | nil =>
    by_cases h : b = a
    · simp [setEntry, h]
    · simp [setEntry, List.lookup_cons, h, beq_eq_false_iff_ne.2 h]
  | cons entry rest ih =>
    obtain ⟨c, n⟩ := entry
    by_cases hc : c = a
    · subst hc
      by_cases h : b = c
      · simp [setEntry, h]
      · simp [setEntry, List.lookup_cons, h, beq_eq_false_iff_ne.2 h]
    · by_cases h : b = c
      · subst h
        simp [setEntry, hc]
      · simp [setEntry, List.lookup_cons, hc, beq_eq_false_iff_ne.2 h, ih]

theorem booked_set (b : Bookings) (a c : Account) (units : Word) :
    (b.set a units).booked c = if c = a then units else b.booked c := by
  simp only [booked, booked?, set, lookup_setEntry]
  split <;> rfl

end Bookings

end StorageIncentives
