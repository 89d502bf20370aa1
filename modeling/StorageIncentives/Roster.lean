import StorageIncentives.Account

/-!
# Rosters

The members of a set in a fixed order, and the position of each. A member that leaves is replaced
by the last one, so both steps take a bounded number of writes.
-/

namespace StorageIncentives

structure Roster where
  slots : List Account
  positions : Std.ExtTreeMap Account Nat

namespace Roster

def empty : Roster := ⟨[], ∅⟩

def size (r : Roster) : Nat := r.slots.length

def contains (r : Roster) (a : Account) : Bool := r.positions.contains a

def push (r : Roster) (a : Account) : Roster :=
  ⟨r.slots ++ [a], r.positions.insert a r.slots.length⟩

/-- Takes out the item at a position and moves the last one there. -/
def swapErase (slots : List Account) (i : Nat) : List Account :=
  match slots.getLast? with
  | some last => (slots.set i last).dropLast
  | none => []

/-- Takes out `a`, which stands at position `i`. -/
def eraseAt (r : Roster) (a : Account) (i : Nat) : Roster :=
  let slots := swapErase r.slots i
  let positions := r.positions.erase a
  match slots[i]? with
  | some moved => ⟨slots, positions.insert moved i⟩
  | none => ⟨slots, positions⟩

/-- The roster with a new member, or `none` if it is one already. -/
def insert? (r : Roster) (a : Account) : Option Roster :=
  if r.contains a then none else some (r.push a)

/-- The roster without a member, or `none` if it is not one. -/
def erase? (r : Roster) (a : Account) : Option Roster := (r.positions[a]?).map (r.eraseAt a)

end Roster

end StorageIncentives
