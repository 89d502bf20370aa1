import StorageIncentives.Trap

/-!
# Bounded quantities

Counts, capacities, instants and period numbers are 64-bit words; sums of money have 128 bits.
Both are `Fin`, so a quantity lies in its range by its type. A result that leaves the range is
`none` (`add?`), held at the nearest bound (`addSat`) or a trap (`addOrTrap`). The operators of
`Fin` wrap around and are not used.
-/

namespace StorageIncentives

-- The bounds below are core powers and a numeral is one term, whatever else is in scope.
instance corePow : Pow Nat Nat := instPowNat

abbrev Quantity (bits : Nat) := Fin (2 ^ bits)

instance numeral (bits n : Nat) : OfNat (Quantity bits) n :=
  @Fin.instOfNat _ ⟨Nat.ne_of_gt (Nat.two_pow_pos bits)⟩ n

abbrev Word := Quantity 64
abbrev Amount := Quantity 128

/-- The number of a reward period. -/
abbrev Period := Word

/-- A block timestamp in nanoseconds. -/
abbrev Instant := Word

namespace Quantity

variable {bits : Nat}

def ofNat? (n : Nat) : Option (Quantity bits) := if h : n < 2 ^ bits then some ⟨n, h⟩ else none

def ofNatSat (n : Nat) : Quantity bits :=
  ⟨min n (2 ^ bits - 1), by have := Nat.two_pow_pos bits; omega⟩

def add? (a b : Quantity bits) : Option (Quantity bits) := ofNat? (a.val + b.val)
def mul? (a b : Quantity bits) : Option (Quantity bits) := ofNat? (a.val * b.val)

def addSat (a b : Quantity bits) : Quantity bits := ofNatSat (a.val + b.val)
def mulSat (a b : Quantity bits) : Quantity bits := ofNatSat (a.val * b.val)
def subSat (a b : Quantity bits) : Quantity bits := ⟨a.val - b.val, by omega⟩

def addOrTrap (a b : Quantity bits) : Except Trap (Quantity bits) :=
  (add? a b).elim (.error .addOverflow) .ok

def subOrTrap (a b : Quantity bits) : Except Trap (Quantity bits) :=
  if b ≤ a then .ok (subSat a b) else .error .subUnderflow

def divOrTrap (a b : Quantity bits) : Except Trap (Quantity bits) :=
  if b.val = 0 then .error .divisionByZero
  else .ok ⟨a.val / b.val, Nat.lt_of_le_of_lt (Nat.div_le_self ..) a.isLt⟩

def succOrTrap (a : Quantity bits) : Except Trap (Quantity bits) :=
  (ofNat? (a.val + 1)).elim (.error .addOverflow) .ok

theorem ofNat?_eq_some_iff {n : Nat} {q : Quantity bits} : ofNat? n = some q ↔ q.val = n := by
  unfold ofNat?
  split
  · simp [Fin.ext_iff, eq_comm]
  · rename_i h
    simp only [reduceCtorEq, false_iff]
    intro he
    exact h (he ▸ q.isLt)

theorem ofNat?_eq_none_iff {n : Nat} :
    (ofNat? n : Option (Quantity bits)) = none ↔ 2 ^ bits ≤ n := by
  simp [ofNat?]

theorem add?_eq_some_iff {a b c : Quantity bits} : add? a b = some c ↔ c.val = a.val + b.val :=
  ofNat?_eq_some_iff

theorem add?_eq_none_iff {a b : Quantity bits} : add? a b = none ↔ 2 ^ bits ≤ a.val + b.val :=
  ofNat?_eq_none_iff

theorem mul?_eq_some_iff {a b c : Quantity bits} : mul? a b = some c ↔ c.val = a.val * b.val :=
  ofNat?_eq_some_iff

theorem val_addSat (a b : Quantity bits) : (addSat a b).val = min (a.val + b.val) (2 ^ bits - 1) :=
  rfl

theorem val_mulSat (a b : Quantity bits) : (mulSat a b).val = min (a.val * b.val) (2 ^ bits - 1) :=
  rfl

theorem val_subSat (a b : Quantity bits) : (subSat a b).val = a.val - b.val := rfl

theorem pos_iff_ne_zero {a : Quantity bits} : 0 < a.val ↔ a ≠ 0 := by
  rw [Nat.pos_iff_ne_zero, ne_eq, ne_eq, Fin.ext_iff]
  rfl

theorem add_subSat {a b : Quantity bits} (h : b ≤ a) : b.val + (subSat a b).val = a.val :=
  Nat.add_sub_of_le h

theorem addSat_of_add? {a b c : Quantity bits} (h : add? a b = some c) : addSat a b = c := by
  have hc := add?_eq_some_iff.1 h
  have := c.isLt
  refine Fin.ext ?_
  rw [val_addSat]
  omega

theorem addOrTrap_eq_ok_iff {a b c : Quantity bits} :
    addOrTrap a b = .ok c ↔ c.val = a.val + b.val := by
  rw [← add?_eq_some_iff, addOrTrap]
  cases add? a b <;> simp

theorem subOrTrap_eq_ok_iff {a b c : Quantity bits} :
    subOrTrap a b = .ok c ↔ c.val + b.val = a.val := by
  unfold subOrTrap
  split
  · rename_i h
    have : b.val ≤ a.val := h
    simp only [Except.ok.injEq, Fin.ext_iff, val_subSat]
    omega
  · rename_i h
    have : ¬ b.val ≤ a.val := h
    simp only [reduceCtorEq, false_iff]
    omega

theorem exists_subOrTrap {a b : Quantity bits} (h : b ≤ a) : ∃ c, a.subOrTrap b = .ok c :=
  ⟨a.subSat b, if_pos h⟩

theorem divOrTrap_eq_ok_iff {a b c : Quantity bits} :
    divOrTrap a b = .ok c ↔ b.val ≠ 0 ∧ c.val = a.val / b.val := by
  unfold divOrTrap
  split
  · rename_i h
    simp [h]
  · rename_i h
    simp [h, Fin.ext_iff, eq_comm]

theorem subSat_of_subOrTrap {a b c : Quantity bits} (h : subOrTrap a b = .ok c) :
    subSat a b = c := by
  have hc := subOrTrap_eq_ok_iff.1 h
  refine Fin.ext ?_
  rw [val_subSat]
  omega

theorem succOrTrap_eq_ok_iff {a c : Quantity bits} :
    succOrTrap a = .ok c ↔ c.val = a.val + 1 := by
  rw [← ofNat?_eq_some_iff, succOrTrap]
  cases (ofNat? (a.val + 1) : Option (Quantity bits)) <;> simp

theorem exists_succOrTrap {a : Quantity bits} (h : a.val + 1 < 2 ^ bits) :
    ∃ next, a.succOrTrap = .ok next := ⟨⟨a.val + 1, h⟩, succOrTrap_eq_ok_iff.2 rfl⟩

end Quantity

/-- The price of so many units at a rate, or `none` past the range of money. -/
def Amount.ofUnits? (units : Word) (rate : Amount) : Option Amount :=
  Quantity.ofNat? (units.val * rate.val)

end StorageIncentives
