import Std.Data.ExtTreeMap

/-!
# Account names

An account is known by its name: 2 to 64 characters, runs of lower-case letters and digits with
one separator between two runs. The rule is part of the type, so a name that breaks it cannot
enter the registry. Accounts are ordered by name, which lets them be keys of maps.
-/

namespace StorageIncentives

namespace Account

def isAlphanumeric (c : Char) : Bool := c.isLower || c.isDigit
def isSeparator (c : Char) : Bool := c = '-' || c = '_' || c = '.'

/-- Separators stand singly between letters or digits. The flag says whether the character before
was one of these. -/
def separated : Bool → List Char → Bool
  | inRun, [] => inRun
  | inRun, c :: rest =>
    if isAlphanumeric c then separated true rest else inRun && isSeparator c && separated false rest

def IsName (name : String) : Prop :=
  2 ≤ name.length ∧ name.length ≤ 64 ∧ separated false name.toList = true

instance (name : String) : Decidable (IsName name) :=
  inferInstanceAs (Decidable (_ ∧ _ ∧ _))

end Account

structure Account where
  name : String
  isName : Account.IsName name
  deriving DecidableEq

namespace Account

def ofName? (name : String) : Option Account :=
  if h : IsName name then some ⟨name, h⟩ else none

theorem ext {a b : Account} (h : a.name = b.name) : a = b := by
  cases a; cases b; cases h; rfl

theorem ofName?_name (a : Account) : ofName? a.name = some a := by
  simp [ofName?, a.isName]

instance : Ord Account := ⟨fun a b => compare a.name b.name⟩

theorem compare_eq (a b : Account) : compare a b = compare a.name b.name := rfl

instance : Std.TransOrd Account where
  eq_swap {a b} := Std.OrientedOrd.eq_swap (α := String) (a := a.name) (b := b.name)
  isLE_trans {a b c} :=
    Std.TransOrd.isLE_trans (α := String) (a := a.name) (b := b.name) (c := c.name)

instance : Std.LawfulEqOrd Account where
  eq_of_compare h := ext (Std.LawfulEqOrd.eq_of_compare (α := String) h)

end Account

end StorageIncentives
