/-!
# Decimal text of natural numbers

Numbers are written with no leading zero. Reading is more liberal: leading zeros and one plus sign
are taken, and nothing else but ASCII digits.
-/

namespace StorageIncentives.Decimal

def write (n : Nat) : String := toString n

def digit? (c : Char) : Option Nat := if c.isDigit then some (c.toNat - '0'.toNat) else none

def digits? : List Char → Option Nat
  | [] => none
  | cs => cs.foldlM (fun n c => (digit? c).map (10 * n + ·)) 0

def read? (text : String) : Option Nat :=
  match text.toList with
  | '+' :: rest => digits? rest
  | cs => digits? cs

end StorageIncentives.Decimal
