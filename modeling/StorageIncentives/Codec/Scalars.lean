import StorageIncentives.Account
import StorageIncentives.Base64
import StorageIncentives.Json.Members
import StorageIncentives.Json.Value
import StorageIncentives.Quantity

/-!
# Scalars in JSON

Words are numbers and amounts are decimal strings. Words that use all of their range are decimal
strings too, since a reader may hold numbers as floats. Bytes are base64 strings.
-/

namespace StorageIncentives

namespace Document

def word? (d : Document) : Option Word := d.natural?.bind Quantity.ofNat?

/-- A number that fits 32 bits. -/
def count? (d : Document) : Option Nat :=
  d.natural?.bind fun n => (Quantity.ofNat? n : Option (Quantity 32)).map (·.val)

/-- A quantity as a decimal string. -/
def decimal? {bits : Nat} (d : Document) : Option (Quantity bits) := do
  Quantity.ofNat? (← Decimal.read? (← d.text?))

def account? (d : Document) : Option Account := d.text?.bind Account.ofName?

def bytes? (d : Document) : Option Bytes := d.text?.bind Base64.read?

end Document

namespace Json

def word (w : Word) : Json := .number w.val

def decimal {bits : Nat} (q : Quantity bits) : Json := .string (Decimal.write q.val)

def account (a : Account) : Json := .string a.name

def bytes (b : Bytes) : Json := .string (Base64.write b)

end Json

end StorageIncentives
