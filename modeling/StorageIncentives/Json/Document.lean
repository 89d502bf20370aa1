/-!
# JSON documents as read

A document keeps what a reader of typed values must see: members in the order of the text and with
their repetitions, which numbers are plain natural numbers, and which strings hold an unpaired
surrogate and so are no text. The last two are malformed only where a value is wanted of them.
-/

namespace StorageIncentives

inductive Document where
  | null
  | bool (b : Bool)
  | natural (n : Nat)
  /-- A number with a sign, a fraction or an exponent. -/
  | number
  | text (s : Option String)
  | array (items : List Document)
  | object (members : List (Option String × Document))

end StorageIncentives
