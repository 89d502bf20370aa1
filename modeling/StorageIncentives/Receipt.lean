import StorageIncentives.Account
import StorageIncentives.Base64
import StorageIncentives.Quantity

/-!
# Receipts

The work that a call leaves for the chain to carry out after it: payments, and the two steps of an
upgrade.
-/

namespace StorageIncentives

inductive ReceiptAction where
  | transfer (amount : Amount)
  | deployContract (code : Bytes)
  | functionCall (method : String) (arguments : Bytes) (deposit : Amount) (gas : Word)
  deriving DecidableEq

structure Receipt where
  receiver : Account
  actions : List ReceiptAction
  deriving DecidableEq

def Receipt.payment (receiver : Account) (amount : Amount) : Receipt :=
  ⟨receiver, [.transfer amount]⟩

end StorageIncentives
