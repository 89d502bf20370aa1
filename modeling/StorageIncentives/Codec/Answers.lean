import StorageIncentives.Call
import StorageIncentives.Codec.Records

/-!
# Answers in JSON

The written form of what calls and queries give back, of receipts and of rejections.
-/

namespace StorageIncentives

def Answer.toJson : Answer → Json
  | .nothing => .null
  | .flag b => .bool b
  | .count n => .number n
  | .amount a => .decimal a
  | .text s => .string s
  | .account a => .account a
  | .accountAt a => .option Json.account a
  | .accounts list => .list Json.account list
  | .bookings list => .list (fun (a, units) => .array [.account a, .word units]) list
  | .config c => c.toJson
  | .clock c => c.toJson
  | .overview o => o.toJson
  | .periodStats s => s.toJson
  | .node n => .option Node.toJson n
  | .metadata m => m.toJson
  | .challenge c => .option ChallengeView.toJson c
  | .usage u => u.toJson

def ReceiptAction.toJson : ReceiptAction → Json
  | .transfer amount => .object [("action", .string "transfer"), ("amount", .decimal amount)]
  | .deployContract code => .object [("action", .string "deploy_contract"), ("code", .bytes code)]
  | .functionCall method arguments deposit gas =>
    .object
      [("action", .string "function_call"), ("method", .string method), ("args", .bytes arguments),
       ("deposit", .decimal deposit), ("gas", .decimal gas)]

def Receipt.toJson (r : Receipt) : Json :=
  .object [("receiver", .account r.receiver), ("actions", .list ReceiptAction.toJson r.actions)]

/-- The form of a report for programs. -/
def Report.toJson : Report → Json
  | .contractPaused => .string Report.contractPaused.tag
  | .detailed reason detail => .object [(reason.tag, .string detail)]

end StorageIncentives
