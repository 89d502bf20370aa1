import StorageIncentives.Event
import StorageIncentives.Receipt
import StorageIncentives.Registry

/-!
# Procedures

The body of a call: it reads its context, and reads and writes the registry, the events and the
receipts one step at a time. What was written before an error is still there after it; undoing the
writes of a failed call is not the work of its body. So a statement that a rejected procedure wrote
nothing is about the procedure alone.
-/

namespace StorageIncentives

structure Context where
  caller : Account
  /-- The account that holds the registry. -/
  self : Account
  now : Instant
  deposit : Amount
  /-- What the registry's account held before the deposit. -/
  balance : Amount
  locked : Amount
  storageUsage : Word
  input : Bytes

namespace Context

def storageBytePrice : Nat := 10_000_000_000_000_000_000

/-- What the registry can pay out: its balance with the deposit, less what is locked or held
against its storage. -/
def available (c : Context) : Nat :=
  c.balance.val + c.deposit.val - c.locked.val - c.storageUsage.val * storageBytePrice

end Context

structure World where
  registry : Registry
  events : List Event
  receipts : List Receipt

abbrev Procedure := ReaderT Context (ExceptT Fault (StateM World))

/-- The result of a procedure and the world that it leaves, also on failure. -/
def Procedure.runIn {α : Type} (p : Procedure α) (ctx : Context) (w : World) :
    Except Fault α × World :=
  (p.run ctx).run.run w

namespace Procedure

variable {α β : Type}

def reject (cause : Rejection) : Procedure α := throw (.rejected cause)

def require (p : Prop) [Decidable p] (cause : Rejection) : Procedure Unit :=
  if p then pure () else reject cause

/-- The value, or a rejection where there is none. -/
def found (value : Option α) (cause : Rejection) : Procedure α :=
  match value with
  | some a => pure a
  | none => reject cause

/-- What passed a check of its own. -/
def accepted : Except Rejection α → Procedure α
  | .ok a => pure a
  | .error cause => reject cause

/-- The result of arithmetic that may trap. -/
def computed : Except Trap α → Procedure α
  | .ok a => pure a
  | .error trap => throw (.trapped trap)

def registry : Procedure Registry := do return (← get).registry

def update (f : Registry → Registry) : Procedure Unit :=
  modify fun w => { w with registry := f w.registry }

def emit (e : Event) : Procedure Unit := modify fun w => { w with events := w.events ++ [e] }

def promise (r : Receipt) : Procedure Unit :=
  modify fun w => { w with receipts := w.receipts ++ [r] }

def caller : Procedure Account := do return (← read).caller

def now : Procedure Instant := do return (← read).now

def currentPeriod : Procedure Period := do computed ((← registry).periodAt (← now))

/-- Replaces the record of a period. -/
def amendStats (p : Period) (f : PeriodStats → Except Trap PeriodStats) : Procedure Unit := do
  let stats ← computed (f ((← registry).statsAt p))
  update fun r => { r with history := r.history.put p stats }

def setNode (a : Account) (n : Node) : Procedure Unit :=
  update fun r => { r with nodes := r.nodes.insert a n }

def setChallenge (id : String) (c : Challenge) : Procedure Unit :=
  update fun r => { r with challenges := r.challenges.insert id c }

def requireUnpaused : Procedure Unit := do require (¬ (← registry).paused) .paused

def requireAdmin : Procedure Unit := do
  require ((← caller) = (← registry).admin) (.onlyFor .admin)

def requireChallenger : Procedure Unit := do
  require ((← registry).isChallenger (← caller)) (.onlyFor .challenger)

/-- A deposit of one unit shows that the caller signed with a full key. -/
def requireOneYocto : Procedure Unit := do require ((← read).deposit = 1) .oneYoctoRequired

def requireLabel (label : Label) (text : String) : Procedure Unit :=
  require (0 < text.utf8ByteSize ∧ text.utf8ByteSize ≤ label.maxBytes) (.badLength label)

end Procedure

/-!
## Running procedures

A procedure is followed step by step through these equations.
-/

namespace Procedure

variable {α β : Type} {ctx : Context} {w : World}

theorem runIn_pure (a : α) : (pure a : Procedure α).runIn ctx w = (.ok a, w) := rfl

theorem runIn_bind (x : Procedure α) (f : α → Procedure β) :
    (x >>= f).runIn ctx w =
      match x.runIn ctx w with
      | (.ok a, w') => (f a).runIn ctx w'
      | (.error e, w') => (.error e, w') := by
  simp only [runIn, ReaderT.run_bind, ExceptT.run_bind, StateT.run_bind]
  change (match ((x.run ctx).run.run w) with | (a, w') => _) = _
  cases (x.run ctx).run.run w with
  | mk result w' => cases result <;> rfl

theorem runIn_reject (cause : Rejection) :
    (reject cause : Procedure α).runIn ctx w = (.error (.rejected cause), w) := rfl

theorem runIn_require (p : Prop) [Decidable p] (cause : Rejection) :
    (require p cause).runIn ctx w = (if p then .ok () else .error (.rejected cause), w) := by
  unfold require
  split <;> rfl

theorem runIn_found (value : Option α) (cause : Rejection) :
    (found value cause).runIn ctx w = (value.elim (.error (.rejected cause)) .ok, w) := by
  cases value <;> rfl

theorem runIn_accepted (e : Except Rejection α) :
    (accepted e).runIn ctx w = (e.mapError .rejected, w) := by
  cases e <;> rfl

theorem runIn_computed (e : Except Trap α) :
    (computed e).runIn ctx w = (e.mapError .trapped, w) := by
  cases e <;> rfl

theorem runIn_read : (read : Procedure Context).runIn ctx w = (.ok ctx, w) := rfl

theorem runIn_registry : registry.runIn ctx w = (.ok w.registry, w) := rfl
theorem runIn_caller : caller.runIn ctx w = (.ok ctx.caller, w) := rfl
theorem runIn_now : now.runIn ctx w = (.ok ctx.now, w) := rfl

theorem runIn_update (f : Registry → Registry) :
    (update f).runIn ctx w = (.ok (), { w with registry := f w.registry }) := rfl

theorem runIn_emit (e : Event) :
    (emit e).runIn ctx w = (.ok (), { w with events := w.events ++ [e] }) := rfl

theorem runIn_promise (r : Receipt) :
    (promise r).runIn ctx w = (.ok (), { w with receipts := w.receipts ++ [r] }) := rfl

end Procedure

end StorageIncentives
