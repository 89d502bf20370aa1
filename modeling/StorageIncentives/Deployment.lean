import StorageIncentives.Call

/-!
# Deployments

An account holds a registry or none yet. Creating one replaces what was there, unless its
configuration is turned down.
-/

namespace StorageIncentives

inductive Request where
  | create (admin : Account) (config : Option Config)
  | call (call : Call)
  | query (query : Query)

abbrev Deployment := Option Registry

namespace Deployment

/-- How a call fails where there is no registry. -/
def absent : Call → Trap
  | .migrate => .stateMissing
  | _ => .notInitialized

def create (d : Deployment) (admin : Account) (config : Option Config) (now : Instant) :
    Deployment × Outcome :=
  match Registry.create admin (config.getD .default) now with
  | .ok r => (some r, .silent (.ok .nothing))
  | .error cause => (d, .silent (.error (.rejected cause)))

def perform (d : Deployment) (ctx : Context) (call : Call) : Deployment × Outcome :=
  match d with
  | some r => let (r, outcome) := r.perform ctx call; (some r, outcome)
  | none => (none, .silent (.error (.trapped (absent call))))

def answer (d : Deployment) (now : Instant) (query : Query) : Outcome :=
  match d with
  | some r => .silent ((query.answer r now).mapError .trapped)
  | none => .silent (.error (.trapped .notInitialized))

def handle (d : Deployment) (ctx : Context) : Request → Deployment × Outcome
  | .create admin config => d.create admin config ctx.now
  | .call call => d.perform ctx call
  | .query query => (d, d.answer ctx.now query)

end Deployment

end StorageIncentives
