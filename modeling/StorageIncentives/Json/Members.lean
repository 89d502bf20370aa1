import StorageIncentives.Json.Document

/-!
# Members of records

A record is read from an object, whose members may come in any order and beside unknown ones, or
from an array of its members in their own order. An unknown member may be repeated, a known one
may not.
-/

namespace StorageIncentives

abbrev Members := List (String × Document)

namespace Members

variable {α : Type}

def required (m : Members) (name : String) (decode : Document → Option α) : Option α :=
  (m.lookup name).bind decode

def defaulted (m : Members) (name : String) (decode : Document → Option α) (fallback : α) :
    Option α :=
  match m.lookup name with
  | none => some fallback
  | some d => decode d

/-- A member that may be missing or `null`. -/
def optional (m : Members) (name : String) (decode : Document → Option α) : Option (Option α) :=
  match m.lookup name with
  | none | some .null => some none
  | some d => (decode d).map some

def repeats (m : Members) (names : List String) : Bool :=
  names.any fun name => 1 < m.countP (·.1 = name)

end Members

namespace Document

variable {α : Type}

/-- The members of an object whose keys are all texts. -/
def members? : Document → Option Members
  | .object members => members.mapM fun (key, v) => key.map (·, v)
  | _ => none

/-- The members of a record with these names; an array may leave off the last `optional` ones. -/
def record? (names : List String) (optional : Nat) : Document → Option Members
  | .array items =>
    if items.length ≤ names.length ∧ names.length ≤ items.length + optional then
      some (names.zip items)
    else none
  | d => do
    let m ← d.members?
    if m.repeats names then none else some m

def list? (decode : Document → Option α) : Document → Option (List α)
  | .array items => items.mapM decode
  | _ => none

def text? : Document → Option String
  | .text s => s
  | _ => none

def bool? : Document → Option Bool
  | .bool b => some b
  | _ => none

def natural? : Document → Option Nat
  | .natural n => some n
  | _ => none

/-- One of several names, as a text or as the only key of an object that holds `null`. -/
def choice? (choices : List (String × α)) : Document → Option α
  | .text (some name) => choices.lookup name
  | .object [(some name, .null)] => choices.lookup name
  | _ => none

end Document

end StorageIncentives
