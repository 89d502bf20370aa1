import StorageIncentives.Event
import StorageIncentives.Proofs.JsonText

/-!
# The line of an event determines it

A line holds the operation, the author and all fields of its event, and no two scalars are written
alike. So whoever reads the log knows the events.
-/

namespace StorageIncentives

namespace Json

theorem decimal_inj {bits : Nat} {q q' : Quantity bits} : decimal q = decimal q' ↔ q = q' := by
  refine ⟨fun h => Fin.ext (write_inj (Json.string.inj h)), ?_⟩
  rintro rfl
  rfl

theorem account_inj {a a' : Account} : account a = account a' ↔ a = a' := by
  refine ⟨fun h => Account.ext (Json.string.inj h), ?_⟩
  rintro rfl
  rfl

theorem list_inj {α : Type} {encode : α → Json} (inj : ∀ a a', encode a = encode a' → a = a')
    {items items' : List α} : list encode items = list encode items' ↔ items = items' := by
  refine ⟨fun h => List.map_inj_right inj |>.1 (Json.array.inj h), ?_⟩
  rintro rfl
  rfl

theorem list_string_inj {items items' : List String} :
    list string items = list string items' ↔ items = items' := list_inj fun _ _ => Json.string.inj

theorem list_account_inj {items items' : List Account} :
    list account items = list account items' ↔ items = items' :=
  list_inj fun _ _ => account_inj.1

end Json

theorem Eligibility.text_inj {e e' : Eligibility} : e.text = e'.text ↔ e = e' := by
  cases e <;> cases e' <;> decide

theorem ProofScheme.text_inj {s s' : ProofScheme} : s.text = s'.text ↔ s = s' := by
  cases s
  cases s'
  decide

namespace Event

theorem configFields_append_inj {c c' : Config} {rest rest' : List (String × Json)} :
    configFields c ++ rest = configFields c' ++ rest' ↔ c = c' ∧ rest = rest' := by
  obtain ⟨_, _, _, _, _, _, _, scheme⟩ := c
  obtain ⟨_, _, _, _, _, _, _, scheme'⟩ := c'
  cases scheme
  cases scheme'
  simp [configFields, Json.decimal_inj, Eligibility.text_inj, and_assoc]

theorem metadata_inj {m m' : Metadata} (endpoint : m.endpoint = m'.endpoint)
    (peers : m.peerAddresses = m'.peerAddresses) : m = m' := by
  obtain ⟨_, _⟩ := m
  obtain ⟨_, _⟩ := m'
  cases endpoint
  cases peers
  rfl

/-- Operations tell the events apart, and the fields of an event with its author the rest. -/
theorem eq_of_parts {e e' : Event} (operation : e.operation = e'.operation)
    (author : e.author = e'.author) (fields : e.fields = e'.fields) : e = e' := by
  cases e <;> cases e' <;>
    simp only [Event.operation, Event.author, Event.fields, reduceCtorEq, String.reduceEq,
      List.cons.injEq, Prod.mk.injEq, Json.string.injEq, Json.bool.injEq, Json.decimal_inj,
      Json.account_inj, Json.list_string_inj, Json.list_account_inj, configFields_append_inj,
      true_and, and_true, false_and, and_false] at operation author fields
  -- The two operations of a pause are told apart from a configuration's by the fields.
  case configUpdated.pauseChanged => simp [configFields] at fields
  case pauseChanged.configUpdated => simp [configFields] at fields
  case metadataUpdated.metadataUpdated =>
    rw [author, metadata_inj fields.2.1 fields.2.2]
  all_goals simp only [author, fields]

theorem log_inj {e e' : Event} (h : e.log = e'.log) : e = e' := by
  have json : e.toJson = e'.toJson := Json.text_inj (String.append_right_inj _ |>.1 h)
  simp only [toJson, Json.object.injEq, Json.array.injEq, Json.string.injEq, List.cons.injEq,
    Prod.mk.injEq, Json.account_inj, true_and, and_true] at json
  obtain ⟨-, operation, author, fields⟩ := json
  exact eq_of_parts operation author fields

end Event

end StorageIncentives
