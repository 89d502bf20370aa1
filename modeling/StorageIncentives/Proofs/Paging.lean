import Mathlib.Algebra.BigOperators.Group.List.Basic
import StorageIncentives.Proofs.BookingLedger
import StorageIncentives.Proofs.Membership

/-!
# Listings in pages

A page is the segment of a listing that begins at its start. Whoever reads pages of one size until an
empty one comes has read the whole listing. For the nodes this is every active one once, for the
uploaders everyone who has booked once, with what they have booked. The starts of pages are words,
and no listing is longer than words can tell: every active node holds some of the allocated capacity,
and every uploader some of what is booked.
-/

namespace StorageIncentives

-- ---------------------------------------------------------------------------
-- Pages of a listing
-- ---------------------------------------------------------------------------

namespace Page

/-- Page `k` among pages of one size. A start past the last word is held there. -/
def numbered (size : Word) (k : Nat) : Page := ⟨some (.ofNatSat (k * size.val)), some size⟩

/-- The items of a listing from the start of a page on, as many as the limits allow. -/
structure Cuts {α : Type} (p : Page) (items shown : List α) : Prop where
  segment : ∃ before after, items = before ++ shown ++ after ∧
    before.length = min (p.start.getD 0).val items.length
  length : shown.length = min (min (p.limit.getD defaultLimit).val maxLimit.val)
    (items.length - (p.start.getD 0).val)
  past : items.length ≤ (p.start.getD 0).val → shown = []

/-- What one gathers who reads the pages from `k` on until an empty one. -/
inductive Gathers {α : Type} (tells : Page → List α → Prop) (size : Word) : Nat → List α → Prop
  | stop {k : Nat} (empty : tells (numbered size k) []) : Gathers tells size k []
  | next {k : Nat} {shown rest : List α} (page : tells (numbered size k) shown)
      (nonempty : shown ≠ []) (more : Gathers tells size (k + 1) rest) :
      Gathers tells size k (shown ++ rest)

/-- The pages that are told make up a listing, and each is a segment of it. -/
structure Serves {α : Type} (tells : Page → List α → Prop) (items : List α) : Prop where
  whole : ∀ size : Word, 1 ≤ size → size ≤ maxLimit →
    ∀ list, Gathers tells size 0 list ↔ list = items
  part : ∀ p, ∃ shown, tells p shown ∧ p.Cuts items shown

variable {α : Type} {tells : Page → List α → Prop} {size : Word} {k : Nat} {items list : List α}

theorem cuts_of (p : Page) (items : List α) : p.Cuts items (p.of items) where
  segment := by
    refine ⟨items.take (p.start.getD 0).val, (items.drop (p.start.getD 0).val).drop p.size, ?_,
      List.length_take⟩
    rw [of, List.append_assoc, List.take_append_drop, List.take_append_drop]
  length := by rw [of, List.length_take, List.length_drop, Page.size]
  past hle := by rw [of, List.drop_eq_nil_of_le hle, List.take_nil]

/-- A start that is held at the last word is past the end of a listing that words can tell. -/
theorem numbered_of (le : size ≤ maxLimit) (told : items.length < 2 ^ 64) :
    (numbered size k).of items = (items.drop (k * size.val)).take size.val := by
  have limit : (numbered size k).size = size.val := Nat.min_eq_left le
  have start : ((numbered size k).start.getD 0).val = min (k * size.val) (2 ^ 64 - 1) := rfl
  rw [of, limit, start]
  by_cases held : k * size.val ≤ 2 ^ 64 - 1
  · rw [Nat.min_eq_left held]
  · rw [List.drop_eq_nil_of_le (by omega), List.drop_eq_nil_of_le (by omega)]

theorem page_append_drop (items : List α) (k n : Nat) :
    (items.drop (k * n)).take n ++ items.drop ((k + 1) * n) = items.drop (k * n) := by
  rw [Nat.succ_mul, ← List.drop_drop, List.take_append_drop]

section
variable (tell : ∀ p shown, tells p shown ↔ shown = p.of items) (le : size ≤ maxLimit)
  (told : items.length < 2 ^ 64)
include tell le told

theorem tells_numbered_iff {shown : List α} :
    tells (numbered size k) shown ↔ shown = (items.drop (k * size.val)).take size.val := by
  rw [tell, numbered_of le told]

theorem gathers_drop (positive : 1 ≤ size) (k : Nat) :
    Gathers tells size k (items.drop (k * size.val)) := by
  -- A page that is not empty moves the next start closer to the end of the listing.
  have step : 1 ≤ size.val := positive
  by_cases hle : items.length ≤ k * size.val
  · rw [List.drop_eq_nil_of_le hle]
    refine .stop ((tells_numbered_iff tell le told).2 ?_)
    rw [List.drop_eq_nil_of_le hle, List.take_nil]
  · have nonempty : (items.drop (k * size.val)).take size.val ≠ [] := by
      refine List.ne_nil_of_length_pos ?_
      rw [List.length_take, List.length_drop]
      omega
    have forth : k * size.val < (k + 1) * size.val := by
      rw [Nat.succ_mul]
      omega
    rw [← page_append_drop]
    exact .next ((tells_numbered_iff tell le told).2 rfl) nonempty (gathers_drop positive (k + 1))
termination_by items.length - k * size.val

theorem eq_drop_of_gathers (positive : 1 ≤ size) (h : Gathers tells size k list) :
    list = items.drop (k * size.val) := by
  have step : 1 ≤ size.val := positive
  induction h with
  | @stop k empty =>
    have page := (tells_numbered_iff tell le told).1 empty
    rcases List.take_eq_nil_iff.1 page.symm with zero | ended
    · omega
    · exact ended.symm
  | next page _ _ ih => rw [(tells_numbered_iff tell le told).1 page, ih, page_append_drop]

end

theorem serves (tell : ∀ p shown, tells p shown ↔ shown = p.of items)
    (told : items.length < 2 ^ 64) : Serves tells items where
  whole size positive le list := by
    constructor
    · intro h
      rw [eq_drop_of_gathers tell le told positive h, Nat.zero_mul, List.drop_zero]
    · rintro rfl
      simpa using gathers_drop tell le told positive 0
  part p := ⟨p.of items, (tell p _).2 rfl, cuts_of p items⟩

end Page

-- ---------------------------------------------------------------------------
-- The listings of a registry
-- ---------------------------------------------------------------------------

variable {r : Registry} {made : List (Account × Word)}

namespace Registry

/-- What is told about the nodes on a page. -/
def TellsNodes (r : Registry) (p : Page) (accounts : List Account) : Prop :=
  ∀ now, Query.answer r now (.registeredAccounts p) = .ok (.accounts accounts)

def TellsUploaders (r : Registry) (p : Page) (entries : List (Account × Word)) : Prop :=
  ∀ now, Query.answer r now (.uploaders p) = .ok (.bookings entries)

/-- The pages about the nodes make up a list of all that are active. -/
structure ListsNodes (r : Registry) (accounts : List Account) : Prop where
  paged : Page.Serves r.TellsNodes accounts
  nodup : accounts.Nodup
  active : ∀ a, a ∈ accounts ↔ r.IsActive a
  entry : ∀ i now, Query.answer r now (.accountAt i) = .ok (.accountAt accounts[i.val]?)
  length : ∀ now, Query.answer r now .nodeCount = .ok (.count accounts.length)

/-- The pages about the uploaders make up a list of all who have booked, with what they have
booked. -/
structure ListsUploaders (r : Registry) (entries : List (Account × Word)) : Prop where
  paged : Page.Serves r.TellsUploaders entries
  nodup : (entries.map (·.1)).Nodup
  booked : ∀ a units, (a, units) ∈ entries ↔
    0 < units ∧ ∀ now, Query.answer r now (.bookedCapacity a) = .ok (.count units.val)
  length : ∀ now, Query.answer r now .uploaderCount = .ok (.count entries.length)
  total : (entries.map (·.2.val)).sum = r.booked.val

theorem tellsNodes_iff {p : Page} {accounts : List Account} :
    r.TellsNodes p accounts ↔ accounts = p.of r.activeNodes.slots := by
  constructor
  · intro h
    exact (Answer.accounts.inj (Except.ok.inj (h 0))).symm
  · rintro rfl _
    rfl

theorem tellsUploaders_iff {p : Page} {entries : List (Account × Word)} :
    r.TellsUploaders p entries ↔ entries = p.of r.bookings.entries := by
  constructor
  · intro h
    exact (Answer.bookings.inj (Except.ok.inj (h 0))).symm
  · rintro rfl _
    rfl

/-- Every active node holds some of the capacity. -/
theorem MembershipSound.size_le_allocated (h : r.MembershipSound) (counts : r.RosterCounts) :
    r.activeNodes.slots.length ≤ r.allocated.val := by
  have size : r.activeNodes.slots.length = count r.nodes fun n => n.active = true := counts
  rw [size, h.allocated]
  refine tally_mono fun a n found => ?_
  have positive : 1 ≤ n.capacity.val := (h.nodes a n found).2
  unfold Node.activeCapacity
  split
  · exact positive
  · exact Nat.le_refl 0

theorem LedgerOf.mem_entries_iff (h : r.LedgerOf made) {a : Account} {units : Word} :
    (a, units) ∈ r.bookings.entries ↔ 0 < units.val ∧ r.bookings.booked a = units := by
  rw [h.entries_eq, List.mem_map]
  constructor
  · rintro ⟨b, member, same⟩
    obtain ⟨rfl, rfl⟩ := Prod.mk.inj same
    exact ⟨(h.booked_pos_iff b).2 member, rfl⟩
  · rintro ⟨positive, rfl⟩
    exact ⟨a, (h.booked_pos_iff a).1 positive, rfl⟩

/-- Every uploader has booked something. -/
theorem LedgerOf.size_le_booked (h : r.LedgerOf made) :
    r.bookings.entries.length ≤ r.booked.val := by
  rw [h.total, Bookings.total, ← List.length_map (·.2.val)]
  refine List.length_le_sum_of_one_le _ fun n hn => ?_
  obtain ⟨⟨a, units⟩, member, rfl⟩ := List.mem_map.1 hn
  exact (h.mem_entries_iff.1 member).1

theorem MembershipSound.listsNodes (h : r.MembershipSound) (counts : r.RosterCounts) :
    r.ListsNodes r.activeNodes.slots where
  paged := Page.serves (fun _ _ => tellsNodes_iff)
    (Nat.lt_of_le_of_lt (h.size_le_allocated counts) r.allocated.isLt)
  nodup := h.roster.nodup
  active := h.listed
  entry _ _ := rfl
  length _ := rfl

theorem LedgerOf.listsUploaders (h : r.LedgerOf made) : r.ListsUploaders r.bookings.entries where
  paged := Page.serves (fun _ _ => tellsUploaders_iff)
    (Nat.lt_of_le_of_lt h.size_le_booked r.booked.isLt)
  nodup := h.nodup
  booked a units := by
    rw [h.mem_entries_iff]
    refine and_congr_right fun _ => ⟨fun same _ => same ▸ rfl, fun answer => Fin.ext ?_⟩
    exact Answer.count.inj (Except.ok.inj (answer 0))
  length _ := rfl
  total := h.total.symm

end Registry

namespace Run

/-- After every run, the pages list the active nodes and the uploaders, each once. -/
theorem listings_paged (run : Run) :
    (∃ accounts, run.registry.ListsNodes accounts) ∧
      ∃ entries, run.registry.ListsUploaders entries :=
  ⟨⟨_, run.membershipSound.listsNodes run.rosterCounts⟩, ⟨_, run.ledgerOf.listsUploaders⟩⟩

def carol : Account := ⟨"carol", by decide⟩

/-- Alice, bob and carol register nodes, alice's leaves, and bob and alice book capacity. -/
def rearranged : Run :=
  let started := Run.create alice .default 0 (.fresh alice .default 0) create_default
  let one := started.call (.plain alice 5) (.registerNode 10)
  let two := one.call (.plain bob 6) (.registerNode 20)
  let three := two.call (.plain carol 7) (.registerNode 30)
  let left := three.call (.plain alice 8) .unregisterNode
  let paying (a : Account) : Context :=
    { Context.plain a 9 with deposit := 5_000_000_000_000_000_000_000 }
  (left.call (paying bob) (.bookCapacity 3)).call (paying alice) (.bookCapacity 5)

/-- Carol is listed where alice was. -/
theorem listings_paged_rearranged :
    (rearranged.registry.activeNodes.slots = [carol, bob] ∧
      rearranged.registry.bookings.entries = [(bob, 3), (alice, 5)]) ∧
    (∃ accounts, rearranged.registry.ListsNodes accounts) ∧
      ∃ entries, rearranged.registry.ListsUploaders entries :=
  ⟨by decide +kernel, listings_paged rearranged⟩

end Run

end StorageIncentives
