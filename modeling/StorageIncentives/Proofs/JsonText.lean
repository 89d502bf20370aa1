import Mathlib.Logic.Basic
import Std.Data.String.ToNat
import StorageIncentives.Json.Value

/-!
# The text of a JSON value determines it

Two texts that go on differently can be told apart where the values end: a string ends with a quote
that no escape contains, a container with its bracket, and a number where no digit follows. So no
two values have one text, whatever characters their strings hold.
-/

namespace StorageIncentives.Json

variable {c c' : Char} {x y ds es : List Char} {s t : String} {m n : Nat}

-- ---------------------------------------------------------------------------
-- Strings
-- ---------------------------------------------------------------------------

/-- Characters with an escape of their own, and the letter of it. -/
def shortEscapes : List (Char × Char) :=
  [('"', '"'), ('\\', '\\'), ('\x08', 'b'), ('\t', 't'), ('\n', 'n'), ('\x0c', 'f'), ('\r', 'r')]

/-- The three forms of a character in a string. -/
inductive Escaped : Char → List Char → Prop
  | short {c letter : Char} (h : (c, letter) ∈ shortEscapes) : Escaped c ['\\', letter]
  | unit {c : Char} (h : c.toNat < 0x20) :
      Escaped c ['\\', 'u', '0', '0', hexDigit (c.toNat / 16), hexDigit (c.toNat % 16)]
  | plain {c : Char} (hq : c ≠ '"') (hb : c ≠ '\\') : Escaped c [c]

theorem escaped_escape (c : Char) : Escaped c (escape c) := by
  unfold escape
  split
  case h_8 hq hb _ _ _ _ _ =>
    split
    · exact .unit ‹_›
    · exact .plain hq hb
  all_goals exact .short (by decide)

theorem hexDigit_inj (hm : m < 16) (hn : n < 16) (h : hexDigit m = hexDigit n) : m = n := by
  have inj : ∀ i j : Fin 16, hexDigit i.val = hexDigit j.val → i = j := by decide
  exact congrArg Fin.val (inj ⟨m, hm⟩ ⟨n, hn⟩ h)

/-- No letter of a short escape stands for two characters, or begins a longer escape. -/
theorem shortEscapes_inj : ∀ e ∈ shortEscapes, e.2 ≠ 'u' ∧
    ∀ e' ∈ shortEscapes, e.2 = e'.2 → e = e' := by decide

theorem Escaped.append_inj (h : Escaped c ds) (h' : Escaped c' es) (he : ds ++ x = es ++ y) :
    c = c' ∧ x = y := by
  cases h with
  | short hs =>
    obtain ⟨notUnit, inj⟩ := shortEscapes_inj _ hs
    cases h' with
    | short hs' =>
      simp only [List.cons_append, List.nil_append, List.cons.injEq, true_and] at he
      exact ⟨congrArg Prod.fst (inj _ hs' he.1), he.2⟩
    | unit _ => exact absurd (List.cons.inj (List.cons.inj he).2).1 notUnit
    | plain _ hb => exact absurd (List.cons.inj he).1.symm hb
  | unit hc =>
    cases h' with
    | short hs' =>
      exact absurd (List.cons.inj (List.cons.inj he).2).1.symm (shortEscapes_inj _ hs').1
    | unit hc' =>
      simp only [List.cons_append, List.nil_append, List.cons.injEq, true_and] at he
      obtain ⟨high, low, rest⟩ := he
      have high := hexDigit_inj (by omega) (by omega) high
      have low := hexDigit_inj (by omega) (by omega) low
      exact ⟨Char.toNat_inj.1 (by omega), rest⟩
    | plain _ hb => exact absurd (List.cons.inj he).1.symm hb
  | plain _ hb =>
    cases h' with
    | short _ => exact absurd (List.cons.inj he).1 hb
    | unit _ => exact absurd (List.cons.inj he).1 hb
    | plain _ _ => exact List.cons.inj he

/-- An escaped character does not begin with the quote that ends a string. -/
theorem Escaped.ne_quote (h : Escaped c ds) : ds ++ x ≠ '"' :: y := by
  cases h with
  | short _ => simp
  | unit _ => simp
  | plain hq _ => simp [hq]

theorem flatMap_escape_inj {cs cs' : List Char}
    (h : cs.flatMap escape ++ '"' :: x = cs'.flatMap escape ++ '"' :: y) : cs = cs' ∧ x = y := by
  induction cs generalizing cs' with
  | nil =>
    cases cs' with
    | nil => exact ⟨rfl, (List.cons.inj h).2⟩
    | cons c' cs' =>
      rw [List.flatMap_cons, List.append_assoc] at h
      exact absurd h.symm (escaped_escape c').ne_quote
  | cons c cs ih =>
    rw [List.flatMap_cons, List.append_assoc] at h
    cases cs' with
    | nil => exact absurd h (escaped_escape c).ne_quote
    | cons c' cs' =>
      rw [List.flatMap_cons, List.append_assoc] at h
      obtain ⟨rfl, more⟩ := (escaped_escape c).append_inj (escaped_escape c') h
      obtain ⟨rfl, rest⟩ := ih more
      exact ⟨rfl, rest⟩

theorem quote_append_inj (h : quote s ++ x = quote t ++ y) : s = t ∧ x = y := by
  simp only [quote, List.cons_append, List.append_assoc, List.nil_append, List.cons.injEq,
    true_and] at h
  obtain ⟨text, rest⟩ := flatMap_escape_inj h
  exact ⟨String.toList_inj.1 text, rest⟩

-- ---------------------------------------------------------------------------
-- Numbers
-- ---------------------------------------------------------------------------

/-- A number may end in front of this. -/
def NoDigit (x : List Char) : Prop := ∀ c ∈ x.head?, c.isDigit = false

theorem noDigit_cons (h : c.isDigit = false) : NoDigit (c :: x) := by
  rintro d hd
  obtain rfl := Option.some.inj hd
  exact h

theorem digits_append_inj (hd : ∀ c ∈ ds, c.isDigit = true) (he : ∀ c ∈ es, c.isDigit = true)
    (hx : NoDigit x) (hy : NoDigit y) (h : ds ++ x = es ++ y) : ds = es ∧ x = y := by
  induction ds generalizing es with
  | nil =>
    cases es with
    | nil => exact ⟨rfl, h⟩
    | cons e es =>
      have := hx e (by rw [← List.nil_append x, h]; rfl)
      rw [he e List.mem_cons_self] at this
      cases this
  | cons d ds ih =>
    cases es with
    | nil =>
      have := hy d (by rw [← List.nil_append y, ← h]; rfl)
      rw [hd d List.mem_cons_self] at this
      cases this
    | cons e es =>
      obtain ⟨rfl, more⟩ := List.cons.inj h
      obtain ⟨rfl, rest⟩ := ih (fun c hc => hd c (List.mem_cons_of_mem _ hc))
        (fun c hc => he c (List.mem_cons_of_mem _ hc)) more
      exact ⟨rfl, rest⟩

theorem isDigit_of_mem_write (h : c ∈ (Decimal.write n).toList) : c.isDigit = true := by
  rw [show Decimal.write n = String.ofList (Nat.toDigits 10 n) from rfl, String.toList_ofList] at h
  exact Nat.isDigit_of_mem_toDigits (by decide) (by decide) h

theorem write_inj (h : Decimal.write m = Decimal.write n) : m = n := Nat.repr_inj.1 h

-- ---------------------------------------------------------------------------
-- Values
-- ---------------------------------------------------------------------------

/-- What kind of value begins with a character: one stands for all digits, and one for both truth
values. -/
def markOf (c : Char) : Char := if c.isDigit then '0' else if c = 'f' then 't' else c

def mark : Json → Char
  | .null => 'n'
  | .bool _ => 't'
  | .number _ => '0'
  | .string _ => '"'
  | .array _ => '['
  | .object _ => '{'

theorem write_ne_nil : (Decimal.write n).toList ≠ [] := by
  rw [show Decimal.write n = String.ofList (Nat.toDigits 10 n) from rfl, String.toList_ofList]
  exact Nat.toDigits_ne_nil

theorem exists_chars_eq_cons (v : Json) : ∃ c tail, v.chars = c :: tail ∧ markOf c = v.mark := by
  cases v with
  | null => exact ⟨_, _, rfl, rfl⟩
  | bool b => cases b <;> exact ⟨_, _, rfl, rfl⟩
  | number n =>
    have digits (c : Char) (h : c ∈ chars (.number n)) : c.isDigit = true := isDigit_of_mem_write h
    cases hc : chars (.number n) with
    | nil => exact absurd hc write_ne_nil
    | cons c tail => exact ⟨c, tail, rfl, if_pos (digits c (hc ▸ List.mem_cons_self))⟩
  | string t => exact ⟨'"', _, rfl, rfl⟩
  | array items => exact ⟨'[', _, rfl, rfl⟩
  | object members => exact ⟨'{', _, rfl, rfl⟩

theorem mark_eq_of_append {v v' : Json} (h : v.chars ++ x = v'.chars ++ y) : v.mark = v'.mark := by
  obtain ⟨c, tail, hv, hc⟩ := v.exists_chars_eq_cons
  obtain ⟨c', tail', hv', hc'⟩ := v'.exists_chars_eq_cons
  rw [hv, hv'] at h
  rw [← hc, ← hc', (List.cons.inj h).1]

/-- No value begins with the bracket that ends a list of items. -/
theorem chars_append_ne {v : Json} : v.chars ++ x ≠ ']' :: y := by
  obtain ⟨c, tail, hv, hc⟩ := v.exists_chars_eq_cons
  rw [hv]
  intro h
  obtain rfl := (List.cons.inj h).1
  cases v <;> cases hc

/-- What follows the first of the parts between two brackets. -/
def partsEnd {α : Type} (close : Char) (chars : List α → List Char) (rest : List α)
    (x : List Char) : List Char :=
  match rest with
  | [] => close :: x
  | _ :: _ => ',' :: (chars rest ++ close :: x)

theorem itemChars_cons (v : Json) (rest : List Json) :
    itemChars (v :: rest) ++ ']' :: x = v.chars ++ partsEnd ']' itemChars rest x := by
  cases rest with
  | nil => rfl
  | cons _ _ => simp [itemChars, partsEnd]

theorem memberChars_cons (key : String) (v : Json) (rest : List (String × Json)) :
    memberChars ((key, v) :: rest) ++ '}' :: x =
      quote key ++ ':' :: (v.chars ++ partsEnd '}' memberChars rest x) := by
  cases rest with
  | nil => simp [memberChars, partsEnd]
  | cons _ _ => simp [memberChars, partsEnd]

section Parts

variable {α : Type} {close : Char} {chars : List α → List Char} {rest rest' : List α}

theorem noDigit_partsEnd (hc : close.isDigit = false) : NoDigit (partsEnd close chars rest x) := by
  cases rest with
  | nil => exact noDigit_cons hc
  | cons _ _ => exact noDigit_cons (by decide)

theorem partsEnd_inj (hc : close ≠ ',')
    (tail : chars rest ++ close :: x = chars rest' ++ close :: y → rest = rest' ∧ x = y)
    (h : partsEnd close chars rest x = partsEnd close chars rest' y) : rest = rest' ∧ x = y := by
  cases rest with
  | nil =>
    cases rest' with
    | nil => exact ⟨rfl, (List.cons.inj h).2⟩
    | cons _ _ => exact absurd (List.cons.inj h).1 hc
  | cons _ _ =>
    cases rest' with
    | nil => exact absurd (List.cons.inj h).1.symm hc
    | cons _ _ => exact tail (List.cons.inj h).2

end Parts

mutual
theorem chars_append_inj : ∀ (v v' : Json) {x y : List Char}, NoDigit x → NoDigit y →
    v.chars ++ x = v'.chars ++ y → v = v' ∧ x = y
  | .null, v', _, _, _, _, h => by
    have hm := mark_eq_of_append h
    cases v' with
    | null => exact ⟨rfl, List.append_cancel_left h⟩
    | _ => cases hm
  | .bool b, v', _, _, _, _, h => by
    have hm := mark_eq_of_append h
    cases v' with
    | bool b' =>
      cases b <;> cases b'
      · exact ⟨rfl, List.append_cancel_left h⟩
      · cases (List.cons.inj h).1
      · cases (List.cons.inj h).1
      · exact ⟨rfl, List.append_cancel_left h⟩
    | _ => cases hm
  | .number n, v', _, _, hx, hy, h => by
    have hm := mark_eq_of_append h
    cases v' with
    | number n' =>
      obtain ⟨digits, rest⟩ := digits_append_inj (fun _ => isDigit_of_mem_write)
        (fun _ => isDigit_of_mem_write) hx hy h
      exact ⟨congrArg number (write_inj (String.toList_inj.1 digits)), rest⟩
    | _ => cases hm
  | .string t, v', _, _, _, _, h => by
    have hm := mark_eq_of_append h
    cases v' with
    | string t' =>
      obtain ⟨text, rest⟩ := quote_append_inj h
      exact ⟨congrArg string text, rest⟩
    | _ => cases hm
  | .array items, v', _, _, _, _, h => by
    have hm := mark_eq_of_append h
    cases v' with
    | array items' =>
      simp only [chars, List.cons_append, List.append_assoc, List.nil_append, List.cons.injEq,
        true_and] at h
      obtain ⟨items, rest⟩ := itemChars_append_inj items items' h
      exact ⟨congrArg array items, rest⟩
    | _ => cases hm
  | .object members, v', _, _, _, _, h => by
    have hm := mark_eq_of_append h
    cases v' with
    | object members' =>
      simp only [chars, List.cons_append, List.append_assoc, List.nil_append, List.cons.injEq,
        true_and] at h
      obtain ⟨members, rest⟩ := memberChars_append_inj members members' h
      exact ⟨congrArg object members, rest⟩
    | _ => cases hm
theorem itemChars_append_inj : ∀ (items items' : List Json) {x y : List Char},
    itemChars items ++ ']' :: x = itemChars items' ++ ']' :: y → items = items' ∧ x = y
  | [], [], _, _, h => ⟨rfl, (List.cons.inj h).2⟩
  | [], v' :: rest', _, _, h => by
    rw [itemChars_cons] at h
    exact absurd h.symm chars_append_ne
  | v :: rest, [], _, _, h => by
    rw [itemChars_cons] at h
    exact absurd h chars_append_ne
  | v :: rest, v' :: rest', x, y, h => by
    rw [itemChars_cons, itemChars_cons] at h
    obtain ⟨rfl, later⟩ := chars_append_inj v v' (noDigit_partsEnd (by decide))
      (noDigit_partsEnd (by decide)) h
    obtain ⟨rfl, end_eq⟩ := partsEnd_inj (by decide) (itemChars_append_inj rest rest') later
    exact ⟨rfl, end_eq⟩
theorem memberChars_append_inj : ∀ (members members' : List (String × Json)) {x y : List Char},
    memberChars members ++ '}' :: x = memberChars members' ++ '}' :: y →
      members = members' ∧ x = y
  | [], [], _, _, h => ⟨rfl, (List.cons.inj h).2⟩
  | [], (key', v') :: rest', _, _, h => by
    rw [memberChars_cons] at h
    cases (List.cons.inj h).1
  | (key, v) :: rest, [], _, _, h => by
    rw [memberChars_cons] at h
    cases (List.cons.inj h).1
  | (key, v) :: rest, (key', v') :: rest', x, y, h => by
    rw [memberChars_cons, memberChars_cons] at h
    obtain ⟨rfl, value⟩ := quote_append_inj h
    obtain ⟨rfl, later⟩ := chars_append_inj v v' (noDigit_partsEnd (by decide))
      (noDigit_partsEnd (by decide)) (List.cons.inj value).2
    obtain ⟨rfl, end_eq⟩ := partsEnd_inj (by decide) (memberChars_append_inj rest rest') later
    exact ⟨rfl, end_eq⟩
end

theorem text_inj {v v' : Json} (h : v.text = v'.text) : v = v' := by
  have chars : v.chars = v'.chars := String.ofList_inj.1 h
  exact (chars_append_inj v v' (x := []) (y := []) nofun nofun (by rw [chars])).1

end StorageIncentives.Json
