import StorageIncentives.Json.Document

/-!
# JSON tokens

Reading a text into tokens, character by character. A word or a number ends with the character
after it, so `scan?` lets a space follow the text. A string is collected as characters and
escaped 16-bit units; the units are joined when the closing quote is reached.
-/

namespace StorageIncentives

inductive Token where
  | openBracket
  | closeBracket
  | openBrace
  | closeBrace
  | comma
  | colon
  | text (s : Option String)
  /-- `null`, a truth value or a number. -/
  | scalar (value : Document)

namespace Token

/-- A number read so far. -/
inductive Numeral where
  | minus
  | zero (negative : Bool)
  | whole (negative : Bool) (n : Nat)
  | point
  | fraction
  | exponent
  | exponentSign
  | exponentDigits

namespace Numeral

def start? (c : Char) : Option Numeral :=
  if c = '-' then some .minus
  else if c = '0' then some (.zero false)
  else if c.isDigit then some (.whole false (c.toNat - '0'.toNat))
  else none

def afterWhole? (c : Char) : Option Numeral :=
  if c = '.' then some .point else if c = 'e' || c = 'E' then some .exponent else none

/-- The number with one more character, or `none` if it does not go on with that character. -/
def extend? (c : Char) : Numeral → Option Numeral
  | .minus =>
    if c = '0' then some (.zero true)
    else if c.isDigit then some (.whole true (c.toNat - '0'.toNat))
    else none
  | .zero _ => afterWhole? c
  | .whole negative n =>
    if c.isDigit then some (.whole negative (10 * n + (c.toNat - '0'.toNat))) else afterWhole? c
  | .point => if c.isDigit then some .fraction else none
  | .fraction =>
    if c.isDigit then some .fraction
    else if c = 'e' || c = 'E' then some .exponent
    else none
  | .exponent =>
    if c.isDigit then some .exponentDigits
    else if c = '+' || c = '-' then some .exponentSign
    else none
  | .exponentSign => if c.isDigit then some .exponentDigits else none
  | .exponentDigits => if c.isDigit then some .exponentDigits else none

/-- The value of a number that may end here. -/
def value? : Numeral → Option Document
  | .zero false => some (.natural 0)
  | .whole false n => some (.natural n)
  | .zero true | .whole true _ | .fraction | .exponentDigits => some .number
  | .minus | .point | .exponent | .exponentSign => none

end Numeral

/-- A part of a string: a character of the text, or the unit of a `\u` escape. -/
inductive Piece where
  | char (c : Char)
  | unit (n : Nat)

def isHigh (n : Nat) : Bool := 0xD800 ≤ n && n < 0xDC00
def isLow (n : Nat) : Bool := 0xDC00 ≤ n && n < 0xE000

/-- Joins the pieces of a string, the latest first, in front of the characters that follow them. -/
def join? : List Piece → List Char → Option (List Char)
  | [], tail => some tail
  | .char c :: rest, tail => join? rest (c :: tail)
  | .unit low :: .unit high :: rest, tail =>
    if isLow low then
      if isHigh high then
        join? rest (Char.ofNat (0x10000 + (high - 0xD800) * 0x400 + (low - 0xDC00)) :: tail)
      else none
    else if isHigh low then none
    else join? (.unit high :: rest) (Char.ofNat low :: tail)
  | .unit n :: rest, tail =>
    if isLow n || isHigh n then none else join? rest (Char.ofNat n :: tail)

def hexValue? (c : Char) : Option Nat :=
  if c.isDigit then some (c.toNat - '0'.toNat)
  else if 'a' ≤ c && c ≤ 'f' then some (c.toNat - 'a'.toNat + 10)
  else if 'A' ≤ c && c ≤ 'F' then some (c.toNat - 'A'.toNat + 10)
  else none

def unescape? : Char → Option Char
  | '"' => some '"'
  | '\\' => some '\\'
  | '/' => some '/'
  | 'b' => some '\x08'
  | 'f' => some '\x0c'
  | 'n' => some '\n'
  | 'r' => some '\r'
  | 't' => some '\t'
  | _ => none

/-- What the scanner is in the middle of. -/
inductive Mode where
  | between
  /-- The letters of a word that are still due. -/
  | word (due : List Char) (value : Document)
  | number (read : Numeral)
  | string (read : List Piece)
  | escape (read : List Piece)
  /-- A `\u` escape, the digits that are still due and the value of those read. -/
  | unit (read : List Piece) (due value : Nat)

/-- Tokens are kept latest first. -/
structure Scanner where
  mode : Mode
  tokens : List Token

namespace Scanner

def start : Scanner := ⟨.between, []⟩

/-- A character that begins a token, or blank space. -/
def begin? (tokens : List Token) (c : Char) : Option Scanner :=
  match c with
  | ' ' | '\t' | '\n' | '\r' => some ⟨.between, tokens⟩
  | '[' => some ⟨.between, .openBracket :: tokens⟩
  | ']' => some ⟨.between, .closeBracket :: tokens⟩
  | '{' => some ⟨.between, .openBrace :: tokens⟩
  | '}' => some ⟨.between, .closeBrace :: tokens⟩
  | ',' => some ⟨.between, .comma :: tokens⟩
  | ':' => some ⟨.between, .colon :: tokens⟩
  | '"' => some ⟨.string [], tokens⟩
  | 'n' => some ⟨.word ['u', 'l', 'l'] .null, tokens⟩
  | 't' => some ⟨.word ['r', 'u', 'e'] (.bool true), tokens⟩
  | 'f' => some ⟨.word ['a', 'l', 's', 'e'] (.bool false), tokens⟩
  | c => (Numeral.start? c).map fun n => ⟨.number n, tokens⟩

def stringStep? (tokens : List Token) (read : List Piece) (c : Char) : Option Scanner :=
  if c = '"' then some ⟨.between, .text ((join? read []).map String.ofList) :: tokens⟩
  else if c = '\\' then some ⟨.escape read, tokens⟩
  else if c.toNat < 0x20 then none
  else some ⟨.string (.char c :: read), tokens⟩

def escapeStep? (tokens : List Token) (read : List Piece) (c : Char) : Option Scanner :=
  if c = 'u' then some ⟨.unit read 4 0, tokens⟩
  else (unescape? c).map fun d => ⟨.string (.char d :: read), tokens⟩

def unitStep? (tokens : List Token) (read : List Piece) (due value : Nat) (c : Char) :
    Option Scanner :=
  (hexValue? c).map fun digit =>
    let value := 16 * value + digit
    if due ≤ 1 then ⟨.string (.unit value :: read), tokens⟩
    else ⟨.unit read (due - 1) value, tokens⟩

def step? (s : Scanner) (c : Char) : Option Scanner :=
  match s.mode with
  | .between => begin? s.tokens c
  | .word [] value => begin? (.scalar value :: s.tokens) c
  | .word (d :: due) value => if c = d then some ⟨.word due value, s.tokens⟩ else none
  | .number read =>
    match read.extend? c with
    | some more => some ⟨.number more, s.tokens⟩
    | none => read.value?.bind fun value => begin? (.scalar value :: s.tokens) c
  | .string read => stringStep? s.tokens read c
  | .escape read => escapeStep? s.tokens read c
  | .unit read due value => unitStep? s.tokens read due value c

def finish? (s : Scanner) : Option (List Token) :=
  match s.mode with
  | .between => some s.tokens.reverse
  | _ => none

end Scanner

def scan? (text : List Char) : Option (List Token) := do
  ((← text.foldlM Scanner.step? Scanner.start).step? ' ') >>= Scanner.finish?

end Token

end StorageIncentives
