import Listbox.Settings.Value

set_option autoImplicit false

/-! # Settings as JSON text

A settings file is JSON text. The text is cut into tokens, and the tokens are read onto a stack of
lists and tables that are still open, so a single pass over the tokens builds the value. A number
counts as whole only if it is written without a fraction and without an exponent; a negative zero is
no whole number either. The fields of a table stand with the last one first, so that looking up a
name that occurs twice finds its last value. -/

namespace Listbox.Json

/-! ## Tokens -/

/-- The words, numbers, texts and marks of JSON. -/
inductive Token where
  | openList
  | closeList
  | openTable
  | closeTable
  | comma
  | colon
  /-- A value that is neither a list nor a table. -/
  | plain (s : Setting)

def isBlank (c : Char) : Bool := c == ' ' || c == '\t' || c == '\n' || c == '\r'

/-- The value of some decimal digits after those that make up `start`. -/
def decimal (start : Nat) (ds : List Char) : Nat :=
  ds.foldl (fun n c => 10 * n + (c.toNat - '0'.toNat)) start

/-- The value of a hexadecimal digit. -/
def hexDigit? (c : Char) : Option Nat :=
  if c.isDigit then some (c.toNat - '0'.toNat)
  else if 'a' ≤ c ∧ c ≤ 'f' then some (c.toNat - 'a'.toNat + 10)
  else if 'A' ≤ c ∧ c ≤ 'F' then some (c.toNat - 'A'.toNat + 10)
  else none

/-- The value of four hexadecimal digits. -/
def unit? (a b c d : Char) : Option Nat := do
  let ds ← [a, b, c, d].mapM hexDigit?
  return ds.foldl (fun n d => 16 * n + d) 0

/-- What a backslash and a letter stand for. -/
def escaped? : Char → Option Char
  | '"' => some '"'
  | '\\' => some '\\'
  | '/' => some '/'
  | 'b' => some (Char.ofNat 8)
  | 'f' => some (Char.ofNat 12)
  | 'n' => some '\n'
  | 'r' => some '\r'
  | 't' => some '\t'
  | _ => none

/-- The characters up to the closing quote, and what follows it. A character outside the basic plane
may be written as two units, of which neither stands alone. -/
def text? (acc : List Char) : List Char → Option (String × List Char)
  | '"' :: rest => some (String.ofList acc.reverse, rest)
  | '\\' :: 'u' :: a :: b :: c :: d :: rest =>
    match unit? a b c d with
    | none => none
    | some n =>
      if n.isValidChar then text? (Char.ofNat n :: acc) rest
      else
        match rest with
        | '\\' :: 'u' :: a :: b :: c :: d :: rest =>
          match unit? a b c d with
          | none => none
          | some m =>
            if n < 0xDC00 ∧ 0xDC00 ≤ m ∧ m < 0xE000 then
              text? (Char.ofNat (0x10000 + (n - 0xD800) * 0x400 + (m - 0xDC00)) :: acc) rest
            else none
        | _ => none
  | '\\' :: c :: rest =>
    match escaped? c with
    | some e => text? (e :: acc) rest
    | none => none
  | c :: rest => text? (c :: acc) rest
  | [] => none

/-- The exponent that follows a number, if there is one, and what follows it. -/
def exponent? : List Char → Option Int × List Char
  | [] => (none, [])
  | e :: rest =>
    if e = 'e' ∨ e = 'E' then
      let (negative, digits) : Bool × List Char := match rest with
        | '-' :: digits => (true, digits)
        | '+' :: digits => (false, digits)
        | digits => (false, digits)
      let n : Int := decimal 0 (digits.takeWhile Char.isDigit)
      (some (if negative then -n else n), digits.dropWhile Char.isDigit)
    else (none, e :: rest)

/-- The fraction that follows a whole number: its digits, and what follows them. -/
def fraction? : List Char → Option (List Char) × List Char
  | '.' :: rest => (some (rest.takeWhile Char.isDigit), rest.dropWhile Char.isDigit)
  | rest => (none, rest)

/-- A number without its sign, and what follows it. -/
def number? (negative : Bool) (cs : List Char) : Option (Setting × List Char) :=
  let whole := cs.takeWhile Char.isDigit
  let (fraction, rest) := fraction? (cs.dropWhile Char.isDigit)
  let (exponent, rest) := exponent? rest
  if whole.isEmpty then none
  else
    let mantissa := decimal (decimal 0 whole) (fraction.getD [])
    if fraction.isNone && exponent.isNone && !(negative && mantissa == 0) then
      some (.int (if negative then -(mantissa : Int) else mantissa), rest)
    else
      let scale := exponent.getD 0 - (fraction.getD []).length
      let size := Float.ofScientific mantissa (decide (scale < 0)) scale.natAbs
      some (.real (if negative then -size else size), rest)

/-- The first token, after any blanks, and what follows it. -/
def token? : List Char → Option (Token × List Char)
  | '[' :: rest => some (.openList, rest)
  | ']' :: rest => some (.closeList, rest)
  | '\x7b' :: rest => some (.openTable, rest)
  | '\x7d' :: rest => some (.closeTable, rest)
  | ',' :: rest => some (.comma, rest)
  | ':' :: rest => some (.colon, rest)
  | '"' :: rest => (text? [] rest).map fun (s, rest) => (.plain (.text s), rest)
  | 't' :: 'r' :: 'u' :: 'e' :: rest => some (.plain (.bool true), rest)
  | 'f' :: 'a' :: 'l' :: 's' :: 'e' :: rest => some (.plain (.bool false), rest)
  | 'n' :: 'u' :: 'l' :: 'l' :: rest => some (.plain .null, rest)
  | '-' :: rest => (number? true rest).map fun (s, rest) => (.plain s, rest)
  | cs => (number? false cs).map fun (s, rest) => (.plain s, rest)

/-- At most `n` tokens of a text that ends with the last of them. -/
def tokensUpTo? : Nat → List Char → Option (List Token)
  | 0, cs => if (cs.dropWhile isBlank).isEmpty then some [] else none
  | n + 1, cs =>
    match cs.dropWhile isBlank with
    | [] => some []
    | c :: cs =>
      match token? (c :: cs) with
      | some (t, rest) => (tokensUpTo? n rest).map (t :: ·)
      | none => none

/-- The tokens of a text. Each has at least one character. -/
def tokens? (cs : List Char) : Option (List Token) := tokensUpTo? cs.length cs

/-! ## Values -/

/-- A list or a table that is still open, with its elements in reverse order. -/
inductive Frame where
  | list (elements : List Setting)
  /-- A table whose next field has the name `name`. -/
  | table (fields : List (String × Setting)) (name : String)

/-- What may come next. -/
inductive Expected where
  | value
  /-- A value, or the end of the list that has just begun. -/
  | valueOrEnd
  | name
  /-- A name, or the end of the table that has just begun. -/
  | nameOrEnd
  | colon
  /-- A comma, or the end of what is open. -/
  | mark
  deriving DecidableEq

/-- A reader in the middle of a text. -/
structure Reader where
  expected : Expected
  /-- What is open, the innermost first. -/
  frames : List Frame
  /-- The value that has just ended. -/
  last : Setting

/-- Takes in a value that has ended. -/
def Reader.close (r : Reader) (s : Setting) : Reader :=
  match r.frames with
  | .list elements :: outer => { r with expected := .mark, frames := .list (s :: elements) :: outer }
  | .table fields name :: outer =>
    { r with expected := .mark, frames := .table ((name, s) :: fields) name :: outer }
  | [] => { expected := .mark, frames := [], last := s }

/-- Takes in a token. -/
def Reader.next? (r : Reader) (t : Token) : Option Reader :=
  match r.expected, t, r.frames with
  | .colon, .colon, _ => some { r with expected := .value }
  | .name, .plain (.text s), .table fields _ :: outer
  | .nameOrEnd, .plain (.text s), .table fields _ :: outer =>
    some { r with expected := .colon, frames := .table fields s :: outer }
  | .mark, .comma, .list _ :: _ => some { r with expected := .value }
  | .mark, .comma, .table .. :: _ => some { r with expected := .name }
  | .mark, .closeList, .list elements :: outer
  | .valueOrEnd, .closeList, .list elements :: outer =>
    some ({ r with frames := outer }.close (.list elements.reverse))
  | .mark, .closeTable, .table fields _ :: outer
  | .nameOrEnd, .closeTable, .table fields _ :: outer =>
    some ({ r with frames := outer }.close (.table fields))
  | .value, .plain s, _ | .valueOrEnd, .plain s, _ => some (r.close s)
  | .value, .openList, frames | .valueOrEnd, .openList, frames =>
    some { r with expected := .valueOrEnd, frames := .list [] :: frames }
  | .value, .openTable, frames | .valueOrEnd, .openTable, frames =>
    some { r with expected := .nameOrEnd, frames := .table [] "" :: frames }
  | _, _, _ => none

/-- The value of a text that holds exactly one. -/
def parse? (text : String) : Option Setting := do
  let r ← (← tokens? text.toList).foldlM Reader.next? ⟨.value, [], .null⟩
  if r.expected = .mark ∧ r.frames.isEmpty then some r.last else none

end Listbox.Json
