import Listbox.Text.Printable

set_option autoImplicit false

/-! # Quoted text

Texts in messages stand between double quotes. A quote and a backslash are escaped by a backslash,
four controls have a letter, and any other character that would not show, or that would merge with
the one before it, is written by its number. -/

namespace Listbox.Text

/-- A number in lower-case hexadecimal digits. -/
def hex (n : Nat) : String := String.ofList (Nat.toDigits 16 n)

/-- How a character is written inside quotes. -/
def escape (c : Char) : String :=
  if c = '"' then "\\\""
  else if c = '\\' then "\\\\"
  else if c = '\t' then "\\t"
  else if c = '\n' then "\\n"
  else if c = '\r' then "\\r"
  else if c = Char.ofNat 0 then "\\0"
  else if isExtendingMark c || !isPrintable c then "\\u\x7b" ++ hex c.toNat ++ "\x7d"
  else String.singleton c

/-- A text between quotes. -/
def quote (s : String) : String := "\"" ++ String.join (s.toList.map escape) ++ "\""

end Listbox.Text
