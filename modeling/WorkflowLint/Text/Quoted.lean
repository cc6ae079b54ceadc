/-
Text between double quotes, as error messages quote a scalar: the quote, the backslash, the usual controls and every
character that does not show by itself are escaped.
-/
import WorkflowLint.Text.Hidden

namespace WorkflowLint.Text

/-- the lower-case hexadecimal digits of a number -/
def hexadecimal (n : Nat) : List Char :=
  Nat.toDigits 16 n

def quoteChar (c : Char) : List Char :=
  if c.toNat = 0 then ['\\', '0']
  else if c = '\t' then ['\\', 't']
  else if c = '\r' then ['\\', 'r']
  else if c = '\n' then ['\\', 'n']
  else if c = '\\' then ['\\', '\\']
  else if c = '"' then ['\\', '"']
  else if isHidden c then ['\\', 'u', '{'] ++ hexadecimal c.toNat ++ ['}']
  else [c]

/-- the text in double quotes -/
def quoted (text : List Char) : List Char :=
  '"' :: text.flatMap quoteChar ++ ['"']

end WorkflowLint.Text
