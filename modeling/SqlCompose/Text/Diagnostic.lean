import SqlCompose.Text.Hidden

/-!
# Quoted text in diagnostics

Diagnostics write a text between quotation marks, with escapes for the quotation mark, the
backslash, the common controls and every character that has no visible form.
-/

namespace SqlCompose.Text

/-- A character as diagnostics write it. -/
def diagnoseChar (c : Char) : List Char :=
  if c = '"' then ['\\', '"']
  else if c = '\\' then ['\\', '\\']
  else if c = '\n' then ['\\', 'n']
  else if c = '\r' then ['\\', 'r']
  else if c = '\t' then ['\\', 't']
  else if c.toNat = 0 then ['\\', '0']
  else if isHidden c then ['\\', 'u', '{'] ++ Nat.toDigits 16 c.toNat ++ ['}']
  else [c]

/-- A text between quotation marks. -/
def diagnose (s : String) : String :=
  String.ofList ('"' :: s.toList.flatMap diagnoseChar ++ ['"'])

end SqlCompose.Text
