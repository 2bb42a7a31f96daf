/-!
# Upper case

Words are compared with keywords in upper case, and the upper case of one character may be several
characters. Ten characters beyond ASCII have an upper case of ASCII letters alone. That of any
other character beyond ASCII holds such a character again, so it may stay as it is: no text with
one of them is a keyword either way.
-/

namespace SqlCompose.Text

/-- The characters beyond ASCII whose upper case consists of ASCII letters, with that upper
case: the sharp and the long s, the dotless i, and the ligatures of Latin letters. -/
def asciiCapitals : List (Char × List Char) := [
  (Char.ofNat 0xDF, ['S', 'S']), (Char.ofNat 0x131, ['I']), (Char.ofNat 0x17F, ['S']),
  (Char.ofNat 0xFB00, ['F', 'F']), (Char.ofNat 0xFB01, ['F', 'I']),
  (Char.ofNat 0xFB02, ['F', 'L']), (Char.ofNat 0xFB03, ['F', 'F', 'I']),
  (Char.ofNat 0xFB04, ['F', 'F', 'L']), (Char.ofNat 0xFB05, ['S', 'T']),
  (Char.ofNat 0xFB06, ['S', 'T'])]

/-- The upper case of a character where it consists of ASCII characters, else the character. -/
def upperChar (c : Char) : List Char :=
  if c.toNat < 128 then [c.toUpper] else (asciiCapitals.lookup c).getD [c]

/-- A text in the case in which it is compared with keywords. -/
def upper (text : String) : String := String.ofList (text.toList.flatMap upperChar)

end SqlCompose.Text
