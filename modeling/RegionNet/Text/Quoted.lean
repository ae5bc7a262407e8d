namespace RegionNet.Text

/-!
# Quoted texts in messages

Messages show a text between double quotes. Inside, a backslash, a double quote, and the tab,
line feed, carriage return and NUL characters are written with a backslash; other control and
invisible format characters, and combining marks, are written `\u` with their code point in
lowercase hexadecimal between braces. Everything else stands as it is.
-/

/-- Lowercase hexadecimal digits of a natural, without leading zeros. -/
def hexDigits (n : Nat) : String :=
  String.ofList (Nat.toDigits 16 n)

/-- Whether a character is shown by its code point: control and format characters and the
combining diacritical marks. -/
def isHidden (c : Char) : Bool :=
  let n := c.toNat
  n < 0x20 || (0x7F ≤ n && n ≤ 0x9F) || n == 0xAD || (0x300 ≤ n && n ≤ 0x36F) ||
    (0x200B ≤ n && n ≤ 0x200F) || (0x2028 ≤ n && n ≤ 0x202E) || (0x2060 ≤ n && n ≤ 0x2064) ||
    n == 0xFEFF

/-- How one character is written inside quotes. -/
def quotedChar (c : Char) : String :=
  if c = '\\' then "\\\\"
  else if c = '"' then "\\\""
  else if c = '\t' then "\\t"
  else if c = '\n' then "\\n"
  else if c = '\r' then "\\r"
  else if c.toNat = 0 then "\\0"
  else if isHidden c then "\\u\x7b" ++ hexDigits c.toNat ++ "\x7d"
  else c.toString

/-- A text between double quotes, escaped as messages show it. -/
def quoted (s : String) : String :=
  "\"" ++ String.join (s.toList.map quotedChar) ++ "\""

/-- A list of numbers as messages show it: `[1, 2, 3]`. -/
def natList (xs : List Nat) : String :=
  "[" ++ ", ".intercalate (xs.map toString) ++ "]"

end RegionNet.Text
