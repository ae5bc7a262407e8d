namespace RegionNet.Text

/-!
# Lowercase

Lowercasing of the Latin, Greek, Cyrillic and Armenian alphabets and of a few letter-like
symbols: a capital letter becomes its small letter, everything else stays. A capital sigma at
the end of a word becomes the final small sigma, and the dotted capital I becomes a small i
followed by a combining dot.
-/

/-- The small letter of a capital letter in one of the covered alphabets, if it has one. -/
def lowerOf (c : Char) : Option Char :=
  let n := c.toNat
  let shift (d : Nat) : Option Char := some (Char.ofNat (n + d))
  if 65 ≤ n && n ≤ 90 then shift 32
  else if (0xC0 ≤ n && n ≤ 0xDE && n != 0xD7) then shift 32
  else if 0x100 ≤ n && n ≤ 0x137 && n % 2 == 0 && n != 0x130 then shift 1
  else if 0x139 ≤ n && n ≤ 0x148 && n % 2 == 1 then shift 1
  else if 0x14A ≤ n && n ≤ 0x177 && n % 2 == 0 then shift 1
  else if n == 0x178 then some (Char.ofNat 0xFF)
  else if 0x179 ≤ n && n ≤ 0x17E && n % 2 == 1 then shift 1
  else if 0x391 ≤ n && n ≤ 0x3AB && n != 0x3A2 then shift 32
  else if n == 0x386 then some (Char.ofNat 0x3AC)
  else if 0x388 ≤ n && n ≤ 0x38A then shift 37
  else if n == 0x38C then some (Char.ofNat 0x3CC)
  else if n == 0x38E || n == 0x38F then shift 63
  else if 0x400 ≤ n && n ≤ 0x40F then shift 80
  else if 0x410 ≤ n && n ≤ 0x42F then shift 32
  else if 0x460 ≤ n && n ≤ 0x481 && n % 2 == 0 then shift 1
  else if 0x48A ≤ n && n ≤ 0x4BF && n % 2 == 0 then shift 1
  else if 0x4D0 ≤ n && n ≤ 0x52F && n % 2 == 0 then shift 1
  else if 0x531 ≤ n && n ≤ 0x556 then shift 48
  else if n == 0x212A then some 'k'
  else if n == 0x212B then some (Char.ofNat 0xE5)
  else none

/-- Whether a character is a letter of the covered alphabets (for the word-final sigma). -/
def isCasedLetter (c : Char) : Bool :=
  c.isAlpha || (lowerOf c).isSome || (0xDF ≤ c.toNat && c.toNat ≤ 0x24F) ||
    (0x3AC ≤ c.toNat && c.toNat ≤ 0x3CE) || (0x430 ≤ c.toNat && c.toNat ≤ 0x45F)

/-- Lowercase a list of characters; `afterLetter` when a letter precedes it. -/
def lowerChars : Bool → List Char → List Char
  | _, [] => []
  | afterLetter, c :: rest =>
    let lowered : List Char :=
      if c.toNat == 0x130 then ['i', Char.ofNat 0x307]
      else if c.toNat == 0x3A3 then
        if afterLetter && !(rest.head?.map isCasedLetter).getD false then [Char.ofNat 0x3C2]
        else [Char.ofNat 0x3C3]
      else [(lowerOf c).getD c]
    lowered ++ lowerChars (isCasedLetter c) rest

/-- The lowercase form of a text. -/
def toLower (s : String) : String := String.ofList (lowerChars false s.toList)

theorem lowerOf_ascii (c : Char) (h : 'A' ≤ c ∧ c ≤ 'Z') :
    lowerOf c = some (Char.ofNat (c.toNat + 32)) := by
  have h1 : 65 ≤ c.toNat := h.1
  have h2 : c.toNat ≤ 90 := h.2
  simp [lowerOf, h1, h2]

end RegionNet.Text
