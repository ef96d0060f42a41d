/-!
# Text as bytes

The system takes names and prints output as bytes, most of which are the UTF-8 form of a text. Bytes that
are not can still be shown: each longest piece that starts a character and does not finish it, and each
byte that starts none, is shown as the replacement character.
-/

namespace GoTrace

abbrev Octet.slash : UInt8 := 0x2F

abbrev Octet.dot : UInt8 := 0x2E

abbrev Octet.colon : UInt8 := 0x3A

namespace Text

def octets (text : String) : List UInt8 := text.toByteArray.data.toList

def ofOctets? (octets : List UInt8) : Option String :=
  String.fromUTF8? octets.toByteArray

/-- A character of which bytes are missing: the next one lies between `least` and `greatest`, and those
that are there come to `value`. -/
structure Unfinished where
  missing : Nat
  least : UInt8
  greatest : UInt8
  value : Nat

def start? (octet : UInt8) : Option Unfinished :=
  if 0xC2 ≤ octet ∧ octet ≤ 0xDF then some ⟨1, 0x80, 0xBF, octet.toNat - 0xC0⟩
  else if 0xE0 ≤ octet ∧ octet ≤ 0xEF then
    let least := if octet = 0xE0 then 0xA0 else 0x80
    let greatest := if octet = 0xED then 0x9F else 0xBF
    some ⟨2, least, greatest, octet.toNat - 0xE0⟩
  else if 0xF0 ≤ octet ∧ octet ≤ 0xF4 then
    let least := if octet = 0xF0 then 0x90 else 0x80
    let greatest := if octet = 0xF4 then 0x8F else 0xBF
    some ⟨3, least, greatest, octet.toNat - 0xF0⟩
  else none

/-- The characters of bytes, of which the first ones may finish a character. What is no character is
replaced. -/
def lossy : Option Unfinished → List UInt8 → List Char
  | none, [] => []
  | some _, [] => ['\uFFFD']
  | unfinished, octet :: rest =>
      let afresh : List Char :=
        if octet < 0x80 then Char.ofNat octet.toNat :: lossy none rest
        else
          match start? octet with
          | some started => lossy (some started) rest
          | none => '\uFFFD' :: lossy none rest
      match unfinished with
      | none => afresh
      | some ⟨missing, least, greatest, value⟩ =>
          if least ≤ octet ∧ octet ≤ greatest then
            let value := value * 64 + (octet.toNat - 0x80)
            if missing ≤ 1 then Char.ofNat value :: lossy none rest
            else lossy (some ⟨missing - 1, 0x80, 0xBF, value⟩) rest
          else '\uFFFD' :: afresh

def shown (octets : List UInt8) : String :=
  (ofOctets? octets).getD (String.ofList (lossy none octets))

end Text

end GoTrace
