/-
Identifiers of domains: `parse_uuid` of `Hyperion/error/StatusCodeDomain.h`.

A UUID is written in 32 hexadecimal digits with dashes between them, plainly or in braces.
The first sixteen digits, the lowest first, make one word and the others make another, and
the identifier is their exclusive or.
-/
import Mathlib.Data.BitVec

namespace Hyperion

/-- `parse_byte_from_char(character)`; where it throws there is none. -/
def parse_byte_from_char (character : Char) : Option (BitVec 64) :=
  if '0' ≤ character ∧ character ≤ '9' then
    some (BitVec.ofNat 64 (character.toNat - '0'.toNat))
  else if 'a' ≤ character ∧ character ≤ 'f' then
    some (BitVec.ofNat 64 (10 + character.toNat - 'a'.toNat))
  else if 'A' ≤ character ∧ character ≤ 'F' then
    some (BitVec.ofNat 64 (10 + character.toNat - 'A'.toNat))
  else none

/-- The digits at some places, each shifted by four bits more than the one before. -/
def parse_digits (uuid : List Char) : List Nat → Nat → Option (BitVec 64)
  | [], _ => some 0
  | i :: rest, shift =>
      (uuid[i]?.bind parse_byte_from_char).bind fun byte =>
        (parse_digits uuid rest (shift + 4)).map fun others => (byte <<< shift) ||| others

/-- `parse_uuid(s)`, of 36 characters or of 38 with braces around them. -/
def parse_uuid (s : List Char) : Option (BitVec 64) :=
  let uuid := if s.length = 38 then s.drop 1 else s
  (parse_digits uuid [0, 1, 2, 3, 4, 5, 6, 7, 9, 10, 11, 12, 14, 15, 16, 17] 0).bind fun low =>
    (parse_digits uuid [19, 20, 21, 22, 24, 25, 26, 27, 28, 29, 30, 31, 32, 33, 34, 35] 0).map
      fun high => low ^^^ high

/-- The identifier of a UUID written in the source. -/
def uuid_of (s : String) : BitVec 64 := (parse_uuid s.toList).getD 0

end Hyperion
