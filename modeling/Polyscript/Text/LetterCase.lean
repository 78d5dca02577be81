/-!
# Upper and lower case letters

Which characters are upper case, and what their lower-case forms are, is a matter
of the Unicode character database (version 17): the property `Uppercase` and the
full lower-case mapping. The upper-case letters are listed as runs of evenly
spaced characters whose lower-case forms are spaced in the same way. One letter,
the dotted capital I, has a lower-case form of two characters and stands apart.
-/

namespace Polyscript.Text

/-- Evenly spaced upper-case letters: `count` of them from `first` on, `step`
apart, the first one having the lower-case form `lower`. -/
private structure CaseRun where
  first : Nat
  count : Nat
  step : Nat
  lower : Nat

/-- Whether a code point is one of the run's letters. -/
private def CaseRun.has (r : CaseRun) (code : Nat) : Bool :=
  r.first ≤ code && code < r.first + r.count * r.step && (code - r.first) % r.step == 0

/-- The upper-case letters with a lower-case form of a single character. A letter
without a lower-case form stands for itself. -/
private def caseRuns : List CaseRun := [
    ⟨0x0041, 26, 1, 0x0061⟩, ⟨0x00C0, 23, 1, 0x00E0⟩, ⟨0x00D8, 7, 1, 0x00F8⟩,
    ⟨0x0100, 24, 2, 0x0101⟩, ⟨0x0132, 3, 2, 0x0133⟩, ⟨0x0139, 8, 2, 0x013A⟩,
    ⟨0x014A, 23, 2, 0x014B⟩, ⟨0x0178, 1, 1, 0x00FF⟩, ⟨0x0179, 3, 2, 0x017A⟩,
    ⟨0x0181, 1, 1, 0x0253⟩, ⟨0x0182, 2, 2, 0x0183⟩, ⟨0x0186, 1, 1, 0x0254⟩,
    ⟨0x0187, 1, 1, 0x0188⟩, ⟨0x0189, 2, 1, 0x0256⟩, ⟨0x018B, 1, 1, 0x018C⟩,
    ⟨0x018E, 1, 1, 0x01DD⟩, ⟨0x018F, 1, 1, 0x0259⟩, ⟨0x0190, 1, 1, 0x025B⟩,
    ⟨0x0191, 1, 1, 0x0192⟩, ⟨0x0193, 1, 1, 0x0260⟩, ⟨0x0194, 1, 1, 0x0263⟩,
    ⟨0x0196, 1, 1, 0x0269⟩, ⟨0x0197, 1, 1, 0x0268⟩, ⟨0x0198, 1, 1, 0x0199⟩,
    ⟨0x019C, 1, 1, 0x026F⟩, ⟨0x019D, 1, 1, 0x0272⟩, ⟨0x019F, 1, 1, 0x0275⟩,
    ⟨0x01A0, 3, 2, 0x01A1⟩, ⟨0x01A6, 1, 1, 0x0280⟩, ⟨0x01A7, 1, 1, 0x01A8⟩,
    ⟨0x01A9, 1, 1, 0x0283⟩, ⟨0x01AC, 1, 1, 0x01AD⟩, ⟨0x01AE, 1, 1, 0x0288⟩,
    ⟨0x01AF, 1, 1, 0x01B0⟩, ⟨0x01B1, 2, 1, 0x028A⟩, ⟨0x01B3, 2, 2, 0x01B4⟩,
    ⟨0x01B7, 1, 1, 0x0292⟩, ⟨0x01B8, 1, 1, 0x01B9⟩, ⟨0x01BC, 1, 1, 0x01BD⟩,
    ⟨0x01C4, 1, 1, 0x01C6⟩, ⟨0x01C7, 1, 1, 0x01C9⟩, ⟨0x01CA, 1, 1, 0x01CC⟩,
    ⟨0x01CD, 8, 2, 0x01CE⟩, ⟨0x01DE, 9, 2, 0x01DF⟩, ⟨0x01F1, 1, 1, 0x01F3⟩,
    ⟨0x01F4, 1, 1, 0x01F5⟩, ⟨0x01F6, 1, 1, 0x0195⟩, ⟨0x01F7, 1, 1, 0x01BF⟩,
    ⟨0x01F8, 20, 2, 0x01F9⟩, ⟨0x0220, 1, 1, 0x019E⟩, ⟨0x0222, 9, 2, 0x0223⟩,
    ⟨0x023A, 1, 1, 0x2C65⟩, ⟨0x023B, 1, 1, 0x023C⟩, ⟨0x023D, 1, 1, 0x019A⟩,
    ⟨0x023E, 1, 1, 0x2C66⟩, ⟨0x0241, 1, 1, 0x0242⟩, ⟨0x0243, 1, 1, 0x0180⟩,
    ⟨0x0244, 1, 1, 0x0289⟩, ⟨0x0245, 1, 1, 0x028C⟩, ⟨0x0246, 5, 2, 0x0247⟩,
    ⟨0x0370, 2, 2, 0x0371⟩, ⟨0x0376, 1, 1, 0x0377⟩, ⟨0x037F, 1, 1, 0x03F3⟩,
    ⟨0x0386, 1, 1, 0x03AC⟩, ⟨0x0388, 3, 1, 0x03AD⟩, ⟨0x038C, 1, 1, 0x03CC⟩,
    ⟨0x038E, 2, 1, 0x03CD⟩, ⟨0x0391, 17, 1, 0x03B1⟩, ⟨0x03A3, 9, 1, 0x03C3⟩,
    ⟨0x03CF, 1, 1, 0x03D7⟩, ⟨0x03D2, 3, 1, 0x03D2⟩, ⟨0x03D8, 12, 2, 0x03D9⟩,
    ⟨0x03F4, 1, 1, 0x03B8⟩, ⟨0x03F7, 1, 1, 0x03F8⟩, ⟨0x03F9, 1, 1, 0x03F2⟩,
    ⟨0x03FA, 1, 1, 0x03FB⟩, ⟨0x03FD, 3, 1, 0x037B⟩, ⟨0x0400, 16, 1, 0x0450⟩,
    ⟨0x0410, 32, 1, 0x0430⟩, ⟨0x0460, 17, 2, 0x0461⟩, ⟨0x048A, 27, 2, 0x048B⟩,
    ⟨0x04C0, 1, 1, 0x04CF⟩, ⟨0x04C1, 7, 2, 0x04C2⟩, ⟨0x04D0, 48, 2, 0x04D1⟩,
    ⟨0x0531, 38, 1, 0x0561⟩, ⟨0x10A0, 38, 1, 0x2D00⟩, ⟨0x10C7, 1, 1, 0x2D27⟩,
    ⟨0x10CD, 1, 1, 0x2D2D⟩, ⟨0x13A0, 80, 1, 0xAB70⟩, ⟨0x13F0, 6, 1, 0x13F8⟩,
    ⟨0x1C89, 1, 1, 0x1C8A⟩, ⟨0x1C90, 43, 1, 0x10D0⟩, ⟨0x1CBD, 3, 1, 0x10FD⟩,
    ⟨0x1E00, 75, 2, 0x1E01⟩, ⟨0x1E9E, 1, 1, 0x00DF⟩, ⟨0x1EA0, 48, 2, 0x1EA1⟩,
    ⟨0x1F08, 8, 1, 0x1F00⟩, ⟨0x1F18, 6, 1, 0x1F10⟩, ⟨0x1F28, 8, 1, 0x1F20⟩,
    ⟨0x1F38, 8, 1, 0x1F30⟩, ⟨0x1F48, 6, 1, 0x1F40⟩, ⟨0x1F59, 4, 2, 0x1F51⟩,
    ⟨0x1F68, 8, 1, 0x1F60⟩, ⟨0x1FB8, 2, 1, 0x1FB0⟩, ⟨0x1FBA, 2, 1, 0x1F70⟩,
    ⟨0x1FC8, 4, 1, 0x1F72⟩, ⟨0x1FD8, 2, 1, 0x1FD0⟩, ⟨0x1FDA, 2, 1, 0x1F76⟩,
    ⟨0x1FE8, 2, 1, 0x1FE0⟩, ⟨0x1FEA, 2, 1, 0x1F7A⟩, ⟨0x1FEC, 1, 1, 0x1FE5⟩,
    ⟨0x1FF8, 2, 1, 0x1F78⟩, ⟨0x1FFA, 2, 1, 0x1F7C⟩, ⟨0x2102, 1, 1, 0x2102⟩,
    ⟨0x2107, 1, 1, 0x2107⟩, ⟨0x210B, 3, 1, 0x210B⟩, ⟨0x2110, 3, 1, 0x2110⟩,
    ⟨0x2115, 1, 1, 0x2115⟩, ⟨0x2119, 5, 1, 0x2119⟩, ⟨0x2124, 1, 1, 0x2124⟩,
    ⟨0x2126, 1, 1, 0x03C9⟩, ⟨0x2128, 1, 1, 0x2128⟩, ⟨0x212A, 1, 1, 0x006B⟩,
    ⟨0x212B, 1, 1, 0x00E5⟩, ⟨0x212C, 2, 1, 0x212C⟩, ⟨0x2130, 2, 1, 0x2130⟩,
    ⟨0x2132, 1, 1, 0x214E⟩, ⟨0x2133, 1, 1, 0x2133⟩, ⟨0x213E, 2, 1, 0x213E⟩,
    ⟨0x2145, 1, 1, 0x2145⟩, ⟨0x2160, 16, 1, 0x2170⟩, ⟨0x2183, 1, 1, 0x2184⟩,
    ⟨0x24B6, 26, 1, 0x24D0⟩, ⟨0x2C00, 48, 1, 0x2C30⟩, ⟨0x2C60, 1, 1, 0x2C61⟩,
    ⟨0x2C62, 1, 1, 0x026B⟩, ⟨0x2C63, 1, 1, 0x1D7D⟩, ⟨0x2C64, 1, 1, 0x027D⟩,
    ⟨0x2C67, 3, 2, 0x2C68⟩, ⟨0x2C6D, 1, 1, 0x0251⟩, ⟨0x2C6E, 1, 1, 0x0271⟩,
    ⟨0x2C6F, 1, 1, 0x0250⟩, ⟨0x2C70, 1, 1, 0x0252⟩, ⟨0x2C72, 1, 1, 0x2C73⟩,
    ⟨0x2C75, 1, 1, 0x2C76⟩, ⟨0x2C7E, 2, 1, 0x023F⟩, ⟨0x2C80, 50, 2, 0x2C81⟩,
    ⟨0x2CEB, 2, 2, 0x2CEC⟩, ⟨0x2CF2, 1, 1, 0x2CF3⟩, ⟨0xA640, 23, 2, 0xA641⟩,
    ⟨0xA680, 14, 2, 0xA681⟩, ⟨0xA722, 7, 2, 0xA723⟩, ⟨0xA732, 31, 2, 0xA733⟩,
    ⟨0xA779, 2, 2, 0xA77A⟩, ⟨0xA77D, 1, 1, 0x1D79⟩, ⟨0xA77E, 5, 2, 0xA77F⟩,
    ⟨0xA78B, 1, 1, 0xA78C⟩, ⟨0xA78D, 1, 1, 0x0265⟩, ⟨0xA790, 2, 2, 0xA791⟩,
    ⟨0xA796, 10, 2, 0xA797⟩, ⟨0xA7AA, 1, 1, 0x0266⟩, ⟨0xA7AB, 1, 1, 0x025C⟩,
    ⟨0xA7AC, 1, 1, 0x0261⟩, ⟨0xA7AD, 1, 1, 0x026C⟩, ⟨0xA7AE, 1, 1, 0x026A⟩,
    ⟨0xA7B0, 1, 1, 0x029E⟩, ⟨0xA7B1, 1, 1, 0x0287⟩, ⟨0xA7B2, 1, 1, 0x029D⟩,
    ⟨0xA7B3, 1, 1, 0xAB53⟩, ⟨0xA7B4, 8, 2, 0xA7B5⟩, ⟨0xA7C4, 1, 1, 0xA794⟩,
    ⟨0xA7C5, 1, 1, 0x0282⟩, ⟨0xA7C6, 1, 1, 0x1D8E⟩, ⟨0xA7C7, 2, 2, 0xA7C8⟩,
    ⟨0xA7CB, 1, 1, 0x0264⟩, ⟨0xA7CC, 8, 2, 0xA7CD⟩, ⟨0xA7DC, 1, 1, 0x019B⟩,
    ⟨0xA7F5, 1, 1, 0xA7F6⟩, ⟨0xFF21, 26, 1, 0xFF41⟩, ⟨0x10400, 40, 1, 0x10428⟩,
    ⟨0x104B0, 36, 1, 0x104D8⟩, ⟨0x10570, 11, 1, 0x10597⟩, ⟨0x1057C, 15, 1, 0x105A3⟩,
    ⟨0x1058C, 7, 1, 0x105B3⟩, ⟨0x10594, 2, 1, 0x105BB⟩, ⟨0x10C80, 51, 1, 0x10CC0⟩,
    ⟨0x10D50, 22, 1, 0x10D70⟩, ⟨0x118A0, 32, 1, 0x118C0⟩, ⟨0x16E40, 32, 1, 0x16E60⟩,
    ⟨0x16EA0, 25, 1, 0x16EBB⟩, ⟨0x1D400, 26, 1, 0x1D400⟩, ⟨0x1D434, 26, 1, 0x1D434⟩,
    ⟨0x1D468, 26, 1, 0x1D468⟩, ⟨0x1D49C, 2, 2, 0x1D49C⟩, ⟨0x1D49F, 1, 1, 0x1D49F⟩,
    ⟨0x1D4A2, 1, 1, 0x1D4A2⟩, ⟨0x1D4A5, 2, 1, 0x1D4A5⟩, ⟨0x1D4A9, 4, 1, 0x1D4A9⟩,
    ⟨0x1D4AE, 8, 1, 0x1D4AE⟩, ⟨0x1D4D0, 26, 1, 0x1D4D0⟩, ⟨0x1D504, 2, 1, 0x1D504⟩,
    ⟨0x1D507, 4, 1, 0x1D507⟩, ⟨0x1D50D, 8, 1, 0x1D50D⟩, ⟨0x1D516, 7, 1, 0x1D516⟩,
    ⟨0x1D538, 2, 1, 0x1D538⟩, ⟨0x1D53B, 4, 1, 0x1D53B⟩, ⟨0x1D540, 5, 1, 0x1D540⟩,
    ⟨0x1D546, 1, 1, 0x1D546⟩, ⟨0x1D54A, 7, 1, 0x1D54A⟩, ⟨0x1D56C, 26, 1, 0x1D56C⟩,
    ⟨0x1D5A0, 26, 1, 0x1D5A0⟩, ⟨0x1D5D4, 26, 1, 0x1D5D4⟩, ⟨0x1D608, 26, 1, 0x1D608⟩,
    ⟨0x1D63C, 26, 1, 0x1D63C⟩, ⟨0x1D670, 26, 1, 0x1D670⟩, ⟨0x1D6A8, 25, 1, 0x1D6A8⟩,
    ⟨0x1D6E2, 25, 1, 0x1D6E2⟩, ⟨0x1D71C, 25, 1, 0x1D71C⟩, ⟨0x1D756, 25, 1, 0x1D756⟩,
    ⟨0x1D790, 25, 1, 0x1D790⟩, ⟨0x1D7CA, 1, 1, 0x1D7CA⟩, ⟨0x1E900, 34, 1, 0x1E922⟩,
    ⟨0x1F130, 26, 1, 0x1F130⟩, ⟨0x1F150, 26, 1, 0x1F150⟩, ⟨0x1F170, 26, 1, 0x1F170⟩]

/-- The lower-case form of an upper-case letter; no other character has one. -/
def lowered? (c : Char) : Option (List Char) :=
  if c = '\u0130' then some ['i', '\u0307']
  else (caseRuns.find? (·.has c.toNat)).map fun r => [Char.ofNat (r.lower + (c.toNat - r.first))]

/-- Whether a character is an upper-case letter. -/
def isUppercase (c : Char) : Bool := (lowered? c).isSome

/-- The lower-case form of an upper-case letter; any other character is kept. -/
def lowercase (c : Char) : List Char := (lowered? c).getD [c]

/-- The lower-case form of an upper-case letter does not begin with a backquote. -/
theorem exists_lowercase {c : Char} (upper : isUppercase c) :
    ∃ first rest, lowercase c = first :: rest ∧ first ≠ '\x60' := by
  obtain ⟨chars, lowered⟩ := Option.isSome_iff_exists.1 upper
  rw [lowercase, lowered, Option.getD_some]
  unfold lowered? at lowered
  split at lowered
  next =>
    obtain rfl := Option.some.inj lowered
    exact ⟨_, _, rfl, by decide⟩
  next =>
    obtain ⟨r, found, rfl⟩ := Option.map_eq_some_iff.1 lowered
    refine ⟨_, _, rfl, ?_⟩
    intro same
    -- all lower-case forms lie beyond the backquote
    have all : ∀ r ∈ caseRuns, 0x60 < r.lower := by decide +kernel
    have beyond := all r (List.mem_of_find?_eq_some found)
    by_cases valid : (r.lower + (c.toNat - r.first)).isValidChar
    · rw [Char.ofNat, dif_pos valid] at same
      have code : r.lower + (c.toNat - r.first) = 0x60 := congrArg Char.toNat same
      omega
    · rw [Char.ofNat, dif_neg valid] at same
      exact absurd same (by decide)

/-- Words run together by capitals, separated by underscores instead: every
upper-case letter is lowered and, unless it opens the name, set off by one. -/
def snakeCase (name : String) : String :=
  match name.toList with
  | [] => ""
  | c :: rest =>
    String.ofList (lowercase c ++ rest.flatMap fun c =>
      if isUppercase c then '_' :: lowercase c else [c])

end Polyscript.Text
