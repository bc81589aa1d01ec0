import MockRedirect.Text.Case
import MockRedirect.Text.Mark
/-! Directions of characters: the ones written from left to right or from right to left, and those
that follow what is around them. -/
namespace MockRedirect.Text

inductive Direction where
  | left
  | right
  | europeanNumber
  | arabicNumber
  | neutral
  | mark
  deriving DecidableEq, Repr

/-- Letters written from right to left. -/
def rightBounds : List Nat := [
  0x5BE, 0x5F5, 0x608, 0x609, 0x60B, 0x60C, 0x60D, 0x60E, 0x61B, 0x64B, 0x66D, 0x6D6, 0x6E5, 0x6E7,
  0x6EE, 0x6F0, 0x6FA, 0x7F6, 0x7FA, 0x8CA, 0xFBB2, 0xFBC3, 0xFE73, 0xFE74, 0x10800, 0x1091C,
  0x10920, 0x10B36, 0x10B40, 0x10D24, 0x10D4A, 0x10D50, 0x10D6F, 0x10D90, 0x10E80, 0x10EC8,
  0x10F00, 0x10FF7, 0x1E800, 0x1ED3E]

/-- Digits and number signs of the Arabic script and its kin. -/
def arabicNumberBounds : List Nat := [
  0x660, 0x66A, 0x66B, 0x66D, 0x10D30, 0x10D4A, 0x10E60, 0x10E7F]

/-- Digits beyond ASCII that are written like those of ASCII. -/
def europeanNumberBounds : List Nat := [
  0x6F0, 0x6FA, 0x102E1, 0x102FC]

/-- Signs and punctuation beyond ASCII. -/
def neutralBounds : List Nat := [
  0xA1, 0xD8, 0xF7, 0xF8, 0x2B9, 0x2BB, 0x2C2, 0x2D0, 0x2D2, 0x2EE, 0x2EF, 0x300, 0x375, 0x376,
  0x3F6, 0x3F7, 0x58A, 0x58B, 0x58D, 0x590, 0x606, 0x608, 0x609, 0x60B, 0x60C, 0x60D, 0x60E, 0x610,
  0x66A, 0x66B, 0x6DE, 0x6DF, 0x6E9, 0x6EA, 0x7F6, 0x7FA, 0x9F2, 0x9F4, 0x9FB, 0x9FC, 0xAF1, 0xAF2,
  0xBF3, 0xBFB, 0xC78, 0xC7F, 0xE3F, 0xE40, 0xF3A, 0xF3E, 0x1390, 0x139A, 0x1400, 0x1401, 0x169B,
  0x169D, 0x17DB, 0x17DC, 0x17F0, 0x180B, 0x1940, 0x1946, 0x19DE, 0x1A00, 0x200C, 0x214E, 0x218A,
  0x2336, 0x237B, 0x2395, 0x2396, 0x26AC, 0x26AD, 0x2800, 0x2900, 0x2C00, 0x2CE5, 0x2CEB, 0x2CF9,
  0x2D00, 0x2E00, 0x3005, 0x3008, 0x3021, 0x3030, 0x3031, 0x3037, 0x3038, 0x303D, 0x3040, 0x30A0,
  0x30A1, 0x30FB, 0x30FC, 0x31C0, 0x31E6, 0x4DC0, 0x4E00, 0xA490, 0xA4C7, 0xA60D, 0xA610, 0xA673,
  0xA680, 0xA700, 0xA722, 0xA788, 0xA789, 0xA828, 0xA82C, 0xA838, 0xA83A, 0xA874, 0xA878, 0xAB6A,
  0xAB6C, 0xFBC3, 0xFE47, 0x10101, 0x10102, 0x10140, 0x1018D, 0x10190, 0x101A1, 0x1091F, 0x10920,
  0x10B39, 0x10B40, 0x10D6E, 0x10D6F, 0x10ED0, 0x10ED9, 0x11052, 0x11066, 0x11660, 0x1166D,
  0x11FD5, 0x11FF2, 0x16FE2, 0x16FE3, 0x1CC00, 0x1CEF1, 0x1D1E9, 0x1D246, 0x1D300, 0x1D357,
  0x1E2FF, 0x1E300, 0x1EEF0, 0x1F130, 0x1F16D, 0x1F170, 0x1F1AD, 0x1F1AE, 0x1F260, 0x1FBFB]

/-- Marks that are written like a letter, from left to right. -/
def leftMarks : List Nat := [0xCBF, 0xCC6, 0x11A07, 0x11A08, 0x11C3F]

/-- The direction of a character that a domain name can hold. Of ASCII, letters go to the left and
digits are numbers. -/
def direction (c : Char) : Direction :=
  let n := c.toNat
  if n < 0x80 then
    if isAsciiLetter c then .left else if isAsciiDigit c then .europeanNumber else .neutral
  else if isNonspacing c then if leftMarks.contains n then .left else .mark
  else if withinBounds n rightBounds then .right
  else if withinBounds n arabicNumberBounds then .arabicNumber
  else if withinBounds n europeanNumberBounds then .europeanNumber
  else if withinBounds n neutralBounds then .neutral
  else .left

example : [rightBounds, arabicNumberBounds, europeanNumberBounds, neutralBounds].all ascending =
    true := by decide +kernel
example : ['a', '-', '1', 'é', 'א', 'ا', '٠', '۰', '\u0301', '中', '’'].map direction =
    [.left, .neutral, .europeanNumber, .left, .right, .right, .arabicNumber, .europeanNumber,
      .mark, .left, .neutral] := by decide +kernel

end MockRedirect.Text
