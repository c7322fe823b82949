/-
Text as Python reads it.

A string is a sequence of Unicode scalar values, so a Python string with a lone
surrogate, which every boundary of the program refuses to encode, is not a value
here.  White space is the set `str.isspace` answers for: the characters whose
bidirectional class is a separator or white space, and the space separators.
The remaining Unicode tables, general category and canonical composition, are
data of the interpreter; they are an instance of `UnicodeData` and nothing is
assumed of them.
-/
import Mathlib.Data.List.DropRight
import Mathlib.Data.String.Basic

namespace Evleda

/-- The tables of the interpreter's Unicode database that the program consults. -/
class UnicodeData where
  /-- `unicodedata.category(c).startswith("C")` -/
  isControl : Char → Bool
  /-- `str.isprintable` on one character -/
  isPrintable : Char → Bool
  /-- `unicodedata.normalize("NFC", s)` -/
  nfc : String → String

namespace Text

/-- `str.isspace` on one character. -/
def isSpace (c : Char) : Bool :=
  let n := c.toNat
  (9 ≤ n && n ≤ 13) || (28 ≤ n && n ≤ 32) || n == 0x85 || n == 0xA0 || n == 0x1680 ||
    (0x2000 ≤ n && n ≤ 0x200A) || n == 0x2028 || n == 0x2029 || n == 0x202F || n == 0x205F ||
    n == 0x3000

/-- `str.strip` -/
def strip (s : String) : String :=
  String.ofList ((s.toList.dropWhile isSpace).rdropWhile isSpace)

/-- `not s.strip()` -/
def isBlank (s : String) : Bool := s.toList.all isSpace

/-- A lower-case hexadecimal digit. -/
def isLowerHex (c : Char) : Bool := ('0' ≤ c && c ≤ '9') || ('a' ≤ c && c ≤ 'f')

/-- Sixty-four lower-case hexadecimal digits. -/
def isSha256 (s : String) : Bool := s.length == 64 && s.toList.all isLowerHex

/-- The lowest `width` hexadecimal digits of a number. -/
def hexDigits (width n : Nat) : List Char :=
  (List.range width).reverse.map (fun place => (n / 16 ^ place % 16).digitChar)

/-- `repr` of a text. -/
def repr [UnicodeData] (s : String) : String :=
  let apostrophe := Char.ofNat 39
  let quote := if apostrophe ∈ s.toList ∧ '"' ∉ s.toList then '"' else apostrophe
  let escape (c : Char) : List Char :=
    if c = quote ∨ c = '\\' then ['\\', c]
    else if c = '\t' then ['\\', 't']
    else if c = '\n' then ['\\', 'n']
    else if c = '\r' then ['\\', 'r']
    else if 32 ≤ c.toNat ∧ c.toNat < 127 then [c]
    else if 127 < c.toNat ∧ UnicodeData.isPrintable c then [c]
    else if c.toNat < 0x100 then '\\' :: 'x' :: hexDigits 2 c.toNat
    else if c.toNat < 0x10000 then '\\' :: 'u' :: hexDigits 4 c.toNat
    else '\\' :: 'U' :: hexDigits 8 c.toNat
  String.ofList (quote :: (s.toList.flatMap escape ++ [quote]))

/-- A natural number in decimal, padded with zeros to a width. -/
def padded (width n : Nat) : String :=
  let digits := Nat.toDigits 10 n
  String.ofList (List.replicate (width - digits.length) '0' ++ digits)

theorem toList_padded (width n : Nat) : (padded width n).toList =
    List.replicate (width - (Nat.toDigits 10 n).length) '0' ++ Nat.toDigits 10 n := by
  rw [padded, String.toList_ofList]

theorem length_padded {width n : Nat} (hwidth : 0 < width) (hn : n < 10 ^ width) :
    (padded width n).toList.length = width := by
  have hle : (Nat.toDigits 10 n).length ≤ width :=
    (Nat.length_toDigits_le_iff (by decide) hwidth).mpr hn
  rw [toList_padded, List.length_append, List.length_replicate]
  omega

theorem isDigit_of_mem_padded {width n : Nat} {c : Char} (hc : c ∈ (padded width n).toList) :
    c.isDigit = true := by
  rw [toList_padded, List.mem_append] at hc
  rcases hc with hzero | hdigit
  · rw [List.eq_of_mem_replicate hzero]
    rfl
  · exact Nat.isDigit_of_mem_toDigits (by decide) (by decide) hdigit

/-- The zeros in front do not count. -/
theorem ofDigitChars_padded (width n : Nat) :
    Nat.ofDigitChars 10 (padded width n).toList 0 = n := by
  rw [toList_padded, Nat.ofDigitChars_append, Nat.ofDigitChars_replicate_zero]
  simp

/-- Year, month and day of a day counted from 1970-01-01 in the Gregorian calendar. -/
def civilFromDays (days : Int) : Int × Nat × Nat :=
  let z := days + 719468
  let era := z / 146097
  let dayOfEra := (z % 146097).toNat
  let yearOfEra := (dayOfEra - dayOfEra / 1460 + dayOfEra / 36524 - dayOfEra / 146096) / 365
  let dayOfYear := dayOfEra - (365 * yearOfEra + yearOfEra / 4 - yearOfEra / 100)
  let shifted := (5 * dayOfYear + 2) / 153
  let month := if shifted < 10 then shifted + 3 else shifted - 9
  let year := yearOfEra + era * 400
  (if month ≤ 2 then year + 1 else year, month, dayOfYear - (153 * shifted + 2) / 5 + 1)

/-- Date and time of day, to the second, of an instant counted in microseconds from 1970-01-01. -/
def dateTime (instant : Int) : String :=
  let (year, month, day) := civilFromDays (instant / 86400000000)
  let seconds := (instant % 86400000000).toNat / 1000000
  padded 4 year.toNat ++ "-" ++ padded 2 month ++ "-" ++ padded 2 day ++ "T" ++
    padded 2 (seconds / 3600) ++ ":" ++ padded 2 (seconds / 60 % 60) ++ ":" ++
    padded 2 (seconds % 60)

/-- The microseconds of an instant within its second. -/
def fraction (instant : Int) : Nat := (instant % 1000000).toNat

/-- `isoformat` in UTC; no fraction is written for a whole second. -/
def isoformat (instant : Int) : String :=
  dateTime instant ++ (if fraction instant = 0 then "" else "." ++ padded 6 (fraction instant)) ++
    "+00:00"

/-- `isoformat(timespec="microseconds")` in UTC, the offset written as `Z`. -/
def isoformatMicroseconds (instant : Int) : String :=
  dateTime instant ++ "." ++ padded 6 (fraction instant) ++ "Z"

example : isoformat 1709164800000001 = "2024-02-29T00:00:00.000001+00:00" := by decide

end Text

end Evleda
