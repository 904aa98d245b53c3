import EbmlReport.Text.Extender
import EbmlReport.Text.Hex
import EbmlReport.Text.Unprintable

/-!
# Quoted text

Text taken from a file is shown between double quotes on one line.  Quotes,
backslashes and the common controls are written as two-character escapes.  Other
characters that would not show by themselves, and marks that would attach to the
character before them, are written as `\u` with the code point in braces.

Of the letters the Hangul fillers do not show, and the halfwidth katakana sound marks
do, although they extend the letter before them.
-/

namespace EbmlReport

namespace Quoted

/-- The letters that fill a place in a Hangul syllable without being shown. -/
def isFiller (c : Char) : Bool :=
  ['\u115f', '\u1160', '\u3164', '\uffa0'].contains c

/-- The halfwidth sound marks of katakana, which take a cell of their own. -/
def isSoundMark (c : Char) : Bool :=
  ['\uff9e', '\uff9f'].contains c

/-- Marks that have no cell of their own. -/
def isAttached (c : Char) : Bool :=
  Ranges.extender.contains c.toNat && !isSoundMark c

/-- Characters written as a numeric escape. -/
def isHidden (c : Char) : Bool :=
  isFiller c || isAttached c || Ranges.unprintable.contains c.toNat

/-- The written form of one character. -/
def encodeChar (c : Char) : List Char :=
  if c = '\x00' then ['\\', '0']
  else if c = '\t' then ['\\', 't']
  else if c = '\r' then ['\\', 'r']
  else if c = '\n' then ['\\', 'n']
  else if c = '"' then ['\\', '"']
  else if c = '\\' then ['\\', '\\']
  else if isHidden c then
    ['\\', 'u', '\x7b'] ++ Nat.toDigits 16 c.toNat ++ ['\x7d']
  else [c]

/-- The written form of a text, without its quotes. -/
def encode (text : List Char) : List Char :=
  text.flatMap encodeChar

end Quoted

/-- A text between double quotes. -/
def Quoted.text (text : String) : String :=
  String.ofList (['"'] ++ Quoted.encode text.toList ++ ['"'])

end EbmlReport
