import EbmlReport.Text.Hex

/-!
# Text for a terminal

A terminal obeys certain controls instead of showing them, so a file name that holds
them could hide or forge what an error line says.  `Terminal.text` writes these
controls by their numbers and leaves all other characters as they are.

**Results.**
* `Terminal.encode_eq_self`: a text without such controls is not changed.
-/

namespace EbmlReport

namespace Terminal

/-- Controls of one byte that can begin or spoil what a terminal shows: bell,
backspace, form feed, escape and delete. -/
def isShortControl (c : Char) : Bool :=
  ['\x07', '\x08', '\x0c', '\x1b', '\x7f'].contains c

/-- Controls from U+0080 to U+009F, each of which stands for an escape sequence. -/
def isWideControl (c : Char) : Bool :=
  128 ≤ c.toNat && c.toNat ≤ 159

/-- The written form of one character. -/
def encodeChar (c : Char) : List Char :=
  if isShortControl c then
    ['\\', 'x', Hex.digit (c.toNat / 16), Hex.digit (c.toNat % 16)]
  else if isWideControl c then
    ['\\', 'u', '\x7b', Hex.digit (c.toNat / 16), Hex.digit (c.toNat % 16), '\x7d']
  else [c]

/-- The written form of a text. -/
def encode (text : List Char) : List Char :=
  text.flatMap encodeChar

theorem encode_eq_self {text : List Char}
    (h : ∀ c ∈ text, isShortControl c = false ∧ isWideControl c = false) :
    encode text = text := by
  induction text with
  | nil => rfl
  | cons c rest ih =>
      have hc := h c (by simp)
      have hrest := ih fun d hd => h d (by simp [hd])
      simp only [encode] at hrest
      simp [encode, encodeChar, hc.1, hc.2, hrest]

/-- A text as it is sent to a terminal. -/
def text (s : String) : String :=
  String.ofList (encode s.toList)

end Terminal

end EbmlReport
