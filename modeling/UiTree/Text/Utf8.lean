import UiTree.Text.Basic

/-!
# UiTree.Text.Utf8 -- texts as bytes

A text is written in UTF-8, and bytes are read back as text. Bytes that are no UTF-8 are read too:
the longest start of a character that breaks off, or a byte that starts none, is read as U+FFFD.

* **Reading.** The reader goes byte by byte. What is still expected of a character that has begun is
  the list of **intervals** in which its next bytes must lie, and the bits collected so far.
-/

namespace UiTree.Text

/-- The bytes of a character in UTF-8. -/
def utf8Bytes (c : Char) : List Nat :=
  let n := c.toNat
  if n < 0x80 then [n]
  else if n < 0x800 then [0xc0 + n / 0x40, 0x80 + n % 0x40]
  else if n < 0x10000 then [0xe0 + n / 0x1000, 0x80 + n / 0x40 % 0x40, 0x80 + n % 0x40]
  else [0xf0 + n / 0x40000, 0x80 + n / 0x1000 % 0x40, 0x80 + n / 0x40 % 0x40, 0x80 + n % 0x40]

theorem utf8Bytes_of_lt {c : Char} (h : c.toNat < 0x80) : utf8Bytes c = [c.toNat] := by
  simp [utf8Bytes, h]

/-- The character that stands for bytes that are no text. -/
def replacement : Char := '\ufffd'

/-- A character that has begun: the intervals of the bytes that must follow, and the bits so far. -/
structure Partial where
  awaited : List (Nat × Nat)
  bits : Nat

/-- No character has begun. -/
def Partial.none : Partial := ⟨[], 0⟩

/-- The interval of a byte that continues a character. -/
def continuation : Nat × Nat := (0x80, 0xbf)

/-- What the first byte of a character gives at once, and what it begins. -/
def leadByte (b : Nat) : Text × Partial :=
  if b < 0x80 then ([Char.ofNat b], Partial.none)
  else if 0xc2 ≤ b ∧ b ≤ 0xdf then ([], ⟨[continuation], b - 0xc0⟩)
  else if b = 0xe0 then ([], ⟨[(0xa0, 0xbf), continuation], 0⟩)
  else if b = 0xed then ([], ⟨[(0x80, 0x9f), continuation], 0xd⟩)
  else if 0xe1 ≤ b ∧ b ≤ 0xef then ([], ⟨[continuation, continuation], b - 0xe0⟩)
  else if b = 0xf0 then ([], ⟨[(0x90, 0xbf), continuation, continuation], 0⟩)
  else if 0xf1 ≤ b ∧ b ≤ 0xf3 then ([], ⟨[continuation, continuation, continuation], b - 0xf0⟩)
  else if b = 0xf4 then ([], ⟨[(0x80, 0x8f), continuation, continuation], 4⟩)
  else ([replacement], Partial.none)

/-- What one byte gives at once, and what has begun after it. -/
def readByte (p : Partial) (b : Nat) : Text × Partial :=
  match p.awaited with
  | [] => leadByte b
  | (low, high) :: more =>
    if low ≤ b ∧ b ≤ high then
      let bits := 0x40 * p.bits + b % 0x40
      if more.isEmpty then ([Char.ofNat bits], Partial.none) else ([], ⟨more, bits⟩)
    else
      let (out, next) := leadByte b
      (replacement :: out, next)

/-- The text of bytes after a character that has begun. -/
def ofUtf8From (p : Partial) : List Nat → Text
  | [] => if p.awaited.isEmpty then [] else [replacement]
  | b :: bs =>
    let (out, next) := readByte p b
    out ++ ofUtf8From next bs

/-- The text of bytes. -/
def ofUtf8 (bs : List Nat) : Text := ofUtf8From Partial.none bs

end UiTree.Text
