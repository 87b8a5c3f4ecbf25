import UiTree.Text.Utf8

/-!
# UiTree.Xml.Encoding -- documents in the encoding that they declare

A dump arrives as text and is stored as UTF-8. A document that declares another single-byte encoding
is nevertheless read by that encoding: every byte of the UTF-8 form becomes one character. ASCII
text is not affected.

* **Names.** Names of encodings are compared without regard to case.
* **Limit.** Five encodings are read, under the names in `Encoding.names`. There are others that a
  reader could know, such as ISO-8859-2 or UTF-7; here a document that declares one is refused.
* **Main statement.** `decode_ascii`: a text of ASCII characters is the same in every encoding.
-/

namespace UiTree.Xml

/-- The encodings that are read when a document declares them. -/
inductive Encoding where
  | utf8
  | latin1
  | latin9
  | windows1252
  | ascii
  deriving DecidableEq, Repr

namespace Encoding

/-- The names of the encodings, in upper case. -/
def names : List (String × Encoding) :=
  [("UTF-8", .utf8), ("UTF8", .utf8), ("ISO-8859-1", .latin1), ("ISO-LATIN-1", .latin1),
   ("ISO8859-1", .latin1), ("ISO_8859-1", .latin1), ("LATIN1", .latin1), ("L1", .latin1),
   ("CP819", .latin1), ("IBM819", .latin1), ("ISO-8859-15", .latin9), ("ISO8859-15", .latin9),
   ("ISO_8859-15", .latin9), ("LATIN-9", .latin9), ("WINDOWS-1252", .windows1252),
   ("CP1252", .windows1252), ("US-ASCII", .ascii), ("ASCII", .ascii), ("ISO646-US", .ascii),
   ("US", .ascii)]

/-- The encoding of a name, when it is one of those that are read. -/
def ofName? (name : Text) : Option Encoding :=
  (names.find? fun e => e.1.toList == name.map Char.toUpper).map Prod.snd

/-- The characters at 0x80 to 0x9f in Windows code page 1252; zero marks an unused byte. -/
def windowsTable : List Nat :=
  [0x20ac, 0, 0x201a, 0x0192, 0x201e, 0x2026, 0x2020, 0x2021, 0x02c6, 0x2030, 0x0160, 0x2039,
   0x0152, 0, 0x017d, 0, 0, 0x2018, 0x2019, 0x201c, 0x201d, 0x2022, 0x2013, 0x2014, 0x02dc, 0x2122,
   0x0161, 0x203a, 0x0153, 0, 0x017e, 0x0178]

/-- The characters of Latin-9 that differ from Latin-1. -/
def latin9Table : List (Nat × Nat) :=
  [(0xa4, 0x20ac), (0xa6, 0x0160), (0xa8, 0x0161), (0xb4, 0x017d), (0xb8, 0x017e), (0xbc, 0x0152),
   (0xbd, 0x0153), (0xbe, 0x0178)]

/-- The character of one byte. -/
def ofByte : Encoding → Nat → Option Char
  | .ascii, b => if b < 0x80 then some (Char.ofNat b) else none
  | .latin9, b => some (Char.ofNat (((latin9Table.find? fun e => e.1 == b).map Prod.snd).getD b))
  | .windows1252, b =>
    if 0x80 ≤ b ∧ b ≤ 0x9f then
      match windowsTable[b - 0x80]? with
      | some (n + 1) => some (Char.ofNat (n + 1))
      | _ => none
    else some (Char.ofNat b)
  | _, b => some (Char.ofNat b)

/-- The text that a document in this encoding holds, read from the bytes of its UTF-8 form. -/
def decode (e : Encoding) (t : Text) : Option Text :=
  match e with
  | .utf8 => some t
  | e => (t.flatMap Text.utf8Bytes).mapM e.ofByte

end Encoding

theorem Encoding.ofByte_of_lt (e : Encoding) {b : Nat} (h : b < 0x80) :
    e.ofByte b = some (Char.ofNat b) := by
  cases e with
  | utf8 => rfl
  | latin1 => rfl
  | latin9 =>
    have hnone : latin9Table.find? (fun x => x.1 == b) = none := by
      rw [List.find?_eq_none]
      intro x hx hb
      have hlow : ∀ y ∈ latin9Table, 0x80 ≤ y.1 := by decide
      have := hlow x hx
      rw [beq_iff_eq] at hb
      omega
    simp [ofByte, hnone]
  | windows1252 =>
    simp only [ofByte]
    rw [if_neg (by omega)]
  | ascii => simp [ofByte, h]

/-- ASCII text is the same in every encoding. -/
theorem Encoding.decode_ascii (e : Encoding) {t : Text} (h : ∀ c ∈ t, c.toNat < 0x80) :
    e.decode t = some t := by
  have key : (t.flatMap Text.utf8Bytes).mapM e.ofByte = some t := by
    induction t with
    | nil => rfl
    | cons c t ih =>
      have hc := h c (by simp)
      rw [List.flatMap_cons, Text.utf8Bytes_of_lt hc]
      simp only [List.cons_append, List.nil_append, List.mapM_cons, e.ofByte_of_lt hc]
      rw [ih fun d hd => h d (List.mem_cons_of_mem _ hd)]
      simp
  cases e with
  | utf8 => rfl
  | latin1 => exact key
  | latin9 => exact key
  | windows1252 => exact key
  | ascii => exact key

end UiTree.Xml
