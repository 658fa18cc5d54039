import FaultInjection.Number.Decimal

/-!
# Text - Encodings

Bytes are read as characters one sequence at a time.  A sequence is a lead byte
with its continuation bytes; the lead byte bounds the first continuation, which
rules out overlong forms, surrogates and code points that are too large.  A
reader can stop at the first broken sequence, or put a replacement character in
its place and go on with the byte that broke it.

In units of sixteen bits a character below 65536 is one unit; any other is two, of which
the first holds the upper and the second the lower ten bits of what it exceeds 65535 by.

A text is quoted with double quotes; a quote, a reverse solidus and the control
characters are escaped, the common ones with a letter and the others with four
hexadecimal digits.  Every other character stands for itself.

Main definitions:

- `Utf8.encode`, the bytes of characters.
- `Utf8.next`, one sequence at the start of bytes.
- `Utf8.decode?`, the characters of well-formed bytes.
- `Utf8.decodeLossy`, characters with replacements for broken sequences.
- `utf16Units`, the units of a text.
- `quote`, the written form of a text, and `Quoted.escape`, that of one character.
-/

namespace FaultInjection

/-- A sequence of bytes, such as the body of a message. -/
abbrev Bytes := List UInt8

namespace Utf8

/-- The bytes of characters. -/
def encode (cs : List Char) : Bytes := cs.flatMap String.utf8EncodeChar

/-- What a lead byte asks of the bytes after it. -/
structure Lead where
  /-- How many continuation bytes follow. -/
  count : Nat
  /-- The least first continuation byte. -/
  least : Nat
  /-- The greatest first continuation byte. -/
  greatest : Nat
  /-- The high bits of the code point. -/
  bits : Nat

/-- The demands of a lead byte; none for a byte that starts no sequence. -/
def lead? (b : Nat) : Option Lead :=
  if b < 0x80 then some ⟨0, 0x80, 0xbf, b⟩
  else if b < 0xc2 then none
  else if b < 0xe0 then some ⟨1, 0x80, 0xbf, b - 0xc0⟩
  else if b = 0xe0 then some ⟨2, 0xa0, 0xbf, 0⟩
  else if b = 0xed then some ⟨2, 0x80, 0x9f, 0xd⟩
  else if b < 0xf0 then some ⟨2, 0x80, 0xbf, b - 0xe0⟩
  else if b = 0xf0 then some ⟨3, 0x90, 0xbf, 0⟩
  else if b = 0xf4 then some ⟨3, 0x80, 0x8f, 4⟩
  else if b < 0xf4 then some ⟨3, 0x80, 0xbf, b - 0xf0⟩
  else none

/-- The code point that continuation bytes complete, if they do, and the bytes left. -/
def continuation : Nat → Nat → Nat → Nat → Bytes → Option Nat × Bytes
  | 0, _, _, bits, bytes => (some bits, bytes)
  | _ + 1, _, _, _, [] => (none, [])
  | count + 1, least, greatest, bits, b :: bytes =>
    if least ≤ b.toNat && b.toNat ≤ greatest then
      continuation count 0x80 0xbf (bits * 64 + (b.toNat - 0x80)) bytes
    else (none, b :: bytes)

/-- The character at the start of bytes, none for a broken sequence, and the bytes left. -/
def next (b : UInt8) (bytes : Bytes) : Option Char × Bytes :=
  match lead? b.toNat with
  | none => (none, bytes)
  | some l =>
    let (code, rest) := continuation l.count l.least l.greatest l.bits bytes
    (code.map Char.ofNat, rest)

/-- Continuation bytes are only taken away. -/
theorem continuation_length (count least greatest bits : Nat) (bytes : Bytes) :
    (continuation count least greatest bits bytes).2.length ≤ bytes.length := by
  induction count generalizing least greatest bits bytes with
  | zero => simp [continuation]
  | succ n ih =>
      cases bytes with
      | nil => simp [continuation]
      | cons b bytes =>
          simp only [continuation]
          split
          · exact Nat.le_succ_of_le (ih _ _ _ _)
          · simp

/-- A sequence only takes bytes away. -/
theorem next_length (b : UInt8) (bytes : Bytes) : (next b bytes).2.length ≤ bytes.length := by
  unfold next
  split
  · simp
  · exact continuation_length _ _ _ _ _

/-- The characters of well-formed bytes. -/
def decode? : Bytes → Option (List Char)
  | [] => some []
  | b :: bytes =>
    match h : next b bytes with
    | (none, _) => none
    | (some c, rest) =>
      have hrest : rest.length ≤ bytes.length := by
        have hnext := next_length b bytes
        rwa [h] at hnext
      (decode? rest).map (c :: ·)
termination_by bytes => bytes.length
decreasing_by exact Nat.lt_succ_of_le hrest

/-- The character that stands for a broken sequence. -/
def replacement : Char := Char.ofNat 0xfffd

/-- The characters of bytes, with a replacement for each broken sequence. -/
def decodeLossy : Bytes → List Char
  | [] => []
  | b :: bytes =>
    match h : next b bytes with
    | (c, rest) =>
      have hrest : rest.length ≤ bytes.length := by
        have hnext := next_length b bytes
        rwa [h] at hnext
      c.getD replacement :: decodeLossy rest
termination_by bytes => bytes.length
decreasing_by exact Nat.lt_succ_of_le hrest

end Utf8

/-- The UTF-8 bytes of a text. -/
def utf8Bytes (s : String) : Bytes := Utf8.encode s.toList

/-- The text of UTF-8 bytes, with a replacement for each broken sequence. -/
def utf8Text (bytes : Bytes) : String := String.ofList (Utf8.decodeLossy bytes)

/-! ## Units of sixteen bits -/

namespace Utf16

/-- The units of a character. -/
def units (c : Char) : List Nat :=
  if c.toNat < 0x10000 then [c.toNat]
  else [0xd800 + (c.toNat - 0x10000) / 0x400, 0xdc00 + (c.toNat - 0x10000) % 0x400]

end Utf16

/-- The units of a text. -/
def utf16Units (s : String) : List Nat := s.toList.flatMap Utf16.units

/-! ## Quoted texts -/

namespace Quoted

/-- The letter that stands for a control character after a reverse solidus. -/
def letter? (c : Char) : Option Char :=
  if c = '\n' then some 'n'
  else if c = '\t' then some 't'
  else if c = '\r' then some 'r'
  else if c = Char.ofNat 8 then some 'b'
  else if c = Char.ofNat 12 then some 'f'
  else none

/-- The escape of a character by its code in four hexadecimal digits. -/
def codeEscape (c : Char) : List Char := '\\' :: 'u' :: Number.hexText 4 c.toNat

/-- The written form of a character within quotes. -/
def escape (c : Char) : List Char :=
  if c = '"' || c = '\\' then ['\\', c]
  else
    match letter? c with
    | some l => ['\\', l]
    | none => if c.toNat < 0x20 then codeEscape c else [c]

end Quoted

/-- The written form of a text: between quotes, with escapes. -/
def quote (s : String) : String :=
  String.ofList ('"' :: (s.toList.flatMap Quoted.escape ++ ['"']))

end FaultInjection
