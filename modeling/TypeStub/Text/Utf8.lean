/-!
Contract: UTF-8 as a reader of bytes meets it.

Owns:
- `Utf8.next`, the step over one character or one malformed sequence;
- `Utf8.Defect`, where and why bytes are no text;
- `Utf8.decode`, which refuses malformed bytes, and `Utf8.decodeLossy`, which puts the
  replacement character for each malformed sequence.

A malformed sequence is the longest beginning of a character that the bytes hold, at least
one byte. It is incomplete if the bytes end there.
-/

namespace TypeStub.Utf8

/-- Why bytes are no text: `valid` bytes of text, then a malformed sequence. -/
inductive Defect where
  /-- A sequence of `length` bytes is the beginning of no character. -/
  | invalid (valid length : Nat)
  /-- The bytes end inside a character. -/
  | incomplete (valid : Nat)
deriving DecidableEq, Repr

def Defect.message : Defect → String
  | .invalid valid length =>
      "invalid utf-8 sequence of " ++ toString length ++ " bytes from index " ++ toString valid
  | .incomplete valid => "incomplete utf-8 byte sequence from index " ++ toString valid

/-- What bytes begin with. -/
inductive Step where
  | character (code width : Nat)
  | malformed (width : Nat)
  | truncated
deriving DecidableEq, Repr

/-- Read the continuation bytes of a character. `low` and `high` bound the next one, `owed`
bytes are missing, `width` are read and `code` holds their bits. -/
def continuation (low high : UInt8) : (owed width code : Nat) → List UInt8 → Step
  | 0, width, code, _ => .character code width
  | _ + 1, _, _, [] => .truncated
  | owed + 1, width, code, byte :: rest =>
      if low ≤ byte ∧ byte ≤ high then
        continuation 0x80 0xBF owed (width + 1) (code * 64 + (byte.toNat - 0x80)) rest
      else .malformed width

/-- The first character or malformed sequence. The bounds on the second byte leave out
overlong forms, surrogates and what lies beyond the last code point. -/
def next (first : UInt8) (rest : List UInt8) : Step :=
  if first ≤ 0x7F then .character first.toNat 1
  else if 0xC2 ≤ first ∧ first ≤ 0xDF then continuation 0x80 0xBF 1 1 (first.toNat - 0xC0) rest
  else if first = 0xE0 then continuation 0xA0 0xBF 2 1 0 rest
  else if first = 0xED then continuation 0x80 0x9F 2 1 0xD rest
  else if 0xE1 ≤ first ∧ first ≤ 0xEF then continuation 0x80 0xBF 2 1 (first.toNat - 0xE0) rest
  else if first = 0xF0 then continuation 0x90 0xBF 3 1 0 rest
  else if 0xF1 ≤ first ∧ first ≤ 0xF3 then continuation 0x80 0xBF 3 1 (first.toNat - 0xF0) rest
  else if first = 0xF4 then continuation 0x80 0x8F 3 1 4 rest
  else .malformed 1

/-- Walk over bytes. `skip` bytes belong to a character already read, `valid` bytes were
read as text, and `read` holds the characters, latest first. -/
def decodeFrom (skip valid : Nat) (read : List Char) : List UInt8 → Except Defect (List Char)
  | [] => .ok read.reverse
  | byte :: rest =>
      match skip with
      | skipped + 1 => decodeFrom skipped valid read rest
      | 0 =>
          match next byte rest with
          | .character code width =>
              decodeFrom (width - 1) (valid + width) (Char.ofNat code :: read) rest
          | .malformed width => .error (.invalid valid width)
          | .truncated => .error (.incomplete valid)

/-- The text that the bytes are. -/
def decode (bytes : ByteArray) : Except Defect String :=
  match String.fromUTF8? bytes with
  | some text => .ok text
  | none => (decodeFrom 0 0 [] bytes.toList).map String.ofList

/-- Walk over bytes, replacing malformed sequences. -/
def decodeLossyFrom (skip : Nat) (read : List Char) : List UInt8 → List Char
  | [] => read.reverse
  | byte :: rest =>
      match skip with
      | skipped + 1 => decodeLossyFrom skipped read rest
      | 0 =>
          match next byte rest with
          | .character code width => decodeLossyFrom (width - 1) (Char.ofNat code :: read) rest
          | .malformed width => decodeLossyFrom (width - 1) ('\uFFFD' :: read) rest
          | .truncated => ('\uFFFD' :: read).reverse

/-- The text that the bytes are, with the replacement character for each malformed
sequence. -/
def decodeLossy (bytes : ByteArray) : String :=
  String.ofList (decodeLossyFrom 0 [] bytes.toList)

end TypeStub.Utf8
