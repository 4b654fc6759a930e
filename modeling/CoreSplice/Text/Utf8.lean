import CoreSplice.Bytes.Overlay

/-!
# Text from bytes that may not be text

A symbol map on disk is read as UTF-8 whatever it holds.  Bytes that are no part of a well-formed
character are replaced: each longest start of a character that breaks off gives one replacement
character, and so does each byte that can start none.

* `Utf8.Partial` — a character whose first bytes were read.
* `Utf8.step` — what one more byte completes, and what it leaves open.
* `Utf8.decode` — the characters of a file, byte by byte (`decodeFrom_cons`).
-/

namespace CoreSplice.Text.Utf8

/-- The character that stands for bytes which are no text. -/
def replacement : Char := Char.ofNat 0xfffd

/-- A character that is begun: how many bytes are missing, the bits of those that were read, and
the bounds of the next byte.  The bounds keep out overlong forms, surrogates and code points that
are too large. -/
structure Partial where
  missing : Nat
  bits : Nat
  low : Nat
  high : Nat
  deriving DecidableEq, Repr

/-- A byte where no character is open: the character that it is, or the one that it begins. -/
def start (b : UInt8) : List Char × Option Partial :=
  let n := b.toNat
  if n < 0x80 then ([Char.ofNat n], none)
  else if n < 0xc2 then ([replacement], none)
  else if n < 0xe0 then ([], some ⟨1, n - 0xc0, 0x80, 0xbf⟩)
  else if n < 0xf0 then
    ([], some ⟨2, n - 0xe0, if n = 0xe0 then 0xa0 else 0x80, if n = 0xed then 0x9f else 0xbf⟩)
  else if n < 0xf5 then
    ([], some ⟨3, n - 0xf0, if n = 0xf0 then 0x90 else 0x80, if n = 0xf4 then 0x8f else 0xbf⟩)
  else ([replacement], none)

/-- One more byte: the characters that are finished by it, and the one that is open after it. -/
def step (opened : Option Partial) (b : UInt8) : List Char × Option Partial :=
  match opened with
  | none => start b
  | some p =>
    if p.low ≤ b.toNat ∧ b.toNat ≤ p.high then
      let bits := p.bits * 64 + (b.toNat - 0x80)
      if p.missing ≤ 1 then ([Char.ofNat bits], none)
      else ([], some ⟨p.missing - 1, bits, 0x80, 0xbf⟩)
    else
      let (finished, next) := start b
      (replacement :: finished, next)

/-- The characters of the bytes that follow an open character, if there is one.  A byte of ASCII
where none is open is a character by itself. -/
def decodeFrom : Option Partial → Bytes → List Char
  | none, [] => []
  | some _, [] => [replacement]
  | none, b :: bs =>
    if b.toNat < 0x80 then Char.ofNat b.toNat :: decodeFrom none bs
    else
      let (finished, next) := start b
      finished ++ decodeFrom next bs
  | some p, b :: bs =>
    let (finished, next) := step (some p) b
    finished ++ decodeFrom next bs

/-- Decoding goes byte by byte. -/
theorem decodeFrom_cons (opened : Option Partial) (b : UInt8) (bs : Bytes) :
    decodeFrom opened (b :: bs) = (step opened b).1 ++ decodeFrom (step opened b).2 bs := by
  cases opened with
  | some p => rfl
  | none =>
    rw [decodeFrom]
    split
    · rename_i h
      simp [step, start, h]
    · rfl

/-- The characters of a file. -/
def decode (content : Bytes) : List Char :=
  decodeFrom none content

end CoreSplice.Text.Utf8
