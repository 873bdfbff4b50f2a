import ScripCheck.Text.Quoted

/-!
# UTF-8

Bytes are read as characters in the strict form: no overlong sequence, no surrogate, nothing past
the last character. The bytes are cut into sequences that encode a character each, and into faults;
a fault takes the bytes that could have started a character, and at least one.

* `Utf8.Lead`: what a first byte asks of the bytes after it.
* `Utf8.pieces`: the characters and faults of some bytes.
* `Utf8.decode`: the characters, or the first fault; `Utf8.decodeLossy`: a mark for each fault.
-/

namespace ScripCheck.Utf8

/-- Why some bytes encode no character. -/
inductive Reason where
  /-- The first byte starts no sequence. -/
  | start
  /-- The next byte does not continue the sequence. -/
  | continuation
  /-- There is no next byte. -/
  | ended
deriving DecidableEq

/-- Bytes that encode no character, and the offset of the first. -/
structure Fault where
  position : Nat
  bytes : List UInt8
  reason : Reason
deriving DecidableEq

/-- The text of a reason. -/
def Reason.text : Reason → String
  | start => "invalid start byte"
  | continuation => "invalid continuation byte"
  | ended => "unexpected end of data"

/-- The text of a fault: which bytes, where and why. -/
def Fault.message (f : Fault) : String :=
  let place := match f.bytes with
    | [b] => "byte 0x" ++ .ofList (hexDigits 2 b.toNat) ++ " in position " ++ toString f.position
    | bs => "bytes in position " ++ toString f.position ++ "-" ++
        toString (f.position + bs.length - 1)
  "'utf-8' codec can't decode " ++ place ++ ": " ++ f.reason.text

/-! ## Sequences -/

/-- What a first byte says: the leading bits of the character, how many bytes follow, and the range
of the first of them. -/
structure Lead where
  value : Nat
  tails : Nat
  low : Nat
  high : Nat

/-- What the byte `b` says as the first of a sequence. -/
def lead? (b : Nat) : Option Lead :=
  if b < 0x80 then some ⟨b, 0, 0x80, 0xBF⟩
  else if b < 0xC2 then none
  else if b < 0xE0 then some ⟨b - 0xC0, 1, 0x80, 0xBF⟩
  else if b = 0xE0 then some ⟨0, 2, 0xA0, 0xBF⟩
  else if b = 0xED then some ⟨0xD, 2, 0x80, 0x9F⟩
  else if b < 0xF0 then some ⟨b - 0xE0, 2, 0x80, 0xBF⟩
  else if b = 0xF0 then some ⟨0, 3, 0x90, 0xBF⟩
  else if b < 0xF4 then some ⟨b - 0xF0, 3, 0x80, 0xBF⟩
  else if b = 0xF4 then some ⟨4, 3, 0x80, 0x8F⟩
  else none

/-- The number that the bytes after a first one complete; or how many of them fit, and why the next
one does not. -/
def complete (value : Nat) : Nat → Nat → Nat → List UInt8 → Except (Nat × Reason) Nat
  | 0, _, _, _ => .ok value
  | _ + 1, _, _, [] => .error (0, .ended)
  | n + 1, low, high, b :: bs =>
    if low ≤ b.toNat ∧ b.toNat ≤ high then
      match complete (64 * value + (b.toNat - 0x80)) n 0x80 0xBF bs with
      | .ok v => .ok v
      | .error (k, reason) => .error (k + 1, reason)
    else .error (0, .continuation)

/-- The character or the fault at the start of the bytes `b :: bs`, and how many of `bs` it
takes. -/
def piece (position : Nat) (b : UInt8) (bs : List UInt8) : Except Fault Char × Nat :=
  match lead? b.toNat with
  | none => (.error ⟨position, [b], .start⟩, 0)
  | some l =>
    match complete l.value l.tails l.low l.high bs with
    | .ok v => (.ok (Char.ofNat v), l.tails)
    | .error (k, reason) => (.error ⟨position, b :: bs.take k, reason⟩, k)

/-- The characters and faults of some bytes, the first of them at an offset. -/
def pieces (position : Nat) : List UInt8 → List (Except Fault Char)
  | [] => []
  | b :: bs =>
    let (p, n) := piece position b bs
    p :: pieces (position + n + 1) (bs.drop n)
termination_by bs => bs.length
decreasing_by rw [List.length_drop, List.length_cons]; omega

/-- The characters that some bytes encode, or the first fault. -/
def decode (bytes : List UInt8) : Except Fault (List Char) := (pieces 0 bytes).mapM id

/-- The characters that some bytes encode, with the mark U+FFFD for each fault. -/
def decodeLossy (bytes : List UInt8) : List Char :=
  (pieces 0 bytes).map fun
    | .ok c => c
    | .error _ => Char.ofNat 0xFFFD

end ScripCheck.Utf8
