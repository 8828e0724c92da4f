import Postmortem.Bytes

/-! # Reading UTF-8

A byte string is read as characters and as *broken* runs, the latter being the longest beginnings
of an encoded character that are not continued properly (or single bytes that begin none). Strict
reading refuses broken runs; lossy reading shows each as one replacement character.
-/

namespace Postmortem.Utf8

/-- A piece of a byte string: an encoded character, or bytes that encode none. -/
inductive Piece where
  | char (c : Char)
  | broken (bytes : Bytes)
  deriving Repr, DecidableEq

/-- The beginning of an encoded character: the bytes seen, the bits they carry, how many bytes are
    to come and the range in which the next one has to lie. -/
structure Opening where
  seen : Bytes
  bits : Nat
  missing : Nat
  low : UInt8
  high : UInt8
  deriving Repr, DecidableEq

/-- What a byte does where no character is begun: it is a character, begins one, or is broken.
    The ranges keep out overlong forms, surrogates and values above U+10FFFF. -/
def first (b : UInt8) : Piece ⊕ Opening :=
  let n := b.toNat
  if n < 0x80 then .inl (.char (Char.ofNat n))
  else if n < 0xC2 then .inl (.broken [b])
  else if n < 0xE0 then .inr ⟨[b], n - 0xC0, 1, 0x80, 0xBF⟩
  else if n = 0xE0 then .inr ⟨[b], 0, 2, 0xA0, 0xBF⟩
  else if n = 0xED then .inr ⟨[b], 0xD, 2, 0x80, 0x9F⟩
  else if n < 0xF0 then .inr ⟨[b], n - 0xE0, 2, 0x80, 0xBF⟩
  else if n = 0xF0 then .inr ⟨[b], 0, 3, 0x90, 0xBF⟩
  else if n < 0xF4 then .inr ⟨[b], n - 0xF0, 3, 0x80, 0xBF⟩
  else if n = 0xF4 then .inr ⟨[b], 4, 3, 0x80, 0x8F⟩
  else .inl (.broken [b])

/-- The pieces of a byte string, `opening` being a character that is begun already. -/
def piecesFrom (opening : Option Opening) : Bytes → List Piece
  | [] =>
    match opening with
    | none => []
    | some o => [.broken o.seen]
  | b :: rest =>
    let afresh (_ : Unit) : List Piece :=
      match first b with
      | .inl piece => piece :: piecesFrom none rest
      | .inr o => piecesFrom (some o) rest
    match opening with
    | none => afresh ()
    | some o =>
      if o.low ≤ b ∧ b ≤ o.high then
        let bits := o.bits * 64 + (b.toNat - 0x80)
        if o.missing = 1 then .char (Char.ofNat bits) :: piecesFrom none rest
        else piecesFrom (some ⟨o.seen ++ [b], bits, o.missing - 1, 0x80, 0xBF⟩) rest
      else .broken o.seen :: afresh ()

/-- The pieces of a byte string, in order. -/
def pieces (s : Bytes) : List Piece := piecesFrom none s

/-- The characters of a byte string, if it is valid UTF-8. -/
def decode? (s : Bytes) : Option (List Char) :=
  (pieces s).mapM fun
    | .char c => some c
    | .broken _ => none

/-- The characters of a byte string, with U+FFFD for every broken run. -/
def decodeLossy (s : Bytes) : List Char :=
  (pieces s).map fun
    | .char c => c
    | .broken _ => '\ufffd'

/-- The byte string made valid: every broken run replaced by an encoded U+FFFD. -/
def repair (s : Bytes) : Bytes := utf8Chars (decodeLossy s)

end Postmortem.Utf8
