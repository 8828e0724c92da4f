import Mathlib
import Postmortem.Bytes.Utf8

/-! # Encoded texts

The encoding of a text is read as this text, and a byte string that is valid stays so with another
valid one behind it. Reading never makes up a NUL, so that what was a C string still is one once it
has been made a valid text.
-/

namespace Postmortem.Utf8

variable {s t rest : Bytes} {b : UInt8} {o : Opening} {c : Char} {n : Nat}

/-! ## One byte -/

theorem piecesFrom_single {piece : Piece} (h : first b = .inl piece) (rest : Bytes) :
    piecesFrom none (b :: rest) = piece :: piecesFrom none rest := by
  simp only [piecesFrom, h]

theorem piecesFrom_begin (h : first b = .inr o) (rest : Bytes) :
    piecesFrom none (b :: rest) = piecesFrom (some o) rest := by
  simp only [piecesFrom, h]

theorem piecesFrom_next (fits : o.low ≤ b ∧ b ≤ o.high) (more : o.missing ≠ 1) (rest : Bytes) :
    piecesFrom (some o) (b :: rest) =
      piecesFrom (some ⟨o.seen ++ [b], o.bits * 64 + (b.toNat - 0x80), o.missing - 1, 0x80, 0xBF⟩)
        rest := by
  rw [piecesFrom]
  exact (if_pos fits).trans (if_neg more)

theorem piecesFrom_last (fits : o.low ≤ b ∧ b ≤ o.high) (last : o.missing = 1) (rest : Bytes) :
    piecesFrom (some o) (b :: rest) =
      .char (Char.ofNat (o.bits * 64 + (b.toNat - 0x80))) :: piecesFrom none rest := by
  rw [piecesFrom]
  exact (if_pos fits).trans (if_pos last)

theorem piecesFrom_broken (unfit : ¬ (o.low ≤ b ∧ b ≤ o.high)) (rest : Bytes) :
    piecesFrom (some o) (b :: rest) = .broken o.seen :: piecesFrom none (b :: rest) := by
  simp only [piecesFrom, if_neg unfit]

/-! ## Reading what was written -/

theorem first_one (low : n < 0x80) : first (.ofNat n) = .inl (.char (Char.ofNat n)) := by
  have value : (UInt8.ofNat n).toNat = n := by rw [UInt8.toNat_ofNat']; omega
  simp only [first, value]
  rw [if_pos low]

theorem first_two (low : 0xC2 ≤ n) (high : n < 0xE0) :
    first (.ofNat n) = .inr ⟨[.ofNat n], n - 0xC0, 1, 0x80, 0xBF⟩ := by
  have value : (UInt8.ofNat n).toNat = n := by rw [UInt8.toNat_ofNat']; omega
  simp only [first, value]
  rw [if_neg (by omega), if_neg (by omega), if_pos high]

theorem first_three (low : 0xE0 ≤ n) (high : n < 0xF0) :
    first (.ofNat n) = .inr ⟨[.ofNat n], n - 0xE0, 2, if n = 0xE0 then 0xA0 else 0x80,
      if n = 0xED then 0x9F else 0xBF⟩ := by
  have value : (UInt8.ofNat n).toNat = n := by rw [UInt8.toNat_ofNat']; omega
  simp only [first, value]
  rw [if_neg (by omega), if_neg (by omega), if_neg (by omega)]
  by_cases least : n = 0xE0
  · subst least
    rfl
  · by_cases surrogates : n = 0xED
    · subst surrogates
      rfl
    · rw [if_neg least, if_neg surrogates, if_pos high, if_neg least, if_neg surrogates]

theorem first_four (low : 0xF0 ≤ n) (high : n ≤ 0xF4) :
    first (.ofNat n) = .inr ⟨[.ofNat n], n - 0xF0, 3, if n = 0xF0 then 0x90 else 0x80,
      if n = 0xF4 then 0x8F else 0xBF⟩ := by
  obtain rfl | rfl | rfl | rfl | rfl : n = 0xF0 ∨ n = 0xF1 ∨ n = 0xF2 ∨ n = 0xF3 ∨ n = 0xF4 := by
    omega
  all_goals rfl

/-- The values in the range of the next byte, as numbers. -/
theorem fits_of_le (least : o.low.toNat ≤ n) (most : n ≤ o.high.toNat) :
    o.low ≤ UInt8.ofNat n ∧ UInt8.ofNat n ≤ o.high ∧ (UInt8.ofNat n).toNat = n := by
  have := o.high.toNat_lt
  have value : (UInt8.ofNat n).toNat = n := by rw [UInt8.toNat_ofNat']; omega
  exact ⟨UInt8.le_iff_toNat_le.mpr (by omega), UInt8.le_iff_toNat_le.mpr (by omega), value⟩

theorem piecesFrom_next_ofNat (least : o.low.toNat ≤ n) (most : n ≤ o.high.toNat)
    (more : o.missing ≠ 1) (rest : Bytes) :
    piecesFrom (some o) (.ofNat n :: rest) =
      piecesFrom (some ⟨o.seen ++ [.ofNat n], o.bits * 64 + (n - 0x80), o.missing - 1, 0x80, 0xBF⟩)
        rest := by
  obtain ⟨low, high, value⟩ := fits_of_le least most
  rw [piecesFrom_next ⟨low, high⟩ more, value]

theorem piecesFrom_last_ofNat (least : o.low.toNat ≤ n) (most : n ≤ o.high.toNat)
    (last : o.missing = 1) (rest : Bytes) :
    piecesFrom (some o) (.ofNat n :: rest) =
      .char (Char.ofNat (o.bits * 64 + (n - 0x80))) :: piecesFrom none rest := by
  obtain ⟨low, high, value⟩ := fits_of_le least most
  rw [piecesFrom_last ⟨low, high⟩ last, value]

/-- An encoded character is read as that character. -/
theorem piecesFrom_encoded (c : Char) (rest : Bytes) :
    piecesFrom none (String.utf8EncodeChar c ++ rest) = .char c :: piecesFrom none rest := by
  have valid : c.val.toNat < 0xD800 ∨ 0xDFFF < c.val.toNat ∧ c.val.toNat < 0x110000 := c.valid
  have same : Char.ofNat c.val.toNat = c := Char.ofNat_toNat c
  unfold String.utf8EncodeChar
  generalize c.val.toNat = n at valid same
  subst same
  dsimp only
  split_ifs with one two three
  · rw [List.cons_append, List.nil_append, piecesFrom_single (first_one (by omega))]
  · simp only [List.cons_append, List.nil_append]
    rw [piecesFrom_begin (first_two (by omega) (by omega)),
      piecesFrom_last_ofNat (by simp) (by simp; omega) rfl]
    have value : (n / 64 % 32 + 192 - 0xC0) * 64 + (n % 64 + 128 - 0x80) = n := by omega
    rw [value]
  · simp only [List.cons_append, List.nil_append]
    rw [piecesFrom_begin (first_three (by omega) (by omega)),
      piecesFrom_next_ofNat (by simp only; split_ifs <;> simp; omega)
        (by simp only; split_ifs <;> simp <;> omega) (by simp),
      piecesFrom_last_ofNat (by simp) (by simp; omega) rfl]
    have value : ((n / 4096 % 16 + 224 - 0xE0) * 64 + (n / 64 % 64 + 128 - 0x80)) * 64 +
        (n % 64 + 128 - 0x80) = n := by omega
    rw [value]
  · simp only [List.cons_append, List.nil_append]
    rw [piecesFrom_begin (first_four (by omega) (by omega)),
      piecesFrom_next_ofNat (by simp only; split_ifs <;> simp; omega)
        (by simp only; split_ifs <;> simp <;> omega) (by simp),
      piecesFrom_next_ofNat (by simp) (by simp; omega) (by simp),
      piecesFrom_last_ofNat (by simp) (by simp; omega) rfl]
    have value : (((n / 262144 % 8 + 240 - 0xF0) * 64 + (n / 4096 % 64 + 128 - 0x80)) * 64 +
        (n / 64 % 64 + 128 - 0x80)) * 64 + (n % 64 + 128 - 0x80) = n := by omega
    rw [value]

theorem pieces_utf8Chars_append (chars : List Char) (rest : Bytes) :
    pieces (utf8Chars chars ++ rest) = chars.map .char ++ pieces rest := by
  induction chars with
  | nil => rfl
  | cons c chars ih =>
    rw [utf8Chars, List.flatMap_cons, List.append_assoc, pieces, piecesFrom_encoded]
    exact congrArg (Piece.char c :: ·) ih

theorem pieces_utf8Chars (chars : List Char) : pieces (utf8Chars chars) = chars.map .char := by
  simpa [pieces, piecesFrom] using pieces_utf8Chars_append chars []

theorem decode?_utf8Chars (chars : List Char) : decode? (utf8Chars chars) = some chars := by
  rw [decode?, pieces_utf8Chars, List.mapM_map]
  exact List.mapM_pure (m := Option) (f := fun c : Char => c) |>.trans (by simp)

theorem decodeLossy_utf8Chars (chars : List Char) : decodeLossy (utf8Chars chars) = chars := by
  simp [decodeLossy, pieces_utf8Chars, Function.comp_def]

/-! ## Valid byte strings -/

/-- The byte string encodes characters. -/
def Valid (s : Bytes) : Prop := ∃ chars, s = utf8Chars chars

theorem utf8Chars_append (c d : List Char) : utf8Chars (c ++ d) = utf8Chars c ++ utf8Chars d :=
  List.flatMap_append

theorem valid_utf8 (text : String) : Valid (utf8 text) := ⟨text.toList, rfl⟩

theorem valid_nil : Valid [] := ⟨[], rfl⟩

theorem valid_newline : Valid [Bytes.newline] := valid_utf8 "\n"

theorem Valid.append (hs : Valid s) (ht : Valid t) : Valid (s ++ t) := by
  obtain ⟨c, rfl⟩ := hs
  obtain ⟨d, rfl⟩ := ht
  exact ⟨c ++ d, (utf8Chars_append c d).symm⟩

theorem Valid.decodes (h : Valid s) : (decode? s).isSome := by
  obtain ⟨chars, rfl⟩ := h
  rw [decode?_utf8Chars]
  rfl

/-- Bytes below 128 are characters. -/
theorem valid_ascii (ascii : ∀ b ∈ s, b.toNat < 0x80) : Valid s := by
  induction s with
  | nil => exact valid_nil
  | cons b rest ih =>
      have low := ascii b List.mem_cons_self
      have value : (Char.ofNat b.toNat).val.toNat = b.toNat := by
        show (Char.ofNat b.toNat).toNat = _
        rw [Char.toNat_ofNat, if_pos (.inl (by omega))]
      have single : String.utf8EncodeChar (Char.ofNat b.toNat) = [b] := by
        rw [String.utf8EncodeChar, value]
        simp [show b.toNat ≤ 127 by omega]
      have first : Valid [b] := ⟨[Char.ofNat b.toNat], by rw [utf8Chars, List.flatMap_singleton, single]⟩
      exact first.append (ih fun c member => ascii c (List.mem_cons_of_mem b member))

/-! ## No NUL is made up -/

/-- Whatever completes a character that is begun, the result is a character, and not NUL. -/
def Completes : (missing bits least most : Nat) → Prop
  | 0, _, _, _ => False
  | 1, bits, least, most => ∀ n, least ≤ n → n ≤ most →
      0 < bits * 64 + (n - 0x80) ∧ (bits * 64 + (n - 0x80)).isValidChar
  | missing + 2, bits, least, most => ∀ n, least ≤ n → n ≤ most →
      Completes (missing + 1) (bits * 64 + (n - 0x80)) 0x80 0xBF

theorem ofNat_ne_nul (pos : 0 < n) (valid : n.isValidChar) : Char.ofNat n ≠ '\x00' := by
  intro nul
  have same := congrArg Char.toNat nul
  rw [Char.toNat_ofNat, if_pos valid] at same
  simp at same
  omega

theorem first_char (h : first b = .inl (.char c)) (ne : b ≠ 0) : c ≠ '\x00' := by
  have pos : b.toNat ≠ 0 := fun zero => ne (UInt8.toNat_inj.mp zero)
  simp only [first] at h
  split_ifs at h with ascii
  all_goals cases h
  exact ofNat_ne_nul (by omega) (.inl (by omega))

theorem first_completes (h : first b = .inr o) :
    Completes o.missing o.bits o.low.toNat o.high.toNat := by
  have valid (n : Nat) : n.isValidChar ↔ n < 0xD800 ∨ 0xDFFF < n ∧ n < 0x110000 := Iff.rfl
  simp only [first] at h
  split_ifs at h
  all_goals
    cases h
    simp [Completes, valid]
    omega

theorem ne_nul_of_mem_piecesFrom {opening : Option Opening} (clean : 0 ∉ s)
    (begun : ∀ o, opening = some o → Completes o.missing o.bits o.low.toNat o.high.toNat)
    (member : .char c ∈ piecesFrom opening s) : c ≠ '\x00' := by
  induction s generalizing opening with
  | nil =>
      cases opening with
      | none => cases member
      | some o => cases List.mem_singleton.mp member
  | cons b rest ih =>
      rw [List.mem_cons, not_or] at clean
      have onwards : .char c ∈ piecesFrom none rest → c ≠ '\x00' := ih clean.2 (by simp)
      have afresh : .char c ∈ piecesFrom none (b :: rest) → c ≠ '\x00' := by
        intro member
        cases here : first b with
        | inl piece =>
            rw [piecesFrom_single here] at member
            obtain rfl | later := List.mem_cons.mp member
            · exact first_char here (Ne.symm clean.1)
            · exact onwards later
        | inr o =>
            rw [piecesFrom_begin here] at member
            exact ih clean.2 (by rintro _ ⟨⟩; exact first_completes here) member
      cases opening with
      | none => exact afresh member
      | some o =>
          by_cases fits : o.low ≤ b ∧ b ≤ o.high
          · have completes := begun o rfl
            have low := UInt8.le_iff_toNat_le.mp fits.1
            have high := UInt8.le_iff_toNat_le.mp fits.2
            by_cases last : o.missing = 1
            · rw [piecesFrom_last fits last] at member
              rw [last] at completes
              obtain ⟨pos, valid⟩ := completes b.toNat low high
              obtain here | later := List.mem_cons.mp member
              · rw [Piece.char.inj here]
                exact ofNat_ne_nul pos valid
              · exact onwards later
            · rw [piecesFrom_next fits last] at member
              refine ih clean.2 ?_ member
              rintro _ ⟨⟩
              obtain ⟨seen, bits, missing, least, most⟩ := o
              match missing with
              | 0 => exact absurd completes not_false
              | 1 => exact absurd rfl last
              | missing + 2 => exact completes b.toNat low high
          · rw [piecesFrom_broken fits, List.mem_cons] at member
            obtain broken | later := member
            · cases broken
            · exact afresh later

/-- Only the ASCII character itself has its byte in its encoding. -/
theorem toNat_of_mem_encoded {b : UInt8} (ascii : b.toNat < 128)
    (member : b ∈ String.utf8EncodeChar c) : c.toNat = b.toNat := by
  have other (n : Nat) (low : 128 ≤ n) (high : n < 256) : b ≠ UInt8.ofNat n := by
    rintro rfl
    rw [UInt8.toNat_ofNat_of_lt' high] at ascii
    omega
  show c.val.toNat = b.toNat
  unfold String.utf8EncodeChar at member
  generalize c.val.toNat = n at member ⊢
  dsimp only at member
  split_ifs at member
  · rw [List.mem_singleton.mp member]
    exact (UInt8.toNat_ofNat_of_lt' (show n < 256 by omega)).symm
  · simp only [List.mem_cons, List.not_mem_nil, or_false] at member
    rcases member with same | same <;> exact absurd same (other _ (by omega) (by omega))
  · simp only [List.mem_cons, List.not_mem_nil, or_false] at member
    rcases member with same | same | same <;> exact absurd same (other _ (by omega) (by omega))
  · simp only [List.mem_cons, List.not_mem_nil, or_false] at member
    rcases member with same | same | same | same <;> exact absurd same (other _ (by omega) (by omega))

theorem nul_notMem_encoded (ne : c ≠ '\x00') : 0 ∉ String.utf8EncodeChar c := by
  intro member
  apply ne
  rw [← Char.ofNat_toNat c, toNat_of_mem_encoded (by decide) member]
  rfl

/-- A string without NUL made valid is one still. -/
theorem nul_notMem_repair (clean : 0 ∉ s) : 0 ∉ repair s := by
  intro member
  obtain ⟨c, shown, nul⟩ := List.mem_flatMap.mp member
  refine nul_notMem_encoded ?_ nul
  obtain ⟨piece, inPieces, same⟩ := List.mem_map.mp shown
  cases piece with
  | char d =>
      subst same
      exact ne_nul_of_mem_piecesFrom clean (by simp) inPieces
  | broken bytes =>
      subst same
      show '\ufffd' ≠ '\x00'
      decide

end Postmortem.Utf8
