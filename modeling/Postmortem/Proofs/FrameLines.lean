import Postmortem.Proofs.Decimal
import Postmortem.Proofs.Frames

/-! # Reading the lines of a stack trace

The line for a frame says which frame it was. The number ends at the first byte that is no digit, and
a blank follows it even where it has outgrown its column; the address always has the same length; and
what is known about the frame is all the rest, whatever it looks like. So the three can be read off
the line again.
-/

namespace Postmortem.Frames

open Mangled (hexValue?)

/-- What the line for a frame says. -/
structure Entry where
  number : Nat
  address : Address
  symbol : Bytes
  deriving Repr, DecidableEq

def hexDigit? (n : Nat) (digit : UInt8) : Option Nat := (hexValue? digit).map (n * 16 + ·)

/-- The number that hexadecimal digits in lower case denote. -/
def hexNumber? (digits : Bytes) : Option Nat := digits.foldlM hexDigit? 0

/-- Reads the line for a frame: digits after the mark, blanks, sixteen hexadecimal digits, and the
    rest. -/
def Entry.ofLine? (l : Bytes) : Option Entry := do
  let rest ← (utf8 " #").isPrefixOf? l
  let digits := rest.takeWhile Bytes.isDigit
  let rest ← (utf8 "0x").isPrefixOf? ((rest.dropWhile Bytes.isDigit).dropWhile (· = 32))
  let address ← hexNumber? (rest.take 16)
  let symbol ← (utf8 " in ").isPrefixOf? (rest.drop 16)
  return ⟨Decimal.value digits, UInt64.ofNat address, symbol⟩

/-! ## The address -/

theorem utf8_hexDigit {d : Nat} (small : d < 16) :
    ∃ b, String.utf8EncodeChar (Text.hexDigit d) = [b] ∧ hexValue? b = some d := by
  have single : ∀ d < 16, (String.utf8EncodeChar (Text.hexDigit d)).map hexValue? = [some d] := by
    decide
  exact List.map_eq_singleton_iff.mp (single d small)

theorem utf8Chars_hexText_of_lt {n : Nat} (small : n < 16) :
    utf8Chars (Text.hexText n) = String.utf8EncodeChar (Text.hexDigit n) := by
  rw [Text.hexText, if_pos small, utf8Chars, List.flatMap_singleton]

theorem utf8Chars_hexText_of_not_lt {n : Nat} (large : ¬ n < 16) :
    utf8Chars (Text.hexText n) =
      utf8Chars (Text.hexText (n / 16)) ++ String.utf8EncodeChar (Text.hexDigit (n % 16)) := by
  rw [Text.hexText, if_neg large, utf8Chars, List.flatMap_append, List.flatMap_singleton, utf8Chars]

theorem hexNumber?_hexText (n : Nat) : hexNumber? (utf8Chars (Text.hexText n)) = some n := by
  induction n using Text.hexText.induct with
  | case1 n small =>
      obtain ⟨b, encoded, value⟩ := utf8_hexDigit small
      simp [utf8Chars_hexText_of_lt small, encoded, hexNumber?, hexDigit?, value]
  | case2 n large ih =>
      obtain ⟨b, encoded, value⟩ := utf8_hexDigit (Nat.mod_lt n (show 0 < 16 by decide))
      have whole : n / 16 * 16 + n % 16 = n := Nat.div_add_mod' n 16
      unfold hexNumber? at ih ⊢
      rw [utf8Chars_hexText_of_not_lt large, encoded, List.foldlM_append, ih]
      simp [hexDigit?, value, whole]

theorem length_hexText_le {n : Nat} (k : Nat) (bound : n < 16 ^ (k + 1)) :
    (utf8Chars (Text.hexText n)).length ≤ k + 1 := by
  induction k generalizing n with
  | zero =>
      obtain ⟨b, encoded, -⟩ := utf8_hexDigit bound
      rw [utf8Chars_hexText_of_lt bound, encoded]
      exact Nat.le_refl 1
  | succ k ih =>
      by_cases small : n < 16
      · obtain ⟨b, encoded, -⟩ := utf8_hexDigit small
        rw [utf8Chars_hexText_of_lt small, encoded]
        exact Nat.le_add_left 1 _
      · obtain ⟨b, encoded, -⟩ := utf8_hexDigit (Nat.mod_lt n (show 0 < 16 by decide))
        have front : (utf8Chars (Text.hexText (n / 16))).length ≤ k + 1 := by
          apply ih
          rw [Nat.pow_succ] at bound
          omega
        rw [utf8Chars_hexText_of_not_lt small, encoded, List.length_append]
        exact Nat.succ_le_succ front

def addressDigits (address : Address) : Bytes :=
  let digits := utf8Chars (Text.hexText address.toNat)
  List.replicate (16 - digits.length) 48 ++ digits

theorem addressText_eq (address : Address) :
    addressText address = utf8 "0x" ++ addressDigits address := by
  simp only [addressText, addressDigits, List.append_assoc]

theorem length_addressDigits (address : Address) : (addressDigits address).length = 16 := by
  have fits : (utf8Chars (Text.hexText address.toNat)).length ≤ 16 :=
    length_hexText_le 15 address.toNat_lt
  simp only [addressDigits, List.length_append, List.length_replicate]
  omega

theorem hexNumber?_zeros (n : Nat) (digits : Bytes) :
    hexNumber? (List.replicate n 48 ++ digits) = hexNumber? digits := by
  induction n with
  | zero => rfl
  | succ n ih => exact ih

theorem hexNumber?_addressDigits (address : Address) :
    hexNumber? (addressDigits address) = some address.toNat := by
  simp only [addressDigits, hexNumber?_zeros, hexNumber?_hexText]

/-! ## The columns -/

/-- The blanks after the number. They fill up its column, and there is one even if it is full. -/
def gap (number : Nat) : Bytes := List.replicate (max 1 (4 - (Decimal.ofNat number).length)) 32

theorem padRight_gap (number : Nat) :
    padRight 3 (Decimal.ofNat number) ++ utf8 " " = Decimal.ofNat number ++ gap number := by
  have blank : utf8 " " = List.replicate 1 32 := rfl
  have count : 3 - (Decimal.ofNat number).length + 1 =
      max 1 (4 - (Decimal.ofNat number).length) := by
    omega
  rw [padRight, blank, List.append_assoc, List.replicate_append_replicate, count, gap]

theorem line_eq (number : Nat) (address : Address) (symbol : Bytes) :
    line number address symbol = utf8 " #" ++ (Decimal.ofNat number ++ (gap number ++
      (utf8 "0x" ++ (addressDigits address ++ (utf8 " in " ++ symbol))))) := by
  have front : utf8 " #" ++ padRight 3 (Decimal.ofNat number) ++ utf8 " " =
      utf8 " #" ++ (Decimal.ofNat number ++ gap number) := by
    rw [List.append_assoc, padRight_gap]
  simp only [line, front, addressText_eq, List.append_assoc]

theorem gap_eq_cons (number : Nat) : ∃ more, gap number = 32 :: more := by
  obtain ⟨n, count⟩ : ∃ n, max 1 (4 - (Decimal.ofNat number).length) = n + 1 :=
    Nat.exists_eq_succ_of_ne_zero (by omega)
  refine ⟨List.replicate n 32, ?_⟩
  rw [gap, count, List.replicate_succ]

theorem takeWhile_number (number : Nat) (rest : Bytes) :
    (Decimal.ofNat number ++ (gap number ++ rest)).takeWhile Bytes.isDigit =
      Decimal.ofNat number := by
  obtain ⟨more, blank⟩ := gap_eq_cons number
  rw [List.takeWhile_append_of_pos fun b member => Decimal.isDigit_of_mem_ofNat member, blank]
  simp [Bytes.isDigit]

theorem dropWhile_number (number : Nat) (rest : Bytes) :
    (Decimal.ofNat number ++ (gap number ++ rest)).dropWhile Bytes.isDigit = gap number ++ rest := by
  obtain ⟨more, blank⟩ := gap_eq_cons number
  rw [List.dropWhile_append_of_pos fun b member => Decimal.isDigit_of_mem_ofNat member, blank]
  simp [Bytes.isDigit]

theorem dropWhile_gap (number : Nat) (rest : Bytes) :
    (gap number ++ (utf8 "0x" ++ rest)).dropWhile (· = 32) = utf8 "0x" ++ rest := by
  rw [List.dropWhile_append_of_pos]
  · rfl
  · intro b member
    exact decide_eq_true (List.eq_of_mem_replicate member)

theorem ofLine?_line (number : Nat) (address : Address) (symbol : Bytes) :
    Entry.ofLine? (line number address symbol) = some ⟨number, address, symbol⟩ := by
  have marked (s t : Bytes) : s.isPrefixOf? (s ++ t) = some t :=
    List.isPrefixOf?_eq_some_iff_append_eq.mpr rfl
  have size := length_addressDigits address
  simp only [Entry.ofLine?, line_eq, marked, takeWhile_number, dropWhile_number, dropWhile_gap,
    List.take_left' size, List.drop_left' size, hexNumber?_addressDigits, Decimal.value_ofNat,
    UInt64.ofNat_toNat, Option.bind_eq_bind, Option.bind_some, Option.pure_def]

/-! ## The trace -/

/-- What the lines of a stack trace say. -/
def entries (symbolize : Symbolizer) (frames : List Address) (skipUnknown : Bool) : List Entry :=
  (if skipUnknown then known symbolize frames else frames).zipIdx.map fun (address, number) =>
    ⟨number, address, symbolize address⟩

theorem linesFrom_eq_map (symbolize : Symbolizer) (number : Nat) (frames : List Address) :
    linesFrom symbolize false number frames =
      (frames.zipIdx number).map fun (address, number) => line number address (symbolize address) := by
  induction frames generalizing number with
  | nil => rfl
  | cons address rest ih =>
      rw [List.zipIdx_cons, List.map_cons, ← ih]
      rfl

theorem filterMap_linesFrom (symbolize : Symbolizer) (frames : List Address) (skipUnknown : Bool) :
    (linesFrom symbolize skipUnknown 0 frames).filterMap Entry.ofLine? =
      entries symbolize frames skipUnknown := by
  have listed (shown : List Address) :
      (linesFrom symbolize false 0 shown).filterMap Entry.ofLine? =
        shown.zipIdx.map fun (address, number) => ⟨number, address, symbolize address⟩ := by
    rw [linesFrom_eq_map, List.filterMap_map, ← List.filterMap_eq_map]
    congr 1
    funext ⟨address, number⟩
    exact ofLine?_line number address (symbolize address)
  cases skipUnknown with
  | false => exact listed frames
  | true =>
      rw [linesFrom_skip]
      exact listed (known symbolize frames)

/-- The line for a frame can be read back, so two lines are equal only if they say the same. The
    address has sixteen hexadecimal digits, and blanks keep the number apart from it however many
    digits that has. Reading all lines of a trace gives its frames; the line that stands there when
    there are no frames is not taken for one. -/
theorem line_read_back (number : Nat) (address : Address) (symbol : Bytes) :
    Entry.ofLine? (line number address symbol) = some ⟨number, address, symbol⟩ ∧
    (∀ number' address' symbol', line number address symbol = line number' address' symbol' ↔
      number = number' ∧ address = address' ∧ symbol = symbol') ∧
    (∃ digits, digits.length = 16 ∧ hexNumber? digits = some address.toNat ∧
      line number address symbol =
        utf8 " #" ++ Decimal.ofNat number ++ gap number ++ utf8 "0x" ++ digits ++ utf8 " in "
          ++ symbol) ∧
    ∀ symbolize frames skipUnknown, (lines symbolize frames skipUnknown).filterMap Entry.ofLine? =
      entries symbolize frames skipUnknown := by
  refine ⟨ofLine?_line number address symbol, ?_, ?_, ?_⟩
  · intro number' address' symbol'
    constructor
    · intro same
      have read := congrArg Entry.ofLine? same
      simpa only [ofLine?_line, Option.some.injEq, Entry.mk.injEq] using read
    · rintro ⟨rfl, rfl, rfl⟩
      rfl
  · refine ⟨addressDigits address, length_addressDigits address,
      hexNumber?_addressDigits address, ?_⟩
    simp only [line_eq, List.append_assoc]
  · intro symbolize frames skipUnknown
    cases frames with
    | nil =>
        have none : Entry.ofLine? noneSaved = none := by decide
        cases skipUnknown <;> simp [lines, entries, known, none]
    | cons address rest =>
        rw [lines_of_ne_nil (List.cons_ne_nil address rest)]
        exact filterMap_linesFrom symbolize (address :: rest) skipUnknown

example : Entry.ofLine? (utf8 " #1000 0x0000000000001234 in even+0x1234") =
    some ⟨1000, 0x1234, utf8 "even+0x1234"⟩ := by
  decide

end Postmortem.Frames
