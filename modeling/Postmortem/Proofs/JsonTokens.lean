import Mathlib
import Postmortem.Json.Value

/-! # How tokens are written

Every token has its spellings, and a text is a row of tokens if it is made of their spellings with
white space wherever one likes. One pass over such a text finds these tokens and no others.
-/

namespace Postmortem.Json

/-! ## Spellings -/

/-- The character of a mark. -/
def Mark.spelling : Mark → Char
  | .openBracket => '['
  | .closeBracket => ']'
  | .openBrace => '\x7b'
  | .closeBrace => '\x7d'
  | .comma => ','
  | .colon => ':'

/-- How a part of a quoted text may be written. -/
inductive TextPart.Written : TextPart → List Char → Prop where
  | plain {c : Char} (unquoted : c ≠ quote) (unescaped : c ≠ '\\') (shown : 32 ≤ c.toNat) :
      Written (.char c) [c]
  | short {c d : Char} (escape : shortEscape? c = some d) : Written (.char d) ['\\', c]
  | unit {a b c d : Char} {w x y z : Nat} (first : hexValue? a = some w)
      (second : hexValue? b = some x) (third : hexValue? c = some y)
      (fourth : hexValue? d = some z) :
      Written (.unit (((w * 16 + x) * 16 + y) * 16 + z)) ['\\', 'u', a, b, c, d]

/-- A numeral without anything missing. -/
structure Numeral.Proper (n : Numeral) : Prop where
  wellFormed : n.wellFormed = true
  digits : ∀ c ∈ n.digits, isDigit c = true
  places : ∀ places, n.fraction = some places → ∀ c ∈ places, isDigit c = true
  exponent : ∀ e, n.exponent = some e → ∀ c ∈ e.digits, isDigit c = true
  sign : ∀ e c, n.exponent = some e → e.sign = some c → c = '+' ∨ c = '-'
  inside : n.atEnd = false

/-- The text of the places behind the point. -/
def placesText : Option (List Char) → List Char
  | none => []
  | some places => '.' :: places

/-- The text of an exponent, marked by this letter. -/
def exponentText (letter : Char) : Option Exponent → List Char
  | none => []
  | some e => letter :: e.sign.toList ++ e.digits

/-- The text of a numeral, its exponent being marked by this letter. -/
def Numeral.text (n : Numeral) (letter : Char) : List Char :=
  (if n.negative then ['-'] else []) ++ n.digits ++ placesText n.fraction
    ++ exponentText letter n.exponent

/-- How a token may be written. -/
inductive Token.Written : Token → List Char → Prop where
  | mark (m : Mark) : Written (.mark m) [m.spelling]
  | word (w : Word) : Written (.word w none) w.spelling
  | number {n : Numeral} {letter : Char} (proper : n.Proper) (marks : letter = 'e' ∨ letter = 'E') :
      Written (.number n) (n.text letter)
  | text {parts : List TextPart} {pieces : List (List Char)}
      (written : List.Forall₂ TextPart.Written parts pieces) :
      Written (.text ⟨parts, none⟩) (quote :: pieces.flatten ++ [quote])

/-- A character that ends whatever token stands before it: white space or a mark. -/
def Delimits (c : Char) : Prop := isSpace c = true ∨ ∃ m : Mark, c = m.spelling

/-- A text that consists of tokens, with white space between them. A number has to be followed by
    white space or a mark. -/
inductive Laid : List Token → List Char → Prop where
  | nil : Laid [] []
  | space {c : Char} {ts : List Token} {text : List Char} (space : isSpace c = true)
      (rest : Laid ts text) : Laid ts (c :: text)
  | token {t : Token} {ts : List Token} {spelling text : List Char} (written : t.Written spelling)
      (delimited : ∀ n, t = .number n → ∃ c rest, text = c :: rest ∧ Delimits c)
      (rest : Laid ts text) : Laid (t :: ts) (spelling ++ text)

/-! ## The pass over a token -/

namespace Scanner

variable {rest : List Char}

theorem scan_cons (s : Scanner) (c : Char) (rest : List Char) :
    s.scan (c :: rest) = (s.advance c).1 ++ (s.advance c).2.scan rest :=
  rfl

theorem scan_space {c : Char} (space : isSpace c = true) :
    Scanner.between.scan (c :: rest) = Scanner.between.scan rest := by
  rw [scan_cons, advance, begin, if_pos space]
  rfl

theorem scan_mark (m : Mark) :
    Scanner.between.scan (m.spelling :: rest) = .mark m :: Scanner.between.scan rest := by
  cases m <;> rfl

theorem scan_word (w : Word) :
    Scanner.between.scan (w.spelling ++ rest) = .word w none :: Scanner.between.scan rest := by
  cases w <;> rfl

/-! ### Quoted texts -/

theorem utf8Size_of_hexValue {c : Char} {n : Nat} (digit : hexValue? c = some n) :
    c.utf8Size = 1 := by
  have small : c ≤ Char.ofNat 127 := by
    rw [hexValue?] at digit
    split at digit
    · next range => exact range.2.trans (by decide)
    · split at digit
      · next range => exact range.2.trans (by decide)
      · split at digit
        · next range => exact range.2.trans (by decide)
        · cases digit
  exact Char.utf8Size_eq_one_iff.mpr small

/-- A digit of a unit that is not the last. -/
theorem scan_digit {c : Char} {digit seen value : Nat} (parts : List TextPart)
    (first : hexValue? c = some digit) (more : seen + 1 < 4) :
    (Scanner.text parts (.unit seen value true)).scan (c :: rest) =
      (Scanner.text parts (.unit (seen + 1) (value * 16 + digit) true)).scan rest := by
  rw [scan_cons, advance, advanceText, utf8Size_of_hexValue first]
  simp only [first, if_pos more, List.nil_append]

/-- The last digit of a unit. -/
theorem scan_last_digit {c : Char} {digit value : Nat} (parts : List TextPart)
    (last : hexValue? c = some digit) :
    (Scanner.text parts (.unit 3 value true)).scan (c :: rest) =
      (Scanner.text (.unit (value * 16 + digit) :: parts) .plain).scan rest := by
  rw [scan_cons, advance, advanceText, utf8Size_of_hexValue last]
  simp only [last, if_neg (show ¬ 3 + 1 < 4 by decide), if_true, List.nil_append]

theorem scan_part {p : TextPart} {piece : List Char} (written : p.Written piece)
    (before : List TextPart) :
    (Scanner.text before .plain).scan (piece ++ rest) =
      (Scanner.text (p :: before) .plain).scan rest := by
  cases written with
  | plain unquoted unescaped shown =>
      rw [List.singleton_append, scan_cons, advance, advanceText, if_neg unquoted,
        if_neg unescaped, if_neg (Nat.not_lt_of_le shown)]
      rfl
  | short escape =>
      have begun : (Scanner.text before .plain).advance '\\' = ([], .text before .escape) := rfl
      simp only [List.cons_append, List.nil_append, scan_cons, begun]
      rw [advance, advanceText, escape]
      rfl
  | unit first second third fourth =>
      have begun : (Scanner.text before .plain).advance '\\' = ([], .text before .escape) := rfl
      have entered : (Scanner.text before .escape).advance 'u' =
          ([], .text before (.unit 0 0 true)) := rfl
      rw [List.cons_append, List.cons_append, scan_cons, begun, scan_cons, entered]
      simp only [List.cons_append, List.nil_append]
      rw [scan_digit before first (by decide), scan_digit before second (by decide),
        scan_digit before third (by decide), scan_last_digit before fourth, Nat.zero_mul,
        Nat.zero_add]

theorem scan_parts {parts : List TextPart} {pieces : List (List Char)}
    (written : List.Forall₂ TextPart.Written parts pieces) (before : List TextPart) :
    (Scanner.text before .plain).scan (pieces.flatten ++ rest) =
      (Scanner.text (parts.reverse ++ before) .plain).scan rest := by
  induction written generalizing before with
  | nil => rfl
  | cons first _ ih =>
      rw [List.flatten_cons, List.append_assoc, scan_part first, ih, List.reverse_cons,
        List.append_assoc]
      rfl

theorem scan_text {parts : List TextPart} {pieces : List (List Char)}
    (written : List.Forall₂ TextPart.Written parts pieces) :
    Scanner.between.scan (quote :: pieces.flatten ++ [quote] ++ rest) =
      .text ⟨parts, none⟩ :: Scanner.between.scan rest := by
  have opened : Scanner.between.advance quote = ([], .text [] .plain) := rfl
  have closed : (Scanner.text (parts.reverse ++ []) .plain).advance quote =
      ([.text ⟨parts, none⟩], .between) := by
    rw [advance, advanceText, if_pos rfl, quotation, List.append_nil, List.reverse_reverse]
  rw [List.append_assoc, List.cons_append, scan_cons, opened, scan_parts written]
  exact congrArg (fun (s : List Token × Scanner) => s.1 ++ s.2.scan rest) closed

/-! ### Numerals -/

/-- Characters that belong to a numeral, one after another. -/
def extendAll (n : Numeral) : List Char → Option Numeral
  | [] => some n
  | c :: rest => (n.extend? c).bind fun n => extendAll n rest

theorem extendAll_append (n : Numeral) (first second : List Char) :
    extendAll n (first ++ second) = (extendAll n first).bind fun n => extendAll n second := by
  induction first generalizing n with
  | nil => rfl
  | cons c first ih =>
      rw [List.cons_append, extendAll, extendAll, Option.bind_assoc]
      exact congrArg (Option.bind _) (funext ih)

theorem scan_extended {n m : Numeral} {text : List Char} (extended : extendAll n text = some m) :
    (Scanner.number n).scan (text ++ rest) = (Scanner.number m).scan rest := by
  induction text generalizing n with
  | nil =>
      obtain rfl := Option.some.inj extended
      rfl
  | cons c text ih =>
      rw [extendAll, Option.bind_eq_some_iff] at extended
      obtain ⟨next, taken, others⟩ := extended
      rw [List.cons_append, scan_cons, advance, taken]
      exact ih others

variable {neg : Bool} {ds front places : List Char} {fraction : Option (List Char)}

/-- Digits go where the digits are that the numeral ends with. -/
theorem extendAll_of_step {n : List Char → Numeral}
    (step : ∀ front d, isDigit d = true → (n front).extend? d = some (n (front ++ [d])))
    (digits : ∀ c ∈ ds, isDigit c = true) : extendAll (n front) ds = some (n (front ++ ds)) := by
  induction ds generalizing front with
  | nil => rw [extendAll, List.append_nil]
  | cons d ds ih =>
      obtain ⟨first, others⟩ := List.forall_mem_cons.mp digits
      rw [extendAll, step front d first, Option.bind_some, ih others, List.append_assoc]
      rfl

theorem extendAll_digits (digits : ∀ c ∈ ds, isDigit c = true) :
    extendAll ⟨neg, front, none, none, false⟩ ds = some ⟨neg, front ++ ds, none, none, false⟩ :=
  extendAll_of_step (n := fun front => ⟨neg, front, none, none, false⟩)
    (fun _ _ digit => if_pos digit) digits

theorem extendAll_places (digits : ∀ c ∈ places, isDigit c = true) :
    extendAll ⟨neg, ds, some [], none, false⟩ places = some ⟨neg, ds, some places, none, false⟩ :=
  extendAll_of_step (n := fun front => ⟨neg, ds, some front, none, false⟩)
    (fun _ _ digit => if_pos digit) digits

theorem extendAll_power {sign : Option Char} {power : List Char}
    (digits : ∀ c ∈ power, isDigit c = true) :
    extendAll ⟨neg, ds, fraction, some ⟨sign, []⟩, false⟩ power =
      some ⟨neg, ds, fraction, some ⟨sign, power⟩, false⟩ :=
  extendAll_of_step (n := fun front => ⟨neg, ds, fraction, some ⟨sign, front⟩, false⟩)
    (fun _ _ digit => if_pos digit) digits

/-- The places of a numeral come after its point. -/
theorem extendAll_fraction (written : ds ≠ []) (digits : ∀ c ∈ places, isDigit c = true) :
    extendAll ⟨neg, ds, none, none, false⟩ ('.' :: places) =
      some ⟨neg, ds, some places, none, false⟩ := by
  have taken : Numeral.extend? ⟨neg, ds, none, none, false⟩ '.' =
      some ⟨neg, ds, some [], none, false⟩ := if_neg written
  rw [extendAll, taken, Option.bind_some]
  exact extendAll_places digits

/-- The exponent of a numeral comes after a letter. -/
theorem extendAll_exponent {e : Exponent} {letter : Char} (written : ds ≠ [])
    (broken : fraction ≠ some []) (marks : letter = 'e' ∨ letter = 'E')
    (sign : ∀ c, e.sign = some c → c = '+' ∨ c = '-')
    (digits : ∀ c ∈ e.digits, isDigit c = true) :
    extendAll ⟨neg, ds, fraction, none, false⟩ (letter :: e.sign.toList ++ e.digits) =
      some ⟨neg, ds, fraction, some e, false⟩ := by
  have taken : Numeral.extend? ⟨neg, ds, fraction, none, false⟩ letter =
      some ⟨neg, ds, fraction, some ⟨none, []⟩, false⟩ := by
    cases fraction with
    | none => obtain rfl | rfl := marks <;> exact if_neg written
    | some places =>
        have places_ne : places ≠ [] := fun empty => broken (congrArg some empty)
        obtain rfl | rfl := marks <;> exact if_pos ⟨by decide, places_ne⟩
  have signed : extendAll ⟨neg, ds, fraction, some ⟨none, []⟩, false⟩ e.sign.toList =
      some ⟨neg, ds, fraction, some ⟨e.sign, []⟩, false⟩ := by
    cases given : e.sign with
    | none => rfl
    | some c => obtain rfl | rfl := sign c given <;> rfl
  rw [List.cons_append, extendAll, taken, Option.bind_some, extendAll_append, signed]
  exact extendAll_power digits

theorem begin_digit {d : Char} (digit : isDigit d = true) :
    begin d = ([], .number ⟨false, [d], none, none, false⟩) := by
  have range : '0' ≤ d ∧ d ≤ '9' := by simpa [isDigit] using digit
  have low : (48 : ℕ) ≤ d.toNat := range.1
  have high : d.toNat ≤ (57 : ℕ) := range.2
  have all : ∀ k : ℕ, 48 ≤ k → k ≤ 57 →
      begin (Char.ofNat k) = ([], .number ⟨false, [Char.ofNat k], none, none, false⟩) := by
    intro k low high
    interval_cases k <;> rfl
  have same := all d.toNat low high
  rwa [Char.ofNat_toNat] at same

theorem scan_whole (written : ds ≠ []) (digits : ∀ c ∈ ds, isDigit c = true) :
    Scanner.between.scan ((if neg then ['-'] else []) ++ ds ++ rest) =
      (Scanner.number ⟨neg, ds, none, none, false⟩).scan rest := by
  -- The sign begins a numeral that has no digits yet; without a sign, the first digit begins it.
  cases neg with
  | true =>
      have begun : Scanner.between.advance '-' = ([], .number ⟨true, [], none, none, false⟩) := rfl
      rw [if_pos rfl, List.append_assoc, List.singleton_append, scan_cons, begun]
      exact scan_extended (extendAll_digits digits)
  | false =>
      cases ds with
      | nil => exact absurd rfl written
      | cons d ds =>
          obtain ⟨first, others⟩ := List.forall_mem_cons.mp digits
          have begun : Scanner.between.advance d = ([], .number ⟨false, [d], none, none, false⟩) :=
            begin_digit first
          rw [if_neg Bool.false_ne_true, List.nil_append, List.cons_append, scan_cons, begun]
          exact scan_extended (extendAll_digits others)

/-- No numeral goes on with a character that ends tokens. -/
theorem extend?_of_delimits {c : Char} (delimits : Delimits c) (n : Numeral) : n.extend? c = none := by
  have plain : isDigit c = false ∧ c ≠ '+' ∧ c ≠ '-' ∧ c ≠ '.' ∧ c ≠ 'e' ∧ c ≠ 'E' := by
    obtain space | ⟨m, rfl⟩ := delimits
    · simp only [isSpace, Bool.or_eq_true, decide_eq_true_eq] at space
      obtain ((rfl | rfl) | rfl) | rfl := space <;> decide
    · cases m <;> decide
  obtain ⟨digit, plus, minus, point, small, large⟩ := plain
  rw [Numeral.extend?]
  split <;> simp [digit, plus, minus, point, small, large]

theorem scan_number {n : Numeral} {letter c : Char} (proper : n.Proper)
    (marks : letter = 'e' ∨ letter = 'E') (delimits : Delimits c) :
    Scanner.between.scan (n.text letter ++ c :: rest) =
      .number n :: Scanner.between.scan (c :: rest) := by
  obtain ⟨neg, ds, fraction, exponent, atEnd⟩ := n
  obtain ⟨wellFormed, digits, places, power, sign, rfl⟩ := proper
  simp only [Numeral.wellFormed, Bool.and_eq_true, decide_eq_true_eq] at wellFormed
  obtain ⟨⟨⟨written, -⟩, broken⟩, -⟩ := wellFormed
  have fraction' : extendAll ⟨neg, ds, none, none, false⟩ (placesText fraction) =
      some ⟨neg, ds, fraction, none, false⟩ := by
    cases fraction with
    | none => rfl
    | some given => exact extendAll_fraction written (places given rfl)
  have exponent' : extendAll ⟨neg, ds, fraction, none, false⟩ (exponentText letter exponent) =
      some ⟨neg, ds, fraction, exponent, false⟩ := by
    cases exponent with
    | none => rfl
    | some e =>
        exact extendAll_exponent written broken marks (fun c => sign e c rfl) (power e rfl)
  rw [Numeral.text, List.append_assoc, List.append_assoc, scan_whole written digits,
    scan_extended fraction', scan_extended exponent', scan_cons, advance,
    extend?_of_delimits delimits]
  rfl

/-! ## The pass over a text -/

theorem scan_token {t : Token} {spelling : List Char} (written : t.Written spelling)
    (delimited : ∀ n, t = .number n → ∃ c more, rest = c :: more ∧ Delimits c) :
    Scanner.between.scan (spelling ++ rest) = t :: Scanner.between.scan rest := by
  cases written with
  | mark m => exact scan_mark m
  | word w => exact scan_word w
  | number proper marks =>
      obtain ⟨c, more, rfl, delimits⟩ := delimited _ rfl
      exact scan_number proper marks delimits
  | text written => exact scan_text written

end Scanner

/-- The tokens of a text are those that it is made of. -/
theorem tokens_of_laid {ts : List Token} {text : List Char} (laid : Laid ts text) :
    tokens text = ts := by
  induction laid with
  | nil => rfl
  | space space _ ih => exact (Scanner.scan_space space).trans ih
  | token written delimited _ ih =>
      exact (Scanner.scan_token written delimited).trans (congrArg (List.cons _) ih)

end Postmortem.Json
