import Postmortem.Bytes
import Postmortem.Symbol.ParameterTypes
import Postmortem.Text.Quoted

/-! # Mangled names

Linkers know functions by mangled names, in which a qualified name is a sequence of identifiers,
each preceded by its length. Two forms are read: the hashed form, whose identifiers escape the
characters that a linker does not take and whose last one is a hash, and the plain form of C++, of
which the types of the parameters are dropped. Any other name stays as it is.
-/

namespace Postmortem.Mangled

/-! ## The hashed form -/

/-- A run of digits as a number, and what follows it. -/
def takeNumber (s : Bytes) : Option (Nat × Bytes) :=
  let digits := s.takeWhile Bytes.isDigit
  if digits.isEmpty then none
  else some (digits.foldl (fun n b => n * 10 + (b.toNat - 48)) 0, s.drop digits.length)

/-- An identifier preceded by its length, and what follows it. -/
def takeIdentifier (s : Bytes) : Option (Bytes × Bytes) :=
  match takeNumber s with
  | some (length, rest) =>
    if length ≤ rest.length then some (rest.take length, rest.drop length) else none
  | none => none

/-- What follows an identifier is shorter than what begins with it. -/
theorem length_rest_lt {s identifier rest : Bytes} (h : takeIdentifier s = some (identifier, rest)) :
    rest.length < s.length := by
  unfold takeIdentifier takeNumber at h
  split at h
  · next length tail eq =>
    dsimp only at eq
    split at eq
    · simp at eq
    · next nonempty =>
      split at h
      · simp only [Option.some.injEq, Prod.mk.injEq] at eq h
        obtain ⟨-, rfl⟩ := eq
        obtain ⟨-, rfl⟩ := h
        have : 0 < (s.takeWhile Bytes.isDigit).length := by
          cases h' : s.takeWhile Bytes.isDigit with
          | nil => simp [h'] at nonempty
          | cons => simp
        have := (List.takeWhile_sublist (p := Bytes.isDigit) (l := s)).length_le
        simp only [List.length_drop]
        omega
      · simp at h
  · simp at h

/-- Identifiers up to an `E`, and what follows that. -/
def takeNested (s : Bytes) : Option (List Bytes × Bytes) :=
  match s with
  | [] => none
  | b :: rest =>
    if b = 69 then some ([], rest)
    else
      match _h : takeIdentifier (b :: rest) with
      | some (identifier, rest) =>
        (takeNested rest).map fun (identifiers, rest) => (identifier :: identifiers, rest)
      | none => none
termination_by s.length
decreasing_by exact length_rest_lt _h

/-- The separator of a qualified name. -/
def scope : Bytes := utf8 "::"

/-- Is the byte a hexadecimal digit, in either case? -/
def isHexDigit (b : UInt8) : Bool :=
  Bytes.isDigit b || (97 ≤ b && b ≤ 102) || (65 ≤ b && b ≤ 70)

/-- Is the identifier a hash: an `h` and hexadecimal digits? -/
def isHash : Bytes → Bool
  | 104 :: digits => digits.all isHexDigit
  | _ => false

/-- The value of a hexadecimal digit in lower case. -/
def hexValue? (b : UInt8) : Option Nat :=
  if Bytes.isDigit b then some (b.toNat - 48)
  else if 97 ≤ b && b ≤ 102 then some (b.toNat - 87)
  else none

/-- A code point written in hexadecimal digits, if it is a character that can be shown. -/
def codePoint? (digits : Bytes) : Option Bytes := do
  if digits.isEmpty then none
  let values ← digits.mapM hexValue?
  let n := values.foldl (fun n d => n * 16 + d) 0
  if n < 0x20 ∨ (0x7F ≤ n ∧ n < 0xA0) then none
  else if n.isValidChar then some (String.utf8EncodeChar (Char.ofNat n))
  else none

/-- What an escape between two dollar signs stands for. -/
def unescape? (name : Bytes) : Option Bytes :=
  match [("SP", "@"), ("BP", "*"), ("RF", "&"), ("LT", "<"), ("GT", ">"), ("LP", "("), ("RP", ")"),
      ("C", ",")].find? fun (escape, _) => utf8 escape = name with
  | some (_, meaning) => some (utf8 meaning)
  | none =>
    match name with
    | 117 :: digits => codePoint? digits
    | _ => none

/-- Decodes an identifier: two dots separate scopes, and escapes stand between dollar signs. An
    escape that is none leaves the rest as it is. `fuel` bounds the number of pieces. -/
def decodeFrom : (fuel : Nat) → Bytes → Bytes
  | 0, s => s
  | _ + 1, [] => []
  | fuel + 1, 46 :: 46 :: rest => scope ++ decodeFrom fuel rest
  | fuel + 1, 36 :: rest =>
    match Bytes.splitOnce 36 rest with
    | some (name, after) =>
      match unescape? name with
      | some meaning => meaning ++ decodeFrom fuel after
      | none => 36 :: rest
    | none => 36 :: rest
  | fuel + 1, b :: rest => b :: decodeFrom fuel rest

/-- Decodes an identifier. An underscore that only protects a dollar sign is dropped. -/
def decodeIdentifier (s : Bytes) : Bytes :=
  match s with
  | 95 :: 36 :: rest => decodeFrom s.length (36 :: rest)
  | _ => decodeFrom s.length s

/-- A name without the mark of a copy that was made when the program was linked. -/
def dropCopyMark (name : Bytes) : Bytes :=
  let mark := utf8 ".llvm."
  let before := Bytes.upTo mark name
  let hash := name.drop (before.length + mark.length)
  if hash.all fun b => Bytes.isDigit b || (65 ≤ b && b ≤ 70) || b = 64 then before else name

/-- The qualified name in the hashed form. What follows after a dot is shown as it is. -/
def hashed? (name : Bytes) : Option Bytes := do
  let name := dropCopyMark name
  let rest ← ["_ZN", "ZN", "__ZN"].findSome? fun mark => (utf8 mark).isPrefixOf? name
  if rest.any (0x80 ≤ ·) then none
  let (identifiers, after) ← takeNested rest
  if !after.isEmpty && !(after.head? = some 46 && after.all fun b => 0x20 < b && b < 0x7F) then none
  let shown := match identifiers.getLast? with
    | some last => if isHash last then identifiers.dropLast else identifiers
    | none => identifiers
  return List.intercalate scope (shown.map decodeIdentifier) ++ after

/-! ## The plain form -/

/-- The name of a scope in C++, where a scope may be without a name. -/
def scopeName (identifier : Bytes) : Bytes :=
  match (utf8 "_GLOBAL_").isPrefixOf? identifier with
  | some (mark :: 78 :: _) =>
    if mark ∈ [46, 95, 36] then utf8 "(anonymous namespace)" else identifier
  | _ => identifier

/-- Identifiers up to an `E`, and what follows that; at most `n` of them. -/
def scopesUpTo : (n : Nat) → Bytes → Option (List Bytes × Bytes)
  | _, 69 :: rest => some ([], rest)
  | 0, _ => none
  | n + 1, s =>
    match identifier? s with
    | some (identifier, rest) =>
      (scopesUpTo n rest).map fun (identifiers, rest) => (identifier :: identifiers, rest)
    | none => none

/-- Drops one of some bytes if it comes first. -/
def dropOne (bytes : Bytes) : Bytes → Bytes
  | b :: rest => if b ∈ bytes then rest else b :: rest
  | [] => []

/-- A name without its types: at least two identifiers in brackets, after the qualifiers of a member
    function, or a single one. -/
def qualifiedName (s : Bytes) : Option (List Bytes × Bytes) :=
  match s with
  | 78 :: nested =>
    let nested := ["r", "V", "K", "RO"].foldl (fun s mark => dropOne (utf8 mark) s) nested
    match scopesUpTo s.length nested with
    | some (identifiers, rest) => if 2 ≤ identifiers.length then some (identifiers, rest) else none
    | none => none
  | s => (identifier? s).map fun (identifier, rest) => ([identifier], rest)

/-- The parts that a name enters in the table: the scopes around its last identifier. -/
def partsOf (identifiers : List Bytes) : List Part :=
  (List.range (identifiers.length - 1)).map fun i => if i = 0 then .other else .scoped

/-- How deep rules may use each other. -/
def maxDepth : Nat := 160

/-- How many rules are in use where the parameter types begin: the mangled name and the function. -/
def outerRules : Nat := 2

/-- How many identifiers a name may have, so that it can be shown. -/
def maxIdentifiers : Nat := 93

/-- The size of the longest name that is shown. -/
def maxShown : Nat := 4096

/-- What follows the types of the parameters, if there are any. -/
def dropTypes (parts : List Part) (s : Bytes) : Option Bytes :=
  match readRule TypeRule.form (maxDepth - outerRules) .parameterTypes ⟨s, parts, none⟩ with
  | .found p => some p.rest
  | .absent _ => some s
  | .tooDeep => none

/-- May the character stand in the name of a variant? -/
def isVariantByte (b : UInt8) : Bool := isIdentifierByte b && b ≠ 46

/-- The numbers of a variant, each after a dot. -/
def dropNumbers : (n : Nat) → Bytes → Bytes
  | n + 1, 46 :: s =>
    match numberIn? 10 s with
    | some (_, rest) => dropNumbers n rest
    | none => 46 :: s
  | _, s => s

/-- Is the rest a sequence of variants, in which compilers number the copies of a function? -/
def isVariants : (n : Nat) → Bytes → Bool
  | _, [] => true
  | n + 1, 46 :: s =>
    let variant := s.takeWhile isVariantByte
    !variant.isEmpty && isVariants n (dropNumbers s.length (s.drop variant.length))
  | _, _ => false

/-- How many hexadecimal digits a digest has. -/
def digestLength : Nat := 32

/-- A name without the digest after a dollar sign that a linker may add. -/
def dropDigest (name : Bytes) : Bytes :=
  let before := name.take (name.length - (digestLength + 1))
  match name.drop before.length with
  | 36 :: digits =>
    if digits.length = digestLength && digits.all isHexDigit then before else name
  | _ => name

/-- The qualified name in the plain form. -/
def plain? (name : Bytes) : Option Bytes := do
  let name := dropDigest name
  let rest ← ((utf8 "_Z").isPrefixOf? name).or ((utf8 "__Z").isPrefixOf? name)
  let (identifiers, rest) ← qualifiedName rest
  let rest ← dropTypes (partsOf identifiers) rest
  if !isVariants rest.length rest then none
  let shown := List.intercalate scope (identifiers.map scopeName)
  if maxIdentifiers < identifiers.length || maxShown < shown.length then none
  return shown

/-! ## Any name -/

/-- The name for readers. -/
def demangle (name : Bytes) : Bytes :=
  ((hashed? name).or (plain? name)).getD name

end Postmortem.Mangled
