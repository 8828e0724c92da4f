import Postmortem.Bytes

/-! # C strings

A C string is a byte string without NUL; in memory a NUL follows it. The first half of this module
is the value, the second half reads such strings where they lie: a pointer is either null or leads
to the bytes from there to the end of the allocation, and a read past that end is an error of its
own, so that a function that never makes one is seen to stay inside its strings.
-/

namespace Postmortem

/-- A byte string without NUL. -/
structure CString where
  bytes : Bytes
  nul_notMem : (0 : UInt8) ∉ bytes
  deriving Repr, DecidableEq

/-- A text that was to become a C string holds a NUL at this offset. -/
structure NulError where
  position : Nat
  deriving Repr, DecidableEq

/-- The wording of the failure. -/
def NulError.message (e : NulError) : String :=
  "nul byte found in provided data at position: " ++ toString e.position

namespace CString

/-- The C string with these bytes, if none of them is NUL. -/
def ofBytes (bytes : Bytes) : Except NulError CString :=
  if h : (0 : UInt8) ∈ bytes then .error ⟨bytes.idxOf 0⟩ else .ok ⟨bytes, h⟩

/-- The C string with this text. -/
def ofString (text : String) : Except NulError CString := ofBytes (utf8 text)

/-- The C string of a text that plainly holds no NUL. -/
def text (s : String) (h : (0 : UInt8) ∉ utf8 s := by decide) : CString := ⟨utf8 s, h⟩

/-- The beginning of a byte string up to its first NUL. -/
def untilNul (bytes : Bytes) : CString :=
  ⟨bytes.takeWhile (· ≠ 0), by
    intro h
    have := List.all_takeWhile (l := bytes) (p := fun b => decide (b ≠ 0))
    rw [List.all_eq_true] at this
    simpa using this 0 h⟩

instance : Inhabited CString := ⟨⟨[], by simp⟩⟩

end CString

/-- What lies in memory from an address to the end of its allocation. -/
abbrev Memory := Bytes

/-- A read beyond the end of an allocation. -/
structure Overread where
  deriving Repr, DecidableEq

/-- Where a C string lies: its bytes, the NUL, and whatever comes after. -/
def CString.memory (s : CString) (after : Bytes) : Memory := s.bytes ++ 0 :: after

namespace Memory

/-- The byte at the address. -/
def head : Memory → Except Overread UInt8
  | [] => .error ⟨⟩
  | b :: _ => .ok b

/-- The length of the C string at a pointer, 0 for null. -/
def stringLength : Memory → Except Overread Nat
  | [] => .error ⟨⟩
  | b :: rest => if b = 0 then .ok 0 else (stringLength rest).map (· + 1)

/-- The length of the C string at a pointer; null counts as the empty string. -/
def length? : Option Memory → Except Overread Nat
  | none => .ok 0
  | some m => stringLength m

/-- Do the strings at two addresses agree in their first `n` bytes? Reading stops at the first
    difference, at the end of both, or after `n` bytes. -/
def agree : Nat → Memory → Memory → Except Overread Bool
  | 0, _, _ => .ok true
  | n + 1, a, b =>
    match a, b with
    | x :: a, y :: b =>
      if x = 0 ∧ y = 0 then .ok true
      else if x ≠ y then .ok false
      else agree n a b
    | _, _ => .error ⟨⟩

/-- Do the strings at two pointers agree in their first `n` bytes? A null pointer agrees with null
    and nothing else. -/
def agree? (n : Nat) : Option Memory → Option Memory → Except Overread Bool
  | some a, some b => agree n a b
  | none, none => .ok true
  | _, _ => .ok false

/-- The largest count a comparison can be given. -/
def maxCount : Nat := UInt64.size - 1

/-- Are the strings at two pointers equal? -/
def equal? (a b : Option Memory) : Except Overread Bool := agree? maxCount a b

/-- The C string at an address. -/
def string : Memory → Except Overread Bytes
  | [] => .error ⟨⟩
  | b :: rest => if b = 0 then .ok [] else (string rest).map (b :: ·)

end Memory

end Postmortem
