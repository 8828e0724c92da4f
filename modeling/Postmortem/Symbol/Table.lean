import Postmortem.CString
import Postmortem.Symbol.Mangled

/-! # Symbol tables

Which function an address belongs to. A stack holds return addresses, which point just past a call,
so a function is looked up by the byte before. Exported functions are known with their start, and
the offset into them is shown; functions known from debug information only are shown by name.
-/

namespace Postmortem

/-- An address in memory. -/
abbrev Address := UInt64

/-- A function in memory. -/
structure FunctionSymbol where
  name : Bytes
  start : Nat
  size : Nat
  exported : Bool
  deriving Repr, DecidableEq

/-- The functions of the loaded objects. -/
abbrev SymbolTable := List FunctionSymbol

/-- Describes the code at an address. -/
abbrev Symbolizer := Address → Bytes

/-- The description of an address that nothing is known about. -/
def unknownSymbol : Bytes := utf8 "<unknown>"

namespace SymbolTable

/-- Does the function's code hold the byte at this address? -/
def covers (address : Nat) (f : FunctionSymbol) : Bool :=
  f.start ≤ address && address < f.start + f.size

/-- Describes return addresses by the functions of a table. -/
def symbolizer (table : SymbolTable) : Symbolizer := fun address =>
  if address = 0 then unknownSymbol
  else
    let called := address.toNat - 1
    match table.find? fun f => f.exported && covers called f with
    | some f =>
      Mangled.demangle f.name
        ++ utf8Chars ("+0x".toList ++ Text.hexText (address.toNat - f.start))
    | none =>
      match table.find? (covers called) with
      | some f => Mangled.demangle f.name
      | none => unknownSymbol

end SymbolTable

end Postmortem
