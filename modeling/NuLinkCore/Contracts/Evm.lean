import Mathlib.Tactic
import NuLinkCore.Network.NodeMetadata

/-!
# Words and precompiles of the EVM

What the contracts use of the machine that they run on.  Words are natural numbers below
2²⁵⁶, byte strings in memory are lists that are read at an offset, and a call that reverts
has no result.

The checked subtraction reverts where it would underflow; the modular operations compute
their intermediate results without a bound.

Main results:

- Theorems {lit}`Evm.checkedSub_eq_some` and {lit}`Evm.require_eq_some`: when the two
  reverting operations go on.
-/

namespace NuLink

/-- The hash function and the precompile that recovers the address of a signer. -/
structure Evm where
  keccak256 : Bytes → Nat
  ecrecover : (hash v r s : Nat) → Nat

namespace Evm

/-! ## Memory -/

/-- The big-endian value of a byte string. -/
def bigEndian (bytes : Bytes) : Nat :=
  bytes.foldl (fun value byte => value * 256 + byte.toNat) 0

/-- {lit}`mload`: the word at an offset of a byte string.  What lies behind the string reads as
zeros here; no caller uses those bytes. -/
def mload (memory : Bytes) (pointer : Nat) : Nat :=
  bigEndian ((memory.drop pointer ++ List.replicate 32 0).take 32)

/-- The 32 bytes of a word. -/
def wordBytes (word : Nat) : Bytes :=
  (List.range 32).map fun i => UInt8.ofNat (word / 256 ^ (31 - i))

/-- {lit}`byte(0, word)`. -/
def firstByte (word : Nat) : Nat := word / 2 ^ 248

/-! ## Arithmetic -/

def addmod (a b modulus : Nat) : Nat := (a + b) % modulus

def mulmod (a b modulus : Nat) : Nat := a * b % modulus

/-- Subtraction of unsigned integers. -/
def checkedSub (a b : Nat) : Option Nat := if b ≤ a then some (a - b) else none

@[simp]
theorem checkedSub_eq_some {a b c : Nat} : checkedSub a b = some c ↔ b ≤ a ∧ a - b = c := by
  simp [checkedSub]

theorem addmod_cast (a b modulus : Nat) :
    (addmod a b modulus : ZMod modulus) = a + b := by
  rw [addmod, ZMod.natCast_mod, Nat.cast_add]

theorem mulmod_cast (a b modulus : Nat) :
    (mulmod a b modulus : ZMod modulus) = a * b := by
  rw [mulmod, ZMod.natCast_mod, Nat.cast_mul]

/-- A number of two digits is reduced by means of what remains of the base. -/
theorem addmod_mulmod (upper lower base modulus : Nat) :
    addmod (mulmod upper (base % modulus) modulus) lower modulus =
      (upper * base + lower) % modulus := by
  rw [addmod, mulmod, Nat.mul_mod_mod, Nat.mod_add_mod]

/-! ## Control -/

def require (condition : Bool) : Option Unit := if condition then some () else none

@[simp]
theorem require_eq_some {condition : Bool} {u : Unit} :
    require condition = some u ↔ condition = true := by
  simp [require]

end Evm

end NuLink
