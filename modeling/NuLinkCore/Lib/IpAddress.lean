import NuLinkCore.Lib.Hex

/-!
# IP addresses as text

The reading and printing of addresses as Python's {lit}`ipaddress` module does it in version
3.8.12: the octets of an IPv4 address have no leading zeros, two colons in an IPv6 address stand
for a run of zeros, its end may be written as an IPv4 address, and there are no scopes.

Main results:

- Theorem {lit}`IpAddress.print_ne_nil`: a printed address is not empty.
-/

/-- An IP address of either version. -/
inductive IpAddress where
  | v4 (value : BitVec 32)
  | v6 (value : BitVec 128)
deriving DecidableEq

namespace IpAddress

/-! ## Reading -/

/-- A decimal octet. -/
def readOctet (part : List Char) : Option Nat :=
  if part ≠ [] ∧ part.all Char.isDigit = true ∧ part.length ≤ 3 ∧
      (part = ['0'] ∨ part.head? ≠ some '0') then
    let value := Nat.ofDigitChars 10 part 0
    if value ≤ 255 then some value else none
  else none

/-- Four octets with dots between them. -/
def readIPv4 (text : List Char) : Option Nat :=
  match (text.splitOn '.').mapM readOctet with
  | some [a, b, c, d] => some (((a * 256 + b) * 256 + c) * 256 + d)
  | _ => none

/-- Up to four hexadecimal digits. -/
def readHextet (part : List Char) : Option Nat :=
  if part ≠ [] ∧ part.length ≤ 4 then
    part.foldlM (fun n c => (Hex.value? c).map (16 * n + ·)) 0
  else none

/-- The parts with an IPv4 address at the end written as two hextets. -/
def expandTail (parts : List (List Char)) : Option (List (List Char)) :=
  let last := parts.getLastD []
  if '.' ∈ last then
    (readIPv4 last).map fun n =>
      parts.dropLast ++ [Nat.toDigits 16 (n / 65536), Nat.toDigits 16 (n % 65536)]
  else some parts

/-- The positions of the empty parts, those at both ends apart. -/
def gaps (parts : List (List Char)) : List Nat :=
  (List.range parts.length).filter fun i =>
    0 < i ∧ i + 1 < parts.length ∧ parts[i]? = some []

/-- The hextets that the parts stand for; an empty part at an end has to be next to the gap. -/
def expandGap (parts : List (List Char)) : Option (List (List Char)) :=
  match gaps parts with
  | [] => if parts.length = 8 ∧ parts.all (· ≠ []) = true then some parts else none
  | [gap] =>
      let high := if parts.head? = some [] then (parts.take gap).tail else parts.take gap
      let low :=
        if parts.getLast? = some [] then (parts.drop (gap + 1)).dropLast else parts.drop (gap + 1)
      if (parts.head? = some [] ∧ high ≠ []) ∨ (parts.getLast? = some [] ∧ low ≠ []) then none
      else if 8 ≤ high.length + low.length then none
      else some (high ++ List.replicate (8 - (high.length + low.length)) ['0'] ++ low)
  | _ => none

/-- Eight hextets with colons between them. -/
def readIPv6 (text : List Char) : Option Nat :=
  let parts := text.splitOn ':'
  if parts.length < 3 then none
  else do
    let parts ← expandTail parts
    if 9 < parts.length then none
    else
      let hextets ← (← expandGap parts).mapM readHextet
      some (hextets.foldl (fun n hextet => 65536 * n + hextet) 0)

/-- {lit}`ip_address` of a string. -/
def ofText (text : List Char) : Option IpAddress :=
  match readIPv4 text with
  | some n => some (.v4 (BitVec.ofNat 32 n))
  | none => (readIPv6 text).map fun n => .v6 (BitVec.ofNat 128 n)

/-- {lit}`ip_address` of an integer. -/
def ofInt (n : Int) : Option IpAddress :=
  if n < 0 then none
  else if n < 2 ^ 32 then some (.v4 (BitVec.ofInt 32 n))
  else if n < 2 ^ 128 then some (.v6 (BitVec.ofInt 128 n))
  else none

/-! ## Printing -/

/-- The digits of a number in a base, the highest first. -/
def digits (base : Nat) (count : Nat) (value : Nat) : List Nat :=
  (List.range count).map fun i => value / base ^ (count - 1 - i) % base

/-- The runs of zeros met so far: the current one, and the first of the longest ones. -/
structure ZeroRun where
  start : Nat
  length : Nat
  bestStart : Nat
  bestLength : Nat

/-- One more hextet. -/
def ZeroRun.next (run : ZeroRun) (entry : Nat × Nat) : ZeroRun :=
  if entry.1 = 0 then
    let start := if run.length = 0 then entry.2 else run.start
    let length := run.length + 1
    if run.bestLength < length then ⟨start, length, start, length⟩
    else { run with start := start, length := length }
  else { run with length := 0 }

/-- The first of the longest runs of zeros. -/
def longestRun (hextets : List Nat) : ZeroRun := hextets.zipIdx.foldl ZeroRun.next ⟨0, 0, 0, 0⟩

/-- The parts of an IPv6 address, with the longest run of more than one zero left out. -/
def compress (hextets : List Nat) : List (List Char) :=
  let texts := hextets.map (Nat.toDigits 16)
  let run := longestRun hextets
  let stop := run.bestStart + run.bestLength
  if run.bestLength ≤ 1 then texts
  else
    (if run.bestStart = 0 then [[]] else texts.take run.bestStart) ++ [[]] ++
      (if stop = texts.length then [[]] else texts.drop stop)

/-- {lit}`str` of an address. -/
def print : IpAddress → List Char
  | .v4 value => ['.'].intercalate ((digits 256 4 value.toNat).map (Nat.toDigits 10))
  | .v6 value => [':'].intercalate (compress (digits 65536 8 value.toNat))

theorem intercalate_ne_nil {sep : Char} {parts : List (List Char)} (h : 1 < parts.length) :
    [sep].intercalate parts ≠ [] := by
  match parts, h with
  | first :: second :: rest, _ => simp [List.intercalate]

theorem one_lt_length_compress {hextets : List Nat} (h : 1 < hextets.length) :
    1 < (compress hextets).length := by
  simp only [compress]
  split
  · simpa using h
  · split
    · simp only [List.length_append, List.length_singleton]
      omega
    · rename_i hstart
      simp only [List.length_append, List.length_singleton, List.length_take, List.length_map]
      omega

/-- A printed address is not empty. -/
theorem print_ne_nil (address : IpAddress) : address.print ≠ [] := by
  cases address with
  | v4 value => exact intercalate_ne_nil (by simp [digits])
  | v6 value => exact intercalate_ne_nil (one_lt_length_compress (by simp [digits]))

end IpAddress
