import EmuControl.Number.Integer
import EmuControl.Text.Hex
import EmuControl.Text.Search

/-!
# Internet addresses in text

An address of the older kind is four decimal octets without leading zeros. One of the newer kind is
eight groups of up to four hexadecimal digits, in which `::` stands for one or more groups of zeros
and the last two groups may be written as an address of the older kind.
-/
namespace EmuControl.Network

open EmuControl.Number EmuControl.Text

structure Ipv4 where
  octets : List Nat
  deriving DecidableEq, Repr

structure Ipv6 where
  groups : List Nat
  deriving DecidableEq, Repr

/-- One to three digits for a number up to 255, without leading zeros. -/
def octet? (cs : List Char) : Option (Nat × List Char) :=
  let digits := cs.takeWhile Char.isDigit
  match readNatural? digits with
  | none => none
  | some n =>
    if digits.length ≤ 3 && n ≤ 255 && (digits.length = 1 || digits.head? != some '0') then
      some (n, cs.dropWhile Char.isDigit)
    else none

/-- The older kind of address at the head of a text, and the rest. -/
def readIpv4? (cs : List Char) : Option (Ipv4 × List Char) := do
  let (a, cs) ← octet? cs
  let (b, cs) ← octet? (← after? ['.'] cs)
  let (c, cs) ← octet? (← after? ['.'] cs)
  let (d, cs) ← octet? (← after? ['.'] cs)
  some (⟨[a, b, c, d]⟩, cs)

/-- One to four hexadecimal digits. -/
def group? (cs : List Char) : Option (Nat × List Char) :=
  let digits := cs.takeWhile fun c => (hexValue? c).isSome
  if 1 ≤ digits.length && digits.length ≤ 4 then
    some (digits.foldl (fun n c => n * 16 + (hexValue? c).getD 0) 0,
      cs.dropWhile fun c => (hexValue? c).isSome)
  else none

/-- What follows the colon that has to stand before all groups but the first. -/
def separator? (isFirst : Bool) (cs : List Char) : Option (List Char) :=
  if isFirst then some cs else after? [':'] cs

/-- An address of the older kind in place of two groups. -/
def embedded? (isFirst : Bool) (cs : List Char) : Option (List Nat × List Char) := do
  let cs ← separator? isFirst cs
  match ← readIpv4? cs with
  | (⟨[a, b, c, d]⟩, cs) => some ([a * 256 + b, c * 256 + d], cs)
  | _ => none

/-- Groups at the head of a text. -/
structure GroupRun where
  groups : List Nat
  /-- Whether the last two groups are written as an address of the older kind. -/
  endsEmbedded : Bool
  rest : List Char

/-- Up to `limit` groups. -/
def readGroups : (limit : Nat) → (isFirst : Bool) → List Char → GroupRun
  | 0, _, cs => ⟨[], false, cs⟩
  | limit + 1, isFirst, cs =>
    match if limit = 0 then none else embedded? isFirst cs with
    | some (pair, cs) => ⟨pair, true, cs⟩
    | none =>
      match (separator? isFirst cs).bind group? with
      | none => ⟨[], false, cs⟩
      | some (g, cs) =>
        let run := readGroups limit false cs
        { run with groups := g :: run.groups }

/-- The newer kind of address at the head of a text, and the rest. -/
def readIpv6? (cs : List Char) : Option (Ipv6 × List Char) :=
  let head := readGroups 8 true cs
  if head.groups.length = 8 then some (⟨head.groups⟩, head.rest)
  else if head.endsEmbedded then none
  else do
    let cs ← after? [':', ':'] head.rest
    let tail := readGroups (7 - head.groups.length) true cs
    let zeros := List.replicate (8 - head.groups.length - tail.groups.length) 0
    some (⟨head.groups ++ zeros ++ tail.groups⟩, tail.rest)

/-- A result that leaves nothing unread. -/
def complete? {α : Type} : Option (α × List Char) → Option α
  | some (a, []) => some a
  | _ => none

def ipv4? (s : String) : Option Ipv4 :=
  complete? (readIpv4? s.toList)

def ipv6? (s : String) : Option Ipv6 :=
  complete? (readIpv6? s.toList)

/-- Whether an address leads back to its own host. -/
def isLoopbackLiteral (s : String) : Bool :=
  match ipv4? s, ipv6? s with
  | some a, _ => a.octets.head? = some 127
  | none, some a => a.groups = [0, 0, 0, 0, 0, 0, 0, 1]
  | none, none => false

end EmuControl.Network
