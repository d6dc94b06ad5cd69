import EmuControl.Text.Utf8

/-!
# Web addresses

The parts of an absolute `http` address: the authority up to the first slash, question mark or
number sign, then the path with the query, and a fragment that nobody looks at.

An authority has a name for a user up to its last `@`, a host that may stand in brackets, and a
port. Percent signs are for users and for bracketed hosts, and only one colon may stand outside of
both.
-/
namespace EmuControl.Network

structure Uri where
  authority : List Char
  /-- What follows the authority, up to the fragment. -/
  path : List Char
  deriving DecidableEq, Repr

/-- Letters and digits. -/
def isAlphanumeric (c : Char) : Bool :=
  ('0' ≤ c && c ≤ '9') || ('a' ≤ c && c ≤ 'z') || ('A' ≤ c && c ≤ 'Z')

/-- Whether a character ends an authority. -/
def endsAuthority (c : Char) : Bool :=
  c = '/' || c = '?' || c = '#'

/-- Characters of an authority that mean nothing by themselves. -/
def isOrdinary (c : Char) : Bool :=
  isAlphanumeric c || "-._~!$&'()*+,;=".toList.contains c

/-- What is known of an authority up to some place. -/
structure AuthorityState where
  /-- Colons that are not part of a user name or a bracketed host. -/
  colons : Nat := 0
  opened : Bool := false
  closed : Bool := false
  /-- A percent sign that is not part of a user name or a bracketed host. -/
  hasPercent : Bool := false
  /-- The last character was an `@`. -/
  afterAt : Bool := false

namespace AuthorityState

/-- The most colons that may stand in a row of groups. -/
def maxColons : Nat := 8

def step (s : AuthorityState) (c : Char) : Option AuthorityState :=
  if c = ':' then
    if maxColons ≤ s.colons then none
    else some { s with colons := s.colons + 1, afterAt := false }
  else if c = '[' then
    if s.hasPercent || s.opened then none else some { s with opened := true, afterAt := false }
  else if c = ']' then
    if !s.opened || s.closed then none
    else some { s with closed := true, colons := 0, hasPercent := false, afterAt := false }
  else if c = '@' then some { s with colons := 0, hasPercent := false, afterAt := true }
  else if c = '%' then some { s with hasPercent := true, afterAt := false }
  else if isOrdinary c then some { s with afterAt := false }
  else none

/-- Whether an authority may end here. -/
def isFinal (s : AuthorityState) : Bool :=
  s.opened = s.closed && s.colons ≤ 1 && !s.afterAt && !s.hasPercent

end AuthorityState

def isAuthority (cs : List Char) : Bool :=
  !cs.isEmpty && (cs.foldlM AuthorityState.step {}).any AuthorityState.isFinal

/-- Characters that may stand in a path as they are. -/
def isPathChar (c : Char) : Bool :=
  let n := c.toNat
  n = 0x21 || (0x24 ≤ n && n ≤ 0x3B) || n = 0x3D || (0x40 ≤ n && n ≤ 0x5F) ||
    (0x61 ≤ n && n ≤ 0x7F) || c = '"' || 0x80 ≤ n

/-- Characters that may stand in a query as they are. -/
def isQueryChar (c : Char) : Bool :=
  let n := c.toNat
  n = 0x21 || (0x24 ≤ n && n ≤ 0x3B) || n = 0x3D || 0x3F ≤ n

/-- Whether a text is a path, perhaps with a query. -/
def isPathAndQuery (cs : List Char) : Bool :=
  (cs.takeWhile (· ≠ '?')).all isPathChar && ((cs.dropWhile (· ≠ '?')).drop 1).all isQueryChar

/-- The longest address, in bytes. -/
def maxLength : Nat := 65534

/-- Reads an address that begins with `http://`. -/
def Uri.parse? (s : String) : Option Uri :=
  match s.toList with
  | 'h' :: 't' :: 't' :: 'p' :: ':' :: '/' :: '/' :: rest =>
    let authority := rest.takeWhile (!endsAuthority ·)
    let path := (rest.dropWhile (!endsAuthority ·)).takeWhile (· ≠ '#')
    if s.utf8ByteSize ≤ maxLength && isAuthority authority && isPathAndQuery path then
      some ⟨authority, path⟩
    else none
  | _ => none

end EmuControl.Network
