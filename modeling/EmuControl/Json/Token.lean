import EmuControl.Json.Numeral
import EmuControl.Number.Integer
import EmuControl.Text.Hex

/-!
# Tokens of JSON

The lexical elements of RFC 8259: punctuation, three words, numbers and strings, between any blanks.
A string with a surrogate that stands alone is well formed and no text.
-/
namespace EmuControl.Json

open EmuControl.Number

inductive Token where
  | beginList
  | endList
  | beginTable
  | endTable
  | colon
  | comma
  | null
  | bool (b : Bool)
  | number (n : Numeral)
  | text (s : Option String)
  deriving Repr

/-- Space, tab, line feed, carriage return. -/
def isSpace (c : Char) : Bool :=
  c = ' ' || c = '\t' || c = '\n' || c = '\r'

/-- The digits at the head of the input, by their values, and the rest. -/
def takeDigitRun : List Char → List Nat × List Char
  | [] => ([], [])
  | c :: rest =>
    match digitValue? c with
    | none => ([], c :: rest)
    | some d =>
      let (ds, rest) := takeDigitRun rest
      (d :: ds, rest)

/-- A zero alone, or digits that do not begin with a zero. -/
def lexWhole (cs : List Char) : Option (List Nat × List Char) :=
  match takeDigitRun cs with
  | ([], _) => none
  | ([0], rest) => some ([0], rest)
  | (0 :: _, _) => none
  | (ds, rest) => some (ds, rest)

/-- A point with digits behind it, if a point comes next. -/
def lexFraction : List Char → Option (Option (List Nat) × List Char)
  | '.' :: rest =>
    match takeDigitRun rest with
    | ([], _) => none
    | (ds, rest) => some (some ds, rest)
  | cs => some (none, cs)

/-- The sign and digits of an exponent. -/
def lexSignedDigits (cs : List Char) : Option ((Bool × List Nat) × List Char) :=
  let (negative, cs) := match cs with
    | '+' :: rest => (false, rest)
    | '-' :: rest => (true, rest)
    | cs => (false, cs)
  match takeDigitRun cs with
  | ([], _) => none
  | (ds, rest) => some ((negative, ds), rest)

/-- An exponent, if its mark comes next. -/
def lexExponent : List Char → Option (Option (Bool × List Nat) × List Char)
  | 'e' :: rest => (lexSignedDigits rest).map fun (e, rest) => (some e, rest)
  | 'E' :: rest => (lexSignedDigits rest).map fun (e, rest) => (some e, rest)
  | cs => some (none, cs)

/-- A number behind its sign. -/
def lexNumber (negative : Bool) (cs : List Char) : Option (Numeral × List Char) := do
  let (whole, cs) ← lexWhole cs
  let (fraction, cs) ← lexFraction cs
  let (exponent, cs) ← lexExponent cs
  some ({ negative, whole, fraction, exponent }, cs)

/-- Four hexadecimal digits. -/
def lexUnit : List Char → Option (Nat × List Char)
  | a :: b :: c :: d :: rest => (Text.readHex? [a, b, c, d]).map fun n => (n, rest)
  | _ => none

/-- The character of a short escape. -/
def shortEscape? : Char → Option Char
  | '"' => some '"'
  | '\\' => some '\\'
  | '/' => some '/'
  | 'b' => some '\x08'
  | 'f' => some '\x0c'
  | 'n' => some '\n'
  | 'r' => some '\r'
  | 't' => some '\t'
  | _ => none

def isHighSurrogate (n : Nat) : Bool := 0xD800 ≤ n && n < 0xDC00

def isLowSurrogate (n : Nat) : Bool := 0xDC00 ≤ n && n < 0xE000

/-- The second half of a surrogate pair, if it comes next. -/
def lexLowSurrogate : List Char → Option (Nat × List Char)
  | '\\' :: 'u' :: rest =>
    match lexUnit rest with
    | some (low, rest) => if isLowSurrogate low then some (low, rest) else none
    | none => none
  | _ => none

/-- One character of a string and the rest, at the head of the input; the character is `none` if it
is a surrogate that stands alone. -/
def lexStringChar : List Char → Option (Option Char × List Char)
  | '\\' :: 'u' :: rest => do
    let (unit, rest) ← lexUnit rest
    if isHighSurrogate unit then
      match lexLowSurrogate rest with
      | some (low, rest) =>
        some (some (Char.ofNat (0x10000 + (unit - 0xD800) * 0x400 + (low - 0xDC00))), rest)
      | none => some (none, rest)
    else if isLowSurrogate unit then some (none, rest)
    else some (some (Char.ofNat unit), rest)
  | '\\' :: c :: rest => (shortEscape? c).map fun c => (some c, rest)
  | c :: rest => if c.toNat < 0x20 || c = '\\' then none else some (some c, rest)
  | [] => none

/-- The rest of a string. `before` holds the characters read so far, last one first. -/
def lexString : (fuel : Nat) → (before : Option (List Char)) → List Char →
    Option (Option String × List Char)
  | 0, _, _ => none
  | _ + 1, before, '"' :: rest => some (before.map fun cs => String.ofList cs.reverse, rest)
  | fuel + 1, before, cs =>
    match lexStringChar cs with
    | none => none
    | some (c, rest) => lexString fuel (before.bind fun before => c.map (· :: before)) rest

/-- A word at the head of the input. -/
def lexWord (word : String) (cs : List Char) : Option (List Char) :=
  if word.toList.isPrefixOf cs then some (cs.drop word.length) else none

/-- The token that begins with a character. -/
def lexToken (c : Char) (rest : List Char) : Option (Token × List Char) :=
  match c with
  | '[' => some (.beginList, rest)
  | ']' => some (.endList, rest)
  | '\x7b' => some (.beginTable, rest)
  | '\x7d' => some (.endTable, rest)
  | ':' => some (.colon, rest)
  | ',' => some (.comma, rest)
  | 'n' => (lexWord "ull" rest).map fun rest => (.null, rest)
  | 't' => (lexWord "rue" rest).map fun rest => (.bool true, rest)
  | 'f' => (lexWord "alse" rest).map fun rest => (.bool false, rest)
  | '"' => (lexString (rest.length + 1) (some []) rest).map fun (s, rest) => (.text s, rest)
  | '-' => (lexNumber true rest).map fun (n, rest) => (.number n, rest)
  | c => (lexNumber false (c :: rest)).map fun (n, rest) => (.number n, rest)

/-- Reads tokens to the end of the input. `before` holds those read so far, last one first. -/
def lexFrom : (fuel : Nat) → (before : List Token) → List Char → Option (List Token)
  | _, before, [] => some before.reverse
  | 0, _, _ => none
  | fuel + 1, before, c :: rest =>
    if isSpace c then lexFrom fuel before rest
    else match lexToken c rest with
      | none => none
      | some (t, rest) => lexFrom fuel (t :: before) rest

def tokens? (s : String) : Option (List Token) :=
  lexFrom s.length [] s.toList

end EmuControl.Json
