import EmuControl.Toml.Scalar

/-!
# Strings in TOML

A string stands in single or double quotes, or in three of them, and then it may have several lines.
Double quotes allow escapes. Only tabs, and line ends in strings of several lines, may stand there
as control characters.
-/
namespace EmuControl.Toml

/-- Control characters that no string may hold as they are. -/
def isForbidden (c : Char) : Bool :=
  (c.toNat < 0x20 && c != '\t') || c.toNat = 0x7F

/-- A character given by a number of hexadecimal digits. -/
def codePoint? (count : Nat) (cs : List Char) : Option (Char × List Char) := do
  let digits := cs.take count
  if digits.length = count then
    let n ← Text.readHex? digits
    if h : n.isValidChar then some (Char.ofNatAux n h, cs.drop count) else none
  else none

/-- The character of the escape that begins with a character, and the rest. -/
def escape? (c : Char) (rest : List Char) : Option (Char × List Char) :=
  match c with
  | 'b' => some ('\x08', rest)
  | 't' => some ('\t', rest)
  | 'n' => some ('\n', rest)
  | 'f' => some ('\x0c', rest)
  | 'r' => some ('\r', rest)
  | 'e' => some ('\x1b', rest)
  | '"' => some ('"', rest)
  | '\\' => some ('\\', rest)
  | 'x' => codePoint? 2 rest
  | 'u' => codePoint? 4 rest
  | 'U' => codePoint? 8 rest
  | _ => none

/-- The rest of a string in double quotes. `before` holds what was read so far, last one first. -/
def basicString : (fuel : Nat) → (before : List Char) → List Char → Option (String × List Char)
  | 0, _, _ => none
  | _ + 1, _, [] => none
  | _ + 1, before, '"' :: rest => some (String.ofList before.reverse, rest)
  | _ + 1, _, ['\\'] => none
  | fuel + 1, before, '\\' :: c :: rest =>
    match escape? c rest with
    | none => none
    | some (c, rest) => basicString fuel (c :: before) rest
  | fuel + 1, before, c :: rest =>
    if isForbidden c then none else basicString fuel (c :: before) rest

/-- The rest of a string in single quotes. -/
def literalString (cs : List Char) : Option (String × List Char) :=
  match cs.span (· != '\'') with
  | (_, []) => none
  | (body, _ :: rest) => if body.any isForbidden then none else some (String.ofList body, rest)

/-- Whether a character may stand between a backslash and the end of its line. -/
def isIndent (c : Char) : Bool := c = ' ' || c = '\t'

/-- Without the blanks and line ends at the head. -/
def skipBlankLines : List Char → List Char
  | '\r' :: '\n' :: rest => skipBlankLines rest
  | c :: rest => if isIndent c || c = '\n' then skipBlankLines rest else c :: rest
  | [] => []

/-- What follows a backslash that ends its line: all up to the next character that is no blank. -/
def joinedLine? (cs : List Char) : Option (List Char) :=
  match cs.dropWhile isIndent with
  | '\n' :: rest => some (skipBlankLines rest)
  | '\r' :: '\n' :: rest => some (skipBlankLines rest)
  | _ => none

/-- Closing quotes: three of them end the string, and up to two more before these belong to it. -/
def closing? (q : Char) (cs : List Char) : Option (Nat × List Char) :=
  let run := (cs.takeWhile (· == q)).length
  if 3 ≤ run && run ≤ 5 then some (run - 3, cs.drop run) else none

/-- The rest of a string of several lines. `escapes` says whether the quotes are double ones. -/
def multilineString (q : Char) (escapes : Bool) :
    (fuel : Nat) → (before : List Char) → List Char → Option (String × List Char)
  | 0, _, _ => none
  | _ + 1, _, [] => none
  | fuel + 1, before, c :: rest =>
    if c = q then
      match closing? q (c :: rest) with
      | some (extra, rest) =>
        some (String.ofList (before.reverse ++ List.replicate extra q), rest)
      | none =>
        if 6 ≤ ((c :: rest).takeWhile (· == q)).length then none
        else multilineString q escapes fuel (c :: before) rest
    else if escapes && c = '\\' then
      match joinedLine? rest with
      | some rest => multilineString q escapes fuel before rest
      | none =>
        match rest with
        | [] => none
        | e :: rest =>
          match escape? e rest with
          | none => none
          | some (c, rest) => multilineString q escapes fuel (c :: before) rest
    else if c = '\n' then multilineString q escapes fuel (c :: before) rest
    else if c = '\r' then
      if rest.head? = some '\n' then multilineString q escapes fuel (c :: before) rest else none
    else if isForbidden c then none
    else multilineString q escapes fuel (c :: before) rest

/-- Without the line end that may follow the opening quotes. -/
def skipFirstLineEnd : List Char → List Char
  | '\n' :: rest => rest
  | '\r' :: '\n' :: rest => rest
  | cs => cs

/-- The string at the head of the input, and the rest. -/
def string? : List Char → Option (String × List Char)
  | '"' :: '"' :: '"' :: rest =>
    multilineString '"' true (rest.length + 1) [] (skipFirstLineEnd rest)
  | '"' :: rest => basicString (rest.length + 1) [] rest
  | '\'' :: '\'' :: '\'' :: rest =>
    multilineString '\'' false (rest.length + 1) [] (skipFirstLineEnd rest)
  | '\'' :: rest => literalString rest
  | _ => none

/-- A string on a single line. -/
def lineString? : List Char → Option (String × List Char)
  | '"' :: rest => basicString (rest.length + 1) [] rest
  | '\'' :: rest => literalString rest
  | _ => none

end EmuControl.Toml
