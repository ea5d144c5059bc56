import Arithmancy.Toml.Atom

/-!
# Reading documents

A document is a sequence of lines: blank lines, comments, headers that open a table,
and keys with their values. A reader takes the characters that are left and gives what
it read and the characters after it, or nothing if the document is malformed.

A document cannot be nested without bound: `maxDepth` limits how many brackets may be
open around a value, and how many parts a key may have. Values are read by recursion on
the brackets that may still be opened.
-/

namespace Arithmancy

namespace Toml

/-- What a reader gives: something read, and the characters after it. -/
abbrev Read (β : Type) := Option (β × List Char)

/-! ## Blanks, comments and line ends -/

/-- Whether a character may not occur in texts and comments. -/
def isControl (c : Char) : Bool := (c.toNat < 0x20 && c ≠ '\t') || c.toNat = 0x7F

/-- Skips blanks within a line. -/
def skipBlanks (cs : List Char) : List Char := cs.dropWhile fun c => c = ' ' || c = '\t'

/-- Skips a comment, if there is one, up to the end of its line. -/
def skipComment : List Char → List Char
  | '#' :: cs => cs.dropWhile fun c => !(isControl c)
  | cs => cs

/-- Takes a line end, if there is one. -/
def lineEnd? : List Char → Option (List Char)
  | '\n' :: cs => some cs
  | '\r' :: '\n' :: cs => some cs
  | _ => none

/-- The end of a line after a header or a value: blanks, a comment, and the line end or
the end of the document. -/
def endOfLine? (cs : List Char) : Option (List Char) :=
  match skipComment (skipBlanks cs) with
  | [] => some []
  | cs => lineEnd? cs

/-- Skips blanks, comments and line ends; `fuel` bounds their number. -/
def skipLines : Nat → List Char → List Char
  | 0, cs => cs
  | fuel + 1, cs =>
    let cs := skipComment (skipBlanks cs)
    match lineEnd? cs with
    | some cs => skipLines fuel cs
    | none => cs

/-! ## Texts -/

/-- The character with a code given by hexadecimal digits. -/
def scalar? (ds : List Char) : Option Char :=
  let n := baseValue 16 ds
  if ds.all isHexDigit && (n < 0xD800 || (0xDFFF < n && n < 0x110000)) then some (Char.ofNat n)
  else none

/-- The character with a code of the given number of digits. -/
def coded? (count : Nat) (cs : List Char) : Read Char :=
  if (cs.take count).length = count then
    (scalar? (cs.take count)).map fun c => (c, cs.drop count)
  else none

/-- The character that an escape stands for. -/
def escape? : List Char → Read Char
  | 'b' :: cs => some ('\x08', cs)
  | 't' :: cs => some ('\t', cs)
  | 'n' :: cs => some ('\n', cs)
  | 'f' :: cs => some ('\x0c', cs)
  | 'r' :: cs => some ('\r', cs)
  | '"' :: cs => some ('"', cs)
  | '\\' :: cs => some ('\\', cs)
  | 'e' :: cs => some ('\x1b', cs)
  | 'x' :: cs => coded? 2 cs
  | 'u' :: cs => coded? 4 cs
  | 'U' :: cs => coded? 8 cs
  | _ => none

/-- The rest of a text in double quotes, where `acc` holds its characters so far, the
last one first; `fuel` bounds its length. -/
def basicText? : Nat → List Char → List Char → Read String
  | 0, _, _ => none
  | fuel + 1, acc, cs =>
    match cs with
    | [] => none
    | '"' :: cs => some (String.ofList acc.reverse, cs)
    | '\\' :: cs =>
      match escape? cs with
      | some (c, cs) => basicText? fuel (c :: acc) cs
      | none => none
    | c :: cs => if isControl c then none else basicText? fuel (c :: acc) cs

/-- The rest of a text in single quotes. -/
def literalText? (cs : List Char) : Read String :=
  let inside (c : Char) : Bool := c ≠ '\'' && !(isControl c)
  match cs.dropWhile inside with
  | '\'' :: rest => some (String.ofList (cs.takeWhile inside), rest)
  | _ => none

/-- Three quotes end a text of several lines. Up to two quotes right before them belong to
it, and no quote can follow. -/
def closingQuotes? (quote : Char) (cs : List Char) : Option (List Char × List Char) :=
  let run := (cs.takeWhile (· = quote)).take 5
  if 3 ≤ run.length then some (run.drop 3, cs.drop run.length) else none

/-- Skips a line end at the very start of a text of several lines. -/
def skipFirstLineEnd (cs : List Char) : List Char := (lineEnd? cs).getD cs

/-- Skips blanks and line ends. -/
def skipWhite : List Char → List Char
  | ' ' :: cs => skipWhite cs
  | '\t' :: cs => skipWhite cs
  | '\n' :: cs => skipWhite cs
  | '\r' :: '\n' :: cs => skipWhite cs
  | cs => cs

/-- The rest of a text of several lines in double quotes. A backslash at the end of a
line swallows everything up to the next character that is not blank. -/
def longBasicText? : Nat → List Char → List Char → Read String
  | 0, _, _ => none
  | fuel + 1, acc, cs =>
    match closingQuotes? '"' cs with
    | some (quotes, rest) => some (String.ofList (acc.reverse ++ quotes), rest)
    | none =>
      match cs with
      | [] => none
      | '\r' :: '\n' :: cs => longBasicText? fuel ('\n' :: acc) cs
      | '\n' :: cs => longBasicText? fuel ('\n' :: acc) cs
      | '\\' :: cs =>
        if (lineEnd? (skipBlanks cs)).isSome then longBasicText? fuel acc (skipWhite cs)
        else
          match escape? cs with
          | some (c, cs) => longBasicText? fuel (c :: acc) cs
          | none => none
      | c :: cs => if isControl c then none else longBasicText? fuel (c :: acc) cs

/-- The rest of a text of several lines in single quotes. -/
def longLiteralText? : Nat → List Char → List Char → Read String
  | 0, _, _ => none
  | fuel + 1, acc, cs =>
    match closingQuotes? '\'' cs with
    | some (quotes, rest) => some (String.ofList (acc.reverse ++ quotes), rest)
    | none =>
      match cs with
      | [] => none
      | '\r' :: '\n' :: cs => longLiteralText? fuel ('\n' :: acc) cs
      | '\n' :: cs => longLiteralText? fuel ('\n' :: acc) cs
      | c :: cs => if isControl c then none else longLiteralText? fuel (c :: acc) cs

/-- A text in any of its four forms, if there is one. -/
def text? (cs : List Char) : Read String :=
  match cs with
  | '"' :: '"' :: '"' :: cs => longBasicText? (cs.length + 1) [] (skipFirstLineEnd cs)
  | '\'' :: '\'' :: '\'' :: cs => longLiteralText? (cs.length + 1) [] (skipFirstLineEnd cs)
  | '"' :: cs => basicText? (cs.length + 1) [] cs
  | '\'' :: cs => literalText? cs
  | _ => none

/-- How deep a document may be nested: the brackets open around a value, and the parts of
a key. -/
def maxDepth : Nat := 80

/-! ## Keys -/

/-- Whether a character can stand in a key without quotes. -/
def isKeyChar (c : Char) : Bool := c.isAlphanum || c = '-' || c = '_'

/-- One part of a key: a text on one line, or characters that need no quotes. -/
def simpleKey? (cs : List Char) : Read String :=
  match cs with
  | '"' :: cs => basicText? (cs.length + 1) [] cs
  | '\'' :: cs => literalText? cs
  | _ =>
    let key := cs.takeWhile isKeyChar
    if key = [] then none else some (String.ofList key, cs.dropWhile isKeyChar)

/-- A key of at most `depth` parts joined by points, with blanks around them. The parts
before the last are the path to it. -/
def key? : Nat → List Char → Read (List String × String)
  | 0, _ => none
  | depth + 1, cs =>
    match simpleKey? (skipBlanks cs) with
    | none => none
    | some (part, cs) =>
      match skipBlanks cs with
      | '.' :: cs =>
        match key? depth cs with
        | some ((path, last), cs) => some ((part :: path, last), cs)
        | none => none
      | cs => some (([], part), cs)

/-! ## Values -/

/-- A value without brackets. -/
def plainValue? (cs : List Char) : Read Value :=
  match text? cs with
  | some (s, cs) => some (.text s, cs)
  | none =>
    let (first, rest) := splitAtom cs
    (atom? first).map fun v => (v, rest)

/-- The rest of an array with members that `member?` reads, where `acc` holds those so far,
the last one first; `fuel` bounds how many characters are left. -/
def members? (member? : List Char → Read Value) : Nat → List Value → List Char → Read Value
  | 0, _, _ => none
  | fuel + 1, acc, cs =>
    match cs with
    | ']' :: cs => some (.array acc.reverse, cs)
    | _ =>
      match member? cs with
      | none => none
      | some (v, cs) =>
        match skipLines fuel cs with
        | ',' :: cs => members? member? fuel (v :: acc) (skipLines fuel cs)
        | ']' :: cs => some (.array (v :: acc).reverse, cs)
        | _ => none

/-- The rest of a table in braces with values that `member?` reads, where `acc` holds its
entries so far; `fuel` bounds how many characters are left. Lines may end around a key
and around its value, but not within a dotted key. -/
def entries? (member? : List Char → Read Value) : Nat → Entries → List Char → Read Value
  | 0, _, _ => none
  | fuel + 1, acc, cs =>
    match cs with
    | '}' :: cs => some (.table .braces acc, cs)
    | _ =>
      match key? maxDepth cs with
      | none => none
      | some ((path, key), cs) =>
        match skipLines fuel cs with
        | '=' :: cs =>
          match member? (skipLines fuel cs) with
          | none => none
          | some (v, cs) =>
            match Entries.assign path key v acc with
            | none => none
            | some acc =>
              match skipLines fuel cs with
              | ',' :: cs => entries? member? fuel acc (skipLines fuel cs)
              | '}' :: cs => some (.table .braces acc, cs)
              | _ => none
        | _ => none

/-- A value in which at most `depth` brackets are open at once. -/
def value? : Nat → List Char → Read Value
  | 0, cs => plainValue? cs
  | depth + 1, cs =>
    match cs with
    | '[' :: cs => members? (value? depth) (cs.length + 1) [] (skipLines cs.length cs)
    | '{' :: cs => entries? (value? depth) (cs.length + 1) [] (skipLines cs.length cs)
    | _ => plainValue? cs

/-! ## Documents -/

/-- What has been read of a document: its entries, and the header in force. -/
structure Draft where
  /-- The entries so far. -/
  entries : Entries
  /-- The path of the latest header. -/
  header : List String

/-- A header, opened with one bracket or with two. -/
def header? (d : Draft) : List Char → Read Draft
  | '[' :: cs =>
    match key? maxDepth cs with
    | some ((path, key), ']' :: ']' :: cs) =>
      (d.entries.openMember path key).map fun es => (⟨es, path ++ [key]⟩, cs)
    | _ => none
  | cs =>
    match key? maxDepth cs with
    | some ((path, key), ']' :: cs) =>
      (d.entries.openTable path key).map fun es => (⟨es, path ++ [key]⟩, cs)
    | _ => none

/-- A key and its value. -/
def assignment? (d : Draft) (cs : List Char) : Read Draft :=
  match key? maxDepth cs with
  | some ((path, key), '=' :: cs) =>
    match value? maxDepth (skipBlanks cs) with
    | some (v, cs) =>
      (d.entries.assignUnder d.header path key v).map fun es => ({ d with entries := es }, cs)
    | none => none
  | _ => none

/-- The rest of a document; `fuel` bounds how many characters are left. -/
def statements? : Nat → Draft → List Char → Option Entries
  | 0, _, _ => none
  | fuel + 1, d, cs =>
    match skipLines fuel cs with
    | [] => some d.entries
    | c :: cs =>
      let read := if c = '[' then header? d cs else assignment? d (c :: cs)
      match read with
      | none => none
      | some (d, cs) =>
        match endOfLine? cs with
        | none => none
        | some cs => statements? fuel d cs

/-- The characters of a document without a byte order mark in front. -/
def withoutMark : List Char → List Char
  | c :: cs => if c.toNat = 0xFEFF then cs else c :: cs
  | [] => []

/-- **Reads a document**, if it is well formed. -/
def read? (s : String) : Option Entries :=
  let cs := withoutMark s.toList
  statements? (cs.length + 1) ⟨[], []⟩ cs

end Toml

end Arithmancy
