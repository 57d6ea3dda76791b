import RwxScene.Decimal.Numeral
import RwxScene.Toml.Document

/-!
# Reading TOML

`read?` reads a document, or refuses it as a whole: any fault of spelling, a key that is given
twice, a table that is extended where it may not be, or arrays and tables that are nested too deep.

Every reader below takes characters from the front of a text and hands out what follows them.
-/

namespace RwxScene.Toml

open Decimal (digitValue ofDigits spanDigits)

/-- Keys with so many parts, and values nested so deep, are refused. -/
def nestingLimit : Nat := 80

/-! ### Characters -/

/-- Blanks within a line. -/
def isSpace (c : Char) : Bool := c = ' ' || c = '\t'

def skipSpace (cs : List Char) : List Char := cs.dropWhile isSpace

/-- What may stand in a comment, and between single quotes but for the quote itself: everything but
controls, of which only the tabulator may. -/
def isPlain (c : Char) : Bool := c = '\t' || (0x20 ≤ c.toNat && c.toNat ≠ 0x7f)

/-- The text behind a line feed, or behind a carriage return with a line feed. -/
def newline? : List Char → Option (List Char)
  | '\n' :: rest => some rest
  | '\r' :: '\n' :: rest => some rest
  | _ => none

/-- The text behind a comment, if there is one. -/
def skipComment (cs : List Char) : List Char :=
  match cs with
  | '#' :: rest => rest.dropWhile isPlain
  | _ => cs

/-- The text behind the end of a line, in front of which blanks and a comment may stand. -/
def lineEnd? (cs : List Char) : Option (List Char) :=
  let rest := skipComment (skipSpace cs)
  if rest.isEmpty then some [] else newline? rest

/-- The text behind blanks, comments and ends of lines. -/
def skipLines : Nat → List Char → List Char
  | 0, cs => cs
  | fuel + 1, cs =>
    let rest := skipSpace cs
    match rest with
    | '#' :: _ => skipLines fuel (skipComment rest)
    | _ =>
      match newline? rest with
      | some rest => skipLines fuel rest
      | none => rest

/-! ### Texts -/

/-- The value of a digit in base sixteen. -/
def hexValue? (c : Char) : Option Nat :=
  if c.isDigit then some (digitValue c)
  else if 'a' ≤ c ∧ c ≤ 'f' then some (c.toNat - 87)
  else if 'A' ≤ c ∧ c ≤ 'F' then some (c.toNat - 55)
  else none

/-- The character with a number of so many digits in base sixteen. -/
def codePoint? (digits : Nat) (cs : List Char) : Option (Char × List Char) := do
  let ds := cs.take digits
  if ds.length < digits then none
  let n ← ds.foldlM (fun n d ↦ (hexValue? d).map (16 * n + ·)) 0
  if n < 0xd800 ∨ (0xe000 ≤ n ∧ n < 0x110000) then some (Char.ofNat n, cs.drop digits) else none

/-- The character that an escape stands for, from behind the backslash on. -/
def escape? : List Char → Option (Char × List Char)
  | 'b' :: rest => some (Char.ofNat 8, rest)
  | 't' :: rest => some ('\t', rest)
  | 'n' :: rest => some ('\n', rest)
  | 'f' :: rest => some (Char.ofNat 12, rest)
  | 'r' :: rest => some ('\r', rest)
  | '"' :: rest => some ('"', rest)
  | '\\' :: rest => some ('\\', rest)
  | 'u' :: rest => codePoint? 4 rest
  | 'U' :: rest => codePoint? 8 rest
  | _ => none

/-- A text between double quotes, from behind the first one on. -/
def basic? : Nat → List Char → List Char → Option (String × List Char)
  | 0, _, _ => none
  | fuel + 1, done, cs =>
    match cs with
    | '"' :: rest => some (String.ofList done.reverse, rest)
    | '\\' :: rest =>
      match escape? rest with
      | some (c, rest) => basic? fuel (c :: done) rest
      | none => none
    | c :: rest => if isPlain c then basic? fuel (c :: done) rest else none
    | [] => none

/-- A text between single quotes, from behind the first one on. -/
def literal? (cs : List Char) : Option (String × List Char) :=
  let body := cs.takeWhile fun c ↦ isPlain c && c ≠ '\''
  match cs.drop body.length with
  | '\'' :: rest => some (String.ofList body, rest)
  | _ => none

/-- The number of quotes that end a text over several lines: three close it, and up to two in front
of them belong to it. -/
def closing (quote : Char) (cs : List Char) : Nat :=
  min 5 (cs.takeWhile (· = quote)).length

/-- The text behind blanks and ends of lines. -/
def skipEmptyLines : Nat → List Char → List Char
  | 0, cs => cs
  | fuel + 1, cs =>
    let rest := skipSpace cs
    match newline? rest with
    | some rest => skipEmptyLines fuel rest
    | none => rest

/-- The text behind a backslash at the end of a line, from behind the backslash on, without the
blanks and ends of lines that follow. -/
def continued? (cs : List Char) : Option (List Char) :=
  (newline? (skipSpace cs)).map fun rest ↦ skipEmptyLines (rest.length + 1) rest

/-- A text over several lines, from behind the opening quotes on. Escapes stand between double
quotes only. -/
def multiline? (quote : Char) : Nat → List Char → List Char → Option (String × List Char)
  | 0, _, _ => none
  | fuel + 1, done, cs =>
    match newline? cs with
    | some rest => multiline? quote fuel ('\n' :: done) rest
    | none =>
      match cs with
      | [] => none
      | c :: rest =>
        if c = quote then
          let n := closing quote cs
          if n < 3 then multiline? quote fuel (c :: done) rest
          else
            some (String.ofList (done.reverse ++ List.replicate (n - 3) quote), cs.drop n)
        else if c = '\\' ∧ quote = '"' then
          match continued? rest with
          | some rest => multiline? quote fuel done rest
          | none =>
            match escape? rest with
            | some (c, rest) => multiline? quote fuel (c :: done) rest
            | none => none
        else if isPlain c then multiline? quote fuel (c :: done) rest
        else none

/-- A text over several lines does not begin with the end of the first one. -/
def openMultiline? (quote : Char) (cs : List Char) : Option (String × List Char) :=
  multiline? quote (cs.length + 1) [] ((newline? cs).getD cs)

/-- A text that begins here. -/
def text? : List Char → Option (String × List Char)
  | '"' :: '"' :: '"' :: rest => openMultiline? '"' rest
  | '\'' :: '\'' :: '\'' :: rest => openMultiline? '\'' rest
  | '"' :: rest => basic? (rest.length + 1) [] rest
  | '\'' :: rest => literal? rest
  | _ => none

/-! ### Keys -/

/-- What a key may be made of without quotes. -/
def isBare (c : Char) : Bool := c.isAlphanum || c = '_' || c = '-'

/-- A part of a key. -/
def keyPart? (cs : List Char) : Option (String × List Char) :=
  match cs with
  | '"' :: rest => basic? (rest.length + 1) [] rest
  | '\'' :: rest => literal? rest
  | _ =>
    let part := cs.takeWhile isBare
    if part.isEmpty then none else some (String.ofList part, cs.drop part.length)

/-- The parts of a key, with blanks around each. -/
def keyParts? : Nat → List Char → Option (List String × List Char)
  | 0, _ => none
  | fuel + 1, cs => do
    let (part, rest) ← keyPart? (skipSpace cs)
    match skipSpace rest with
    | '.' :: rest =>
      let (parts, rest) ← keyParts? fuel rest
      return (part :: parts, rest)
    | rest => return ([part], rest)

/-- A key. -/
def key? (cs : List Char) : Option (Key × List Char) := do
  let (parts, rest) ← keyParts? (cs.length + 1) cs
  if nestingLimit ≤ parts.length then none
  else return (⟨parts.dropLast, ← parts.getLast?⟩, rest)

/-! ### Dates and times -/

/-- A number of exactly so many digits. -/
def digits? (n : Nat) (cs : List Char) : Option (Nat × List Char) :=
  let ds := cs.take n
  if ds.length = n ∧ ds.all Char.isDigit then some (ofDigits ds, cs.drop n) else none

/-- A number of two digits, up to `greatest`. -/
def twoDigits? (greatest : Nat) (cs : List Char) : Option (Nat × List Char) := do
  let (n, rest) ← digits? 2 cs
  if n ≤ greatest then some (n, rest) else none

/-- The text behind a certain character. -/
def char? (c : Char) (cs : List Char) : Option (List Char) :=
  match cs with
  | d :: rest => if d = c then some rest else none
  | [] => none

def daysInMonth (year month : Nat) : Nat :=
  if month = 2 then
    if year % 4 = 0 ∧ (year % 100 ≠ 0 ∨ year % 400 = 0) then 29 else 28
  else if month = 4 ∨ month = 6 ∨ month = 9 ∨ month = 11 then 30
  else 31

/-- The text behind a date. -/
def date? (cs : List Char) : Option (List Char) := do
  let (year, rest) ← digits? 4 cs
  let rest ← char? '-' rest
  let (month, rest) ← twoDigits? 12 rest
  let rest ← char? '-' rest
  let (day, rest) ← digits? 2 rest
  if 1 ≤ month ∧ 1 ≤ day ∧ day ≤ daysInMonth year month then some rest else none

/-- The text behind a time of day. -/
def time? (cs : List Char) : Option (List Char) := do
  let (_, rest) ← twoDigits? 23 cs
  let rest ← char? ':' rest
  let (_, rest) ← twoDigits? 59 rest
  let rest ← char? ':' rest
  let (_, rest) ← twoDigits? 60 rest
  match rest with
  | '.' :: fraction =>
    let (ds, after) := spanDigits fraction
    return if ds.isEmpty then rest else after
  | _ => return rest

/-- The text behind the difference from universal time. -/
def offset? (cs : List Char) : Option (List Char) :=
  match cs with
  | 'Z' :: rest | 'z' :: rest => some rest
  | '+' :: rest | '-' :: rest => do
    let (_, rest) ← twoDigits? 23 rest
    let rest ← char? ':' rest
    let (_, rest) ← twoDigits? 59 rest
    return rest
  | _ => none

/-- The text behind the time of day that may follow a date. -/
def timeAfterDate (cs : List Char) : List Char :=
  match cs with
  | 'T' :: rest | 't' :: rest | ' ' :: rest =>
    match time? rest with
    | some rest => (offset? rest).getD rest
    | none => cs
  | _ => cs

/-- The text behind a date, a time or both. -/
def moment? (cs : List Char) : Option (List Char) :=
  match date? cs with
  | some rest => some (timeAfterDate rest)
  | none => time? cs

/-! ### Numbers -/

/-- Digits that single underscores may part, without these. -/
def grouped? (isDigit : Char → Bool) : List Char → Option (List Char × List Char)
  | [] => none
  | [c] => if isDigit c then some ([c], []) else none
  | c :: d :: rest =>
    if !isDigit c then none
    else if d = '_' then (grouped? isDigit rest).map fun (ds, rest) ↦ (c :: ds, rest)
    else if isDigit d then (grouped? isDigit (d :: rest)).map fun (ds, rest) ↦ (c :: ds, rest)
    else some ([c], d :: rest)

/-- A sign and what follows it. -/
def sign (cs : List Char) : List Char × List Char :=
  match cs with
  | '+' :: rest => (['+'], rest)
  | '-' :: rest => (['-'], rest)
  | _ => ([], cs)

/-- Decimal digits of an integer; a zero is not followed by others. -/
def whole? (cs : List Char) : Option (List Char × List Char) :=
  match cs with
  | '0' :: rest => some (['0'], rest)
  | _ => grouped? Char.isDigit cs

/-- The exponent of a number, or nothing if there is none. -/
def exponent? (cs : List Char) : Option (List Char × List Char) :=
  match cs with
  | 'e' :: rest | 'E' :: rest => do
    let (s, rest) := sign rest
    let (ds, rest) ← grouped? Char.isDigit rest
    return ('e' :: s ++ ds, rest)
  | _ => some ([], cs)

/-- The fraction of a number, or nothing if there is none. -/
def fraction? (cs : List Char) : Option (List Char × List Char) :=
  match cs with
  | '.' :: rest => do
    let (ds, rest) ← grouped? Char.isDigit rest
    return ('.' :: ds, rest)
  | _ => some ([], cs)

/-- An integer in sixty-four bits. -/
def integerItem? (n : Int) : Option Item :=
  if Int64.minValue.toInt ≤ n ∧ n ≤ Int64.maxValue.toInt then some (.integer n) else none

/-- A number as a binary64 number; one above all of them is refused. -/
def floatItem? (cs : List Char) : Option Item := do
  let x := (← Decimal.Numeral.read? cs).toDouble
  if x.isInf && 0 < x then none else some (.float x)

/-- A decimal number. -/
def decimal? (cs : List Char) : Option (Item × List Char) := do
  let (s, rest) := sign cs
  match rest with
  | 'i' :: 'n' :: 'f' :: rest =>
    return (.float (if s = ['-'] then -(1 / 0) else 1 / 0), rest)
  | 'n' :: 'a' :: 'n' :: rest => return (.float (0 / 0), rest)
  | _ =>
    let (ds, rest) ← whole? rest
    let (fraction, rest) ← fraction? rest
    let (exponent, rest) ← exponent? rest
    if fraction.isEmpty && exponent.isEmpty then
      let n : Int := ofDigits ds
      return (← integerItem? (if s = ['-'] then -n else n), rest)
    else return (← floatItem? (s ++ ds ++ fraction ++ exponent), rest)

/-- A natural number in a base up to sixteen. -/
def based? (base : Nat) (cs : List Char) : Option (Item × List Char) := do
  let (ds, rest) ← grouped? (fun c ↦ (hexValue? c).any (· < base)) cs
  let n ← ds.foldlM (fun n d ↦ (hexValue? d).map (base * n + ·)) 0
  return (← integerItem? n, rest)

/-- A number. -/
def number? : List Char → Option (Item × List Char)
  | '0' :: 'x' :: rest => based? 16 rest
  | '0' :: 'o' :: rest => based? 8 rest
  | '0' :: 'b' :: rest => based? 2 rest
  | cs => decimal? cs

/-! ### Values -/

mutual

/-- A value, inside `depth` arrays and inline tables. -/
def value? (depth : Nat) : Nat → List Char → Option (Item × List Char)
  | 0, _ => none
  | fuel + 1, cs =>
    match cs with
    | [] => none
    | c :: rest =>
      if c = '"' ∨ c = '\'' then (text? cs).map fun (s, rest) ↦ (.string s, rest)
      else if c = '[' then
        if nestingLimit ≤ depth + 1 then none else elements? (depth + 1) fuel [] rest
      else if c = '{' then
        if nestingLimit ≤ depth + 1 then none
        else
          match skipSpace rest with
          | '}' :: rest => some (.table .inline [], rest)
          | rest => inline? (depth + 1) fuel [] rest
      else
        match cs with
        | 't' :: 'r' :: 'u' :: 'e' :: rest => some (.bool true, rest)
        | 'f' :: 'a' :: 'l' :: 's' :: 'e' :: rest => some (.bool false, rest)
        | _ =>
          match moment? cs with
          | some rest => some (.moment, rest)
          | none => number? cs

/-- The elements of an array after those in `done`, which are in reverse. -/
def elements? (depth : Nat) : Nat → List Item → List Char → Option (Item × List Char)
  | 0, _, _ => none
  | fuel + 1, done, cs =>
    match skipLines (cs.length + 1) cs with
    | ']' :: rest => some (.array done.reverse, rest)
    | cs =>
      match value? depth fuel cs with
      | none => none
      | some (item, rest) =>
        match skipLines (rest.length + 1) rest with
        | ']' :: rest => some (.array (item :: done).reverse, rest)
        | ',' :: rest => elements? depth fuel (item :: done) rest
        | _ => none

/-- The entries of an inline table after those in `done`. -/
def inline? (depth : Nat) : Nat → Entries → List Char → Option (Item × List Char)
  | 0, _, _ => none
  | fuel + 1, done, cs =>
    match key? cs with
    | none => none
    | some (key, rest) =>
      match skipSpace rest with
      | '=' :: rest =>
        match value? depth fuel (skipSpace rest) with
        | none => none
        | some (item, rest) =>
          match done.insert? key.path key.last item with
          | none => none
          | some done =>
            match skipSpace rest with
            | '}' :: rest => some (.table .inline done, rest)
            | ',' :: rest => inline? depth fuel done rest
            | _ => none
      | _ => none

end

/-! ### Documents -/

/-- The header of a table, or of a table in an array, from behind the first bracket on. -/
def header? : List Char → Option ((Bool × Key) × List Char)
  | '[' :: cs => do
    match ← key? cs with
    | (key, ']' :: ']' :: rest) => return ((true, key), ← lineEnd? rest)
    | _ => none
  | cs => do
    match ← key? cs with
    | (key, ']' :: rest) => return ((false, key), ← lineEnd? rest)
    | _ => none

/-- A key with its value, up to the end of the line. -/
def entry? (cs : List Char) : Option ((Key × Item) × List Char) := do
  let (key, rest) ← key? cs
  let rest ← char? '=' (skipSpace rest)
  let (item, rest) ← value? 0 (2 * rest.length + 2) (skipSpace rest)
  return ((key, item), ← lineEnd? rest)

/-- The document `root` with what follows; keys belong to the table at `current`. -/
def lines? : Nat → Entries → List String → List Char → Option Entries
  | 0, _, _, _ => none
  | fuel + 1, root, current, cs =>
    match skipSpace cs with
    | [] => some root
    | '[' :: rest => do
      let ((inArray, key), rest) ← header? rest
      let change := if inArray then Entries.openElement? key.last else Entries.openTable? key.last
      let root ← root.modify? change key.path
      lines? fuel root key.parts rest
    | cs =>
      match lineEnd? cs with
      | some rest => lines? fuel root current rest
      | none => do
        let ((key, item), rest) ← entry? cs
        let root ← root.modify? (·.insert? key.path key.last item) current
        lines? fuel root current rest

/-- Reads a document. A mark of byte order may precede it. -/
def read? (cs : List Char) : Option Entries :=
  let cs :=
    match cs with
    | c :: rest => if c.toNat = 0xfeff then rest else c :: rest
    | [] => []
  lines? (cs.length + 1) [] [] cs

end RwxScene.Toml
