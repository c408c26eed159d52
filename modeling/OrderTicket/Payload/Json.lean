import OrderTicket.Payload.Basic
import OrderTicket.Decimal.Reader

/-!
# Payloads as JSON

Reading and writing payloads as JSON text. Numbers without decimals and exponent are integers, with
no more digits than integers have in texts, all others binary floating point numbers; the words
`NaN`, `Infinity` and `-Infinity` are numbers too. Of a field that is given twice the last value
counts.

* `Payload.ofJson?`: the payload that a JSON text stands for.
* `Payload.json`: a payload as JSON text in ASCII.
-/

namespace OrderTicket.Payload

/-- Drops the blanks of JSON. -/
def skipBlanks (cs : List Char) : List Char :=
  cs.dropWhile fun c => c == ' ' || c == '\n' || c == '\r' || c == '\t'

/-- What follows a fixed text. -/
def afterWord? : List Char → List Char → Option (List Char)
  | [], rest => some rest
  | _ :: _, [] => none
  | w :: word, c :: rest => if c == w then afterWord? word rest else none

/-- The value of a hexadecimal digit. -/
def hexValue? (c : Char) : Option Nat :=
  if '0' ≤ c ∧ c ≤ '9' then some (c.toNat - 48)
  else if 'a' ≤ c ∧ c ≤ 'f' then some (c.toNat - 87)
  else if 'A' ≤ c ∧ c ≤ 'F' then some (c.toNat - 55)
  else none

/-- The unit of four hexadecimal digits. -/
def readUnit? : List Char → Option (Nat × List Char)
  | a :: b :: c :: d :: rest => do
    let a ← hexValue? a
    let b ← hexValue? b
    let c ← hexValue? c
    let d ← hexValue? d
    return (((a * 16 + b) * 16 + c) * 16 + d, rest)
  | _ => none

/-- The character of one or two units; a unit that is no character by itself becomes U+FFFD. -/
def readEscapedUnit? (cs : List Char) : Option (Char × List Char) := do
  let (high, rest) ← readUnit? cs
  if 0xD800 ≤ high ∧ high < 0xDC00 then
    match rest with
    | '\\' :: 'u' :: more =>
      let (low, more) ← readUnit? more
      if 0xDC00 ≤ low ∧ low < 0xE000 then
        return (Char.ofNat (0x10000 + (high - 0xD800) * 0x400 + (low - 0xDC00)), more)
      else return ('\ufffd', rest)
    | _ => return ('\ufffd', rest)
  else if 0xDC00 ≤ high ∧ high < 0xE000 then return ('\ufffd', rest)
  else return (Char.ofNat high, rest)

/-- The character of an escape and what follows it. -/
def readEscape? : List Char → Option (Char × List Char)
  | '"' :: rest => some ('"', rest)
  | '\\' :: rest => some ('\\', rest)
  | '/' :: rest => some ('/', rest)
  | 'b' :: rest => some ('\x08', rest)
  | 'f' :: rest => some ('\x0c', rest)
  | 'n' :: rest => some ('\n', rest)
  | 'r' :: rest => some ('\r', rest)
  | 't' :: rest => some ('\t', rest)
  | 'u' :: rest => readEscapedUnit? rest
  | _ => none

/-- The rest of a string after its opening quote; `read` holds its characters so far, last first. -/
def readString? : Nat → List Char → List Char → Option (String × List Char)
  | 0, _, _ => none
  | _ + 1, _, [] => none
  | fuel + 1, read, c :: rest =>
    if c == '"' then some (.ofList read.reverse, rest)
    else if c == '\\' then
      match readEscape? rest with
      | some (e, rest) => readString? fuel (e :: read) rest
      | none => none
    else if c.toNat < 32 then none
    else readString? fuel (c :: read) rest

/-- The leading ASCII digits, as numbers, and what follows them. -/
def readDigits (cs : List Char) : List Nat × List Char :=
  ((cs.takeWhile Char.isDigit).map (·.toNat - 48), cs.dropWhile Char.isDigit)

/-- The digits before the point: a lone zero, or digits that start with another one. -/
def readWhole? : List Char → Option (List Nat × List Char)
  | '0' :: rest => some ([0], rest)
  | cs =>
    match readDigits cs with
    | ([], _) => none
    | (ds, rest) => some (ds, rest)

/-- The digits after a point, none if no digit follows the point. -/
def readFraction : List Char → List Nat × List Char
  | '.' :: rest =>
    match readDigits rest with
    | ([], _) => ([], '.' :: rest)
    | (ds, rest) => (ds, rest)
  | cs => ([], cs)

/-- An exponent, if one follows. -/
def readExponent? : List Char → Option (Int × List Char)
  | c :: rest =>
    if c == 'e' || c == 'E' then
      let (negative, rest) := Decimal.readSign rest
      match readDigits rest with
      | ([], _) => none
      | (ds, rest) =>
        let magnitude := Digits.value ds
        some (if negative then -(magnitude : Int) else magnitude, rest)
    else none
  | [] => none

/-- A number and what follows it. -/
def readNumber? (cs : List Char) : Option (Payload × List Char) := do
  let (negative, rest) := match cs with
    | '-' :: rest => (true, rest)
    | _ => (false, cs)
  let (whole, rest) ← readWhole? rest
  let (fraction, rest) := readFraction rest
  match readExponent? rest with
  | none =>
    if fraction.isEmpty then
      guard (whole.length ≤ Integer.textLimit)
      let magnitude := Digits.value whole
      return (int (if negative then -(magnitude : Int) else magnitude), rest)
    else
      let coefficient := Digits.value (whole ++ fraction)
      return (float (Binary64.ofDecimal negative coefficient (-(fraction.length : Int))), rest)
  | some (exponent, rest) =>
    let coefficient := Digits.value (whole ++ fraction)
    return (float (Binary64.ofDecimal negative coefficient (exponent - fraction.length)), rest)

/-- A value that is written as a word, and what follows it. -/
def readWord? (cs : List Char) : Option (Payload × List Char) :=
  let word (s : String) (value : Payload) : Option (Payload × List Char) :=
    (afterWord? s.toList cs).map fun rest => (value, rest)
  (word "null" null).or <| (word "true" (bool true)).or <| (word "false" (bool false)).or <|
    (word "NaN" (float .nan)).or <| (word "Infinity" (float (.infinity false))).or <|
    word "-Infinity" (float (.infinity true))

mutual

/-- A value, at whose first character the text stands, and what follows it. -/
def readValue? : Nat → List Char → Option (Payload × List Char)
  | 0, _ => none
  | fuel + 1, cs =>
    match cs with
    | '"' :: rest => (readString? (rest.length + 1) [] rest).map fun (s, rest) => (text s, rest)
    | '[' :: rest =>
      match skipBlanks rest with
      | ']' :: rest => some (list [], rest)
      | rest => (readItems? fuel [] rest).map fun (xs, rest) => (list xs, rest)
    | '\x7b' :: rest =>
      match skipBlanks rest with
      | '\x7d' :: rest => some (object [], rest)
      | rest => (readFields? fuel [] rest).map fun (fs, rest) => (object fs, rest)
    | cs => (readWord? cs).or (readNumber? cs)

/-- The items of a list from the next one to the closing bracket; `read` holds, last first, those
before. -/
def readItems? : Nat → List Payload → List Char → Option (List Payload × List Char)
  | 0, _, _ => none
  | fuel + 1, read, cs =>
    match readValue? fuel cs with
    | none => none
    | some (x, rest) =>
      match skipBlanks rest with
      | ',' :: rest => readItems? fuel (x :: read) (skipBlanks rest)
      | ']' :: rest => some ((x :: read).reverse, rest)
      | _ => none

/-- The fields of an object from the next one to the closing brace, added to those in `read`. -/
def readFields? : Nat → List (String × Payload) → List Char →
    Option (List (String × Payload) × List Char)
  | 0, _, _ => none
  | fuel + 1, read, cs =>
    match cs with
    | '"' :: rest =>
      match readString? (rest.length + 1) [] rest with
      | none => none
      | some (name, rest) =>
        match skipBlanks rest with
        | ':' :: rest =>
          match readValue? fuel (skipBlanks rest) with
          | none => none
          | some (x, rest) =>
            match skipBlanks rest with
            | ',' :: rest => readFields? fuel (insert read name x) (skipBlanks rest)
            | '\x7d' :: rest => some (insert read name x, rest)
            | _ => none
        | _ => none
    | _ => none

end

/-- The payload that a JSON text stands for. Every step of the reader takes at least one character,
so twice the length of the text bounds the steps. -/
def ofJson? (s : String) : Option Payload :=
  let cs := skipBlanks s.toList
  match readValue? (2 * cs.length + 1) cs with
  | some (x, rest) => if (skipBlanks rest).isEmpty then some x else none
  | none => none

/-- A sixteen-bit unit as an escape. -/
def unitEscape (code : Nat) : List Char :=
  '\\' :: 'u' :: Text.hexDigits 4 code

/-- One character inside a JSON string in ASCII. -/
def jsonChar (c : Char) : List Char :=
  if c == '"' || c == '\\' then ['\\', c]
  else if 32 ≤ c.toNat && c.toNat < 127 then [c]
  else if c.toNat < 0x10000 then unitEscape c.toNat
  else
    let offset := c.toNat - 0x10000
    unitEscape (0xD800 + offset / 0x400) ++ unitEscape (0xDC00 + offset % 0x400)

/-- A text as a JSON string. -/
def jsonString (s : String) : String :=
  .ofList ('"' :: s.toList.flatMap jsonChar ++ ['"'])

mutual

/-- A payload as JSON text. It has none if an integer in it has none. -/
def json : Payload → Except Decimal.Fault String
  | null => .ok "null"
  | bool b => .ok (if b then "true" else "false")
  | int i => Integer.text i
  | float (.finite n s e) => .ok (Binary64.finite n s e).text
  | float (.infinity n) => .ok (if n then "-Infinity" else "Infinity")
  | float .nan => .ok "NaN"
  | text s => .ok (jsonString s)
  | list xs => return "[" ++ ",".intercalate (← jsonItems xs) ++ "]"
  | object fs => return "\x7b" ++ ",".intercalate (← jsonFields fs) ++ "\x7d"

/-- The JSON texts of the items of a list. -/
def jsonItems : List Payload → Except Decimal.Fault (List String)
  | [] => .ok []
  | x :: xs => return (← x.json) :: (← jsonItems xs)

/-- The JSON texts of the fields of an object. -/
def jsonFields : List (String × Payload) → Except Decimal.Fault (List String)
  | [] => .ok []
  | (name, x) :: fs => return (jsonString name ++ ":" ++ (← x.json)) :: (← jsonFields fs)

end

end OrderTicket.Payload
