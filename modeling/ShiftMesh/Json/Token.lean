import ShiftMesh.Json.Number

/-!
# ShiftMesh.Json.Token — the tokens of a JSON text

* `Token`: brackets, separators, literals, numbers and strings.
* `readString`, `readNumber`: the two tokens of any length, with the text left over.  Raw control
  characters and lone surrogate escapes are faults, and so are leading zeros and missing digits.
* `tokens`: the tokens of a text; each step takes at least one character, so the text's length
  bounds the recursion.
-/

namespace ShiftMesh.Json

/-- A token of a JSON text. -/
inductive Token where
  | openArray
  | closeArray
  | openObject
  | closeObject
  | comma
  | colon
  | null
  | bool (b : Bool)
  | number (n : Number)
  | string (s : String)
  deriving Repr, BEq, DecidableEq

/-! ## Digits -/

/-- The value of a decimal digit. -/
def digit? (c : Char) : Option Nat :=
  if '0' ≤ c ∧ c ≤ '9' then some (c.toNat - '0'.toNat) else none

/-- The value of a hexadecimal digit. -/
def hexDigit? (c : Char) : Option Nat :=
  if '0' ≤ c ∧ c ≤ '9' then some (c.toNat - '0'.toNat)
  else if 'a' ≤ c ∧ c ≤ 'f' then some (c.toNat - 'a'.toNat + 10)
  else if 'A' ≤ c ∧ c ≤ 'F' then some (c.toNat - 'A'.toNat + 10)
  else none

/-- The leading decimal digits of a text and the rest. -/
def spanDigits : List Char → List Nat × List Char
  | [] => ([], [])
  | c :: rest =>
    match digit? c with
    | some d => let (ds, tail) := spanDigits rest; (d :: ds, tail)
    | none => ([], c :: rest)

/-- The number that decimal digits stand for. -/
def ofDigits (ds : List Nat) : Nat := ds.foldl (fun n d => n * 10 + d) 0

/-! ## Strings -/

/-- The code unit of four hexadecimal digits. -/
def codeUnit? (a b c d : Char) : Option Nat := do
  let a ← hexDigit? a
  let b ← hexDigit? b
  let c ← hexDigit? c
  let d ← hexDigit? d
  pure (((a * 16 + b) * 16 + c) * 16 + d)

/-- A leading surrogate. -/
def isLeading (u : Nat) : Bool := 0xD800 ≤ u && u < 0xDC00

/-- A trailing surrogate. -/
def isTrailing (u : Nat) : Bool := 0xDC00 ≤ u && u < 0xE000

/-- The character of a surrogate pair. -/
def ofSurrogates (hi lo : Nat) : Char :=
  Char.ofNat (0x10000 + (hi - 0xD800) * 0x400 + (lo - 0xDC00))

/-- The character of an escape of one letter. -/
def shortEscape? : Char → Option Char
  | '"' => some '"'
  | '\\' => some '\\'
  | '/' => some '/'
  | 'b' => some '\x08'
  | 'f' => some '\x0c'
  | 'n' => some '\n'
  | 'r' => some '\r'
  | 't' => some '\t'
  | _ => none

/-- The characters of a string up to its closing quote, and the text after the quote. -/
def readString : List Char → Except Fault (List Char × List Char)
  | [] => .error .endOfText
  | '"' :: rest => .ok ([], rest)
  | '\\' :: 'u' :: a :: b :: c :: d :: rest =>
    match codeUnit? a b c d with
    | none => .error .invalidEscape
    | some u =>
      if isTrailing u then .error .invalidEscape
      else if isLeading u then
        match rest with
        | '\\' :: 'u' :: e :: f :: g :: h :: tail =>
          match codeUnit? e f g h with
          | none => .error .invalidEscape
          | some v =>
            if isTrailing v then
              (readString tail).map fun (cs, left) => (ofSurrogates u v :: cs, left)
            else .error .invalidEscape
        | _ => .error .invalidEscape
      else (readString rest).map fun (cs, left) => (Char.ofNat u :: cs, left)
  | '\\' :: e :: rest =>
    match shortEscape? e with
    | some c => (readString rest).map fun (cs, left) => (c :: cs, left)
    | none => .error .invalidEscape
  | c :: rest =>
    if c.toNat < 0x20 then .error .controlCharacter
    else (readString rest).map fun (cs, left) => (c :: cs, left)

/-! ## Numbers -/

/-- An optional sign before the digits of an exponent. -/
def readSign : List Char → Bool × List Char
  | '+' :: rest => (false, rest)
  | '-' :: rest => (true, rest)
  | rest => (false, rest)

/-- The exponent of a number, if one follows. -/
def readExponent : List Char → Except Fault (Option Int × List Char)
  | c :: rest =>
    if c = 'e' ∨ c = 'E' then
      let (negative, rest) := readSign rest
      match spanDigits rest with
      | ([], _) => .error .invalidNumber
      | (ds, tail) => .ok (some (if negative then -(ofDigits ds : Int) else ofDigits ds), tail)
    else .ok (none, c :: rest)
  | [] => .ok (none, [])

/-- The fraction of a number, if one follows. -/
def readFraction : List Char → Except Fault (Option (List Nat) × List Char)
  | '.' :: rest =>
    match spanDigits rest with
    | ([], _) => .error .invalidNumber
    | (ds, tail) => .ok (some ds, tail)
  | rest => .ok (none, rest)

/-- A number after its sign, and the text after it. -/
def readUnsigned (negative : Bool) (cs : List Char) : Except Fault (Number × List Char) :=
  match spanDigits cs with
  | ([], _) => .error .invalidNumber
  | (0 :: _ :: _, _) => .error .invalidNumber
  | (whole, rest) =>
    match readFraction rest with
    | .error e => .error e
    | .ok (fraction, rest) =>
      match readExponent rest with
      | .error e => .error e
      | .ok (exponent, rest) =>
        (WrittenNumber.toNumber ⟨negative, whole, fraction, exponent⟩).map fun n => (n, rest)

/-- A number and the text after it. -/
def readNumber : List Char → Except Fault (Number × List Char)
  | '-' :: rest => readUnsigned true rest
  | cs => readUnsigned false cs

/-! ## Texts -/

/-- The white space between tokens. -/
def isSpace (c : Char) : Bool := c == ' ' || c == '\t' || c == '\n' || c == '\r'

/-- The first token of a text and the text after it; nothing if only white space is left. -/
def nextToken : List Char → Except Fault (Option (Token × List Char))
  | [] => .ok none
  | '[' :: rest => .ok (some (.openArray, rest))
  | ']' :: rest => .ok (some (.closeArray, rest))
  | '{' :: rest => .ok (some (.openObject, rest))
  | '}' :: rest => .ok (some (.closeObject, rest))
  | ',' :: rest => .ok (some (.comma, rest))
  | ':' :: rest => .ok (some (.colon, rest))
  | 'n' :: 'u' :: 'l' :: 'l' :: rest => .ok (some (.null, rest))
  | 't' :: 'r' :: 'u' :: 'e' :: rest => .ok (some (.bool true, rest))
  | 'f' :: 'a' :: 'l' :: 's' :: 'e' :: rest => .ok (some (.bool false, rest))
  | '"' :: rest => (readString rest).map fun (cs, tail) => some (.string (String.ofList cs), tail)
  | c :: rest =>
    if isSpace c then nextToken rest
    else if c = '-' ∨ (digit? c).isSome then
      (readNumber (c :: rest)).map fun (n, tail) => some (.number n, tail)
    else .error (.unexpectedCharacter c)

/-- The tokens of a text, given a bound on their number. -/
def tokensWithin : (bound : Nat) → List Char → Except Fault (List Token)
  | 0, _ => .ok []
  | bound + 1, cs =>
    match nextToken cs with
    | .error e => .error e
    | .ok none => .ok []
    | .ok (some (t, rest)) => (tokensWithin bound rest).map (t :: ·)

/-- The tokens of a text. -/
def tokens (cs : List Char) : Except Fault (List Token) := tokensWithin (cs.length + 1) cs

end ShiftMesh.Json
