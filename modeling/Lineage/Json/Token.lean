import Lineage.Json.Basic

/-!
# Tokens of a JSON text

`Token.read?` cuts a text into brackets, separators and scalar values.  It runs
over the characters once.  Blanks are space, tab, line feed and carriage return
only; a string holds no raw control character, and its `\u` escapes stand for
whole characters, so half of a surrogate pair is refused.
-/

set_option autoImplicit false

namespace Lineage.Json

inductive Token where
  | openArray
  | closeArray
  | openObject
  | closeObject
  | comma
  | colon
  /-- A string, a number or one of the three words. -/
  | scalar (value : Json)

/-! ## Numbers and words -/

def isDigit (c : Char) : Bool := '0' ≤ c && c ≤ '9'

def decimal (digits : List Char) : Nat :=
  digits.foldl (fun total c => 10 * total + (c.toNat - '0'.toNat)) 0

def isDigits (cs : List Char) : Bool := !cs.isEmpty && cs.all isDigit

def isExponent : List Char → Bool
  | [] => true
  | mark :: rest =>
      (mark == 'e' || mark == 'E') &&
        match rest with
        | '+' :: digits => isDigits digits
        | '-' :: digits => isDigits digits
        | digits => isDigits digits

def isFractionOrExponent : List Char → Bool
  | '.' :: rest => !(rest.takeWhile isDigit).isEmpty && isExponent (rest.dropWhile isDigit)
  | rest => isExponent rest

/-- A number without its sign: no leading zero stands before another digit. -/
def unsigned? (negative : Bool) (cs : List Char) : Option Json :=
  let whole := cs.takeWhile isDigit
  let rest := cs.dropWhile isDigit
  let written := String.ofList (if negative then '-' :: cs else cs)
  match whole with
  | [] => none
  | lead :: others =>
      if lead = '0' ∧ others ≠ [] then none
      else if rest = [] then
        if negative then
          if decimal whole = 0 then some (.real written) else some (.int (-(decimal whole : Int)))
        else some (.int (decimal whole))
      else if isFractionOrExponent rest then some (.real written)
      else none

/-- The scalar that a run of word characters denotes. -/
def word? (cs : List Char) : Option Json :=
  if cs = "null".toList then some .null
  else if cs = "true".toList then some (.bool true)
  else if cs = "false".toList then some (.bool false)
  else
    match cs with
    | '-' :: rest => unsigned? true rest
    | rest => unsigned? false rest

/-! ## The scanner -/

/-- What the scanner is inside of.  Characters read so far are newest first. -/
inductive Mode where
  | gap
  | word (read : List Char)
  | string (read : List Char)
  | escape (read : List Char)
  /-- Inside the four digits of an escape; `high` is a leading surrogate that
  came before. -/
  | unicode (read : List Char) (high : Option Nat) (digits : List Char)
  /-- After a leading surrogate, a backslash must follow, and then a `u`. -/
  | pairBackslash (read : List Char) (high : Nat)
  | pairMark (read : List Char) (high : Nat)

structure Scanner where
  /-- Tokens found, newest first. -/
  found : List Token
  mode : Mode

namespace Scanner

def start : Scanner := ⟨[], .gap⟩

def isWordChar (c : Char) : Bool :=
  isDigit c || ('a' ≤ c && c ≤ 'z') || ('A' ≤ c && c ≤ 'Z') ||
    c == '-' || c == '+' || c == '.'

def hexDigit? (c : Char) : Option Nat :=
  if isDigit c then some (c.toNat - '0'.toNat)
  else if 'a' ≤ c ∧ c ≤ 'f' then some (c.toNat - 'a'.toNat + 10)
  else if 'A' ≤ c ∧ c ≤ 'F' then some (c.toNat - 'A'.toNat + 10)
  else none

def hex? (digits : List Char) : Option Nat :=
  digits.foldlM (fun total c => (hexDigit? c).map (16 * total + ·)) 0

def escaped? : Char → Option Char
  | '"' => some '"'
  | '\\' => some '\\'
  | '/' => some '/'
  | 'b' => some '\x08'
  | 'f' => some '\x0c'
  | 'n' => some '\n'
  | 'r' => some '\r'
  | 't' => some '\t'
  | _ => none

def isHighSurrogate (unit : Nat) : Bool := 0xD800 ≤ unit && unit < 0xDC00

def isLowSurrogate (unit : Nat) : Bool := 0xDC00 ≤ unit && unit < 0xE000

/-- Continue a string after the four digits of an escape. -/
def afterUnit? (read : List Char) (high : Option Nat) (unit : Nat) : Option Mode :=
  match high with
  | none =>
      if isHighSurrogate unit then some (.pairBackslash read unit)
      else if isLowSurrogate unit then none
      else some (.string (Char.ofNat unit :: read))
  | some lead =>
      if isLowSurrogate unit then
        let code := 0x10000 + (lead - 0xD800) * 0x400 + (unit - 0xDC00)
        some (.string (Char.ofNat code :: read))
      else none

/-- One character outside of strings and words. -/
def openGap? (found : List Token) (c : Char) : Option Scanner :=
  if c = ' ' ∨ c = '\t' ∨ c = '\n' ∨ c = '\r' then some ⟨found, .gap⟩
  else if isWordChar c then some ⟨found, .word [c]⟩
  else
    match c with
    | '"' => some ⟨found, .string []⟩
    | '[' => some ⟨.openArray :: found, .gap⟩
    | ']' => some ⟨.closeArray :: found, .gap⟩
    | '\x7b' => some ⟨.openObject :: found, .gap⟩
    | '\x7d' => some ⟨.closeObject :: found, .gap⟩
    | ',' => some ⟨.comma :: found, .gap⟩
    | ':' => some ⟨.colon :: found, .gap⟩
    | _ => none

def closeWord? (found : List Token) (read : List Char) : Option (List Token) :=
  (word? read.reverse).map fun value => .scalar value :: found

def step? (scanner : Scanner) (c : Char) : Option Scanner :=
  let found := scanner.found
  match scanner.mode with
  | .gap => openGap? found c
  | .word read =>
      if isWordChar c then some ⟨found, .word (c :: read)⟩
      else (closeWord? found read).bind fun closed => openGap? closed c
  | .string read =>
      if c = '"' then some ⟨.scalar (.str (String.ofList read.reverse)) :: found, .gap⟩
      else if c = '\\' then some ⟨found, .escape read⟩
      else if c < ' ' then none
      else some ⟨found, .string (c :: read)⟩
  | .escape read =>
      if c = 'u' then some ⟨found, .unicode read none []⟩
      else (escaped? c).map fun plain => ⟨found, .string (plain :: read)⟩
  | .unicode read high digits =>
      if digits.length < 3 then some ⟨found, .unicode read high (c :: digits)⟩
      else
        (hex? (c :: digits).reverse).bind fun unit =>
          (afterUnit? read high unit).map fun mode => ⟨found, mode⟩
  | .pairBackslash read high =>
      if c = '\\' then some ⟨found, .pairMark read high⟩ else none
  | .pairMark read high =>
      if c = 'u' then some ⟨found, .unicode read (some high) []⟩ else none

/-- The tokens in reading order, if the text may end here. -/
def finish? (scanner : Scanner) : Option (List Token) :=
  match scanner.mode with
  | .gap => some scanner.found.reverse
  | .word read => (closeWord? scanner.found read).map List.reverse
  | _ => none

end Scanner

def Token.read? (text : String) : Option (List Token) :=
  (text.toList.foldlM Scanner.step? Scanner.start).bind Scanner.finish?

end Lineage.Json
