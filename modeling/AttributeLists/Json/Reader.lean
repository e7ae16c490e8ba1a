/-
# Reading JSON documents

A document is exactly one value with white space around it. White space is space,
tab and the two line breaks; a string holds no bare control characters, and the
two halves of a surrogate pair are only good together; a number has no superfluous
zero in front and at least one digit wherever digits may stand. A number that is not
written as an integer has to be in the range of doubles.

In an object that is part of a value, a name that is written again takes the new value.
The fields of a document that is an object are read as they are written.

Documents are read within limits on the length of an integer and on how many lists and
objects may be open at a time. The first fault from the left is the one that counts: a
document that opens too many is too deep, whatever comes after.

Readers return what they read with the characters after it. The readers of values
count down a bound that the length of the document provides, since every value and
every separator takes at least one character.
-/

import AttributeLists.Json.Value

namespace AttributeLists.Json

/-- How large the parts of a document may be. -/
structure Limits where
  /-- How many lists and objects may be open at a time. -/
  depth : Nat
  /-- How many characters an integer may have, its sign included. -/
  integerLength : Nat

/-- Why a document cannot be read. -/
inductive ReadError
  /-- It is not one value, or a number in it is out of range. -/
  | malformed
  /-- Too many lists and objects are open at a time. -/
  | tooDeep
  deriving DecidableEq

namespace Reader

/-- White space between the parts of a document. -/
def isSpace (c : Char) : Bool :=
  c == ' ' || c == '\t' || c == '\n' || c == '\r'

/-- The characters after leading white space. -/
def skipSpace (chars : List Char) : List Char :=
  chars.dropWhile isSpace

/-- The value of a hexadecimal digit. -/
def hexDigit? (c : Char) : Option Nat :=
  if '0' ≤ c ∧ c ≤ '9' then some (c.toNat - '0'.toNat)
  else if 'a' ≤ c ∧ c ≤ 'f' then some (c.toNat - 'a'.toNat + 10)
  else if 'A' ≤ c ∧ c ≤ 'F' then some (c.toNat - 'A'.toNat + 10)
  else none

/-- The value of hexadecimal digits, the most significant one first. -/
def hexCode? (digits : List Char) : Option Nat :=
  digits.foldlM (fun code c => (hexDigit? c).map (16 * code + ·)) 0

/-- The character that a one-letter escape stands for. -/
def escaped? (c : Char) : Option Char :=
  match c with
  | '"' => some '"'
  | '\\' => some '\\'
  | '/' => some '/'
  | 'b' => some '\x08'
  | 'f' => some '\x0c'
  | 'n' => some '\n'
  | 'r' => some '\r'
  | 't' => some '\t'
  | _ => none

/-- The codes of a string's contents, after its opening quote. A surrogate is one
code, as it is escaped. -/
def readCodes (done : List Nat) : List Char → Option (List Nat × List Char)
  | [] => none
  | '"' :: rest => some (done.reverse, rest)
  | '\\' :: 'u' :: a :: b :: c :: d :: rest =>
      match hexCode? [a, b, c, d] with
      | some code => readCodes (code :: done) rest
      | none => none
  | '\\' :: c :: rest =>
      match escaped? c with
      | some meant => readCodes (meant.toNat :: done) rest
      | none => none
  | c :: rest => if c.toNat < 0x20 then none else readCodes (c.toNat :: done) rest

/-- The text of a string's codes. A high surrogate joins the low one after it, and a
surrogate without its partner is no text. -/
def textOfCodes : List Nat → Option Text
  | [] => some []
  | high :: low :: rest =>
      if 0xD800 ≤ high ∧ high < 0xDC00 then
        if 0xDC00 ≤ low ∧ low < 0xE000 then
          let code := 0x10000 + (high - 0xD800) * 0x400 + (low - 0xDC00)
          (textOfCodes rest).map (.char (Char.ofNat code) :: ·)
        else none
      else if 0xDC00 ≤ high ∧ high < 0xE000 then none
      else (textOfCodes (low :: rest)).map (.char (Char.ofNat high) :: ·)
  | [code] => if 0xD800 ≤ code ∧ code < 0xE000 then none else some [.char (Char.ofNat code)]

/-- A string, after its opening quote. -/
def readString (chars : List Char) : Option (Text × List Char) := do
  let (codes, rest) ← readCodes [] chars
  let text ← textOfCodes codes
  return (text, rest)

/-- One or more digits. -/
def readDigits (chars : List Char) : Option (List Char × List Char) :=
  match chars.takeWhile Char.isDigit with
  | [] => none
  | digits => some (digits, chars.dropWhile Char.isDigit)

/-- A whole number without a sign: zero alone, or digits that do not start with it. -/
def readWhole : List Char → Option (List Char × List Char)
  | '0' :: rest => some (['0'], rest)
  | chars => readDigits chars

/-- The digits of a number's fraction, if it has one. -/
def readFraction : List Char → Option (Option (List Char) × List Char)
  | '.' :: rest => (readDigits rest).map fun (digits, after) => (some digits, after)
  | chars => some (none, chars)

/-- The number that digits spell. -/
def natOfDigits (digits : List Char) : Nat :=
  digits.foldl (fun n c => 10 * n + (c.toNat - '0'.toNat)) 0

/-- An integer with a sign or without one. -/
def readSigned : List Char → Option (Int × List Char)
  | '-' :: rest => (readDigits rest).map fun (digits, after) => (-natOfDigits digits, after)
  | '+' :: rest => (readDigits rest).map fun (digits, after) => (natOfDigits digits, after)
  | chars => (readDigits chars).map fun (digits, after) => (natOfDigits digits, after)

/-- The exponent of a number, if it has one. -/
def readExponent : List Char → Option (Option Int × List Char)
  | e :: rest =>
      if e = 'e' ∨ e = 'E' then
        (readSigned rest).map fun (exponent, after) => (some exponent, after)
      else some (none, e :: rest)
  | [] => some (none, [])

/-- The value of a number with a sign, a whole part and possibly a fraction and an
exponent, if it is in range. -/
def number? (limits : Limits) (negative : Bool) (whole : List Char) :
    Option (List Char) → Option Int → Option Value
  | none, none =>
      if whole.length + negative.toNat ≤ limits.integerLength then
        let n : Int := natOfDigits whole
        some (.integer (if negative then -n else n))
      else none
  | fraction, exponent =>
      let after := fraction.getD []
      (Number.Double.ofDecimal? negative
        ⟨natOfDigits (whole ++ after), exponent.getD 0 - after.length⟩).map .double

/-- A number. -/
def readNumber (limits : Limits) (chars : List Char) : Option (Value × List Char) := do
  let (negative, unsigned) :=
    match chars with
    | '-' :: rest => (true, rest)
    | _ => (false, chars)
  let (whole, afterWhole) ← readWhole unsigned
  let (fraction, afterFraction) ← readFraction afterWhole
  let (exponent, rest) ← readExponent afterFraction
  let value ← number? limits negative whole fraction exponent
  return (value, rest)

/-- What was read, or that the document is malformed. -/
def orMalformed {α : Type} : Option α → Except ReadError α
  | some a => .ok a
  | none => .error .malformed

mutual

/-- A value at the front, of at most a given number of steps. The first number counts
how many lists and objects may still be opened. -/
def readValue (limits : Limits) :
    Nat → Nat → List Char → Except ReadError (Value × List Char)
  | _, 0, _ => .error .malformed
  | room, bound + 1, chars =>
      match skipSpace chars with
      | 'n' :: 'u' :: 'l' :: 'l' :: rest => .ok (.null, rest)
      | 't' :: 'r' :: 'u' :: 'e' :: rest => .ok (.bool true, rest)
      | 'f' :: 'a' :: 'l' :: 's' :: 'e' :: rest => .ok (.bool false, rest)
      | '"' :: rest => do
          let (text, after) ← orMalformed (readString rest)
          return (.text text, after)
      | '[' :: rest =>
          if room = 0 then .error .tooDeep
          else
            match skipSpace rest with
            | ']' :: after => .ok (.list [], after)
            | _ => do
                let (items, after) ← readItems limits (room - 1) bound [] rest
                return (.list items, after)
      | '\x7b' :: rest =>
          if room = 0 then .error .tooDeep
          else
            match skipSpace rest with
            | '\x7d' :: after => .ok (.object [], after)
            | _ => do
                let (fields, after) ← readFields limits (room - 1) bound [] rest
                return (.object (Value.setFields fields), after)
      | other => orMalformed (readNumber limits other)

/-- The items of a list that has some, up to its closing bracket. -/
def readItems (limits : Limits) :
    Nat → Nat → List Value → List Char → Except ReadError (List Value × List Char)
  | _, 0, _, _ => .error .malformed
  | room, bound + 1, done, chars => do
      let (item, rest) ← readValue limits room bound chars
      match skipSpace rest with
      | ',' :: more => readItems limits room bound (item :: done) more
      | ']' :: after => return ((item :: done).reverse, after)
      | _ => .error .malformed

/-- The fields of an object that has some, up to its closing brace. -/
def readFields (limits : Limits) :
    Nat → Nat → List (Text × Value) → List Char →
      Except ReadError (List (Text × Value) × List Char)
  | _, 0, _, _ => .error .malformed
  | room, bound + 1, done, chars =>
      match skipSpace chars with
      | '"' :: named => do
          let (name, rest) ← orMalformed (readString named)
          match skipSpace rest with
          | ':' :: valued =>
              let (value, rest) ← readValue limits room bound valued
              match skipSpace rest with
              | ',' :: more => readFields limits room bound ((name, value) :: done) more
              | '\x7d' :: after => return (((name, value) :: done).reverse, after)
              | _ => .error .malformed
          | _ => .error .malformed
      | _ => .error .malformed

end

end Reader

/-- The fields of a document that is exactly one object within limits, as they are written. -/
def fieldsOfDocument (limits : Limits) (document : String) :
    Except ReadError (List (Text × Value)) :=
  let ended (fields : List (Text × Value)) (after : List Char) :=
    if (Reader.skipSpace after).isEmpty then .ok fields else .error .malformed
  match Reader.skipSpace document.toList with
  | '\x7b' :: rest =>
      if limits.depth = 0 then .error .tooDeep
      else
        match Reader.skipSpace rest with
        | '\x7d' :: after => ended [] after
        | _ => do
            let (fields, after) ←
              Reader.readFields limits (limits.depth - 1) (2 * rest.length + 2) [] rest
            ended fields after
  | _ => .error .malformed

end AttributeLists.Json
