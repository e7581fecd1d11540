import Highlighting.Toml.Basic
import Highlighting.Toml.Reading

/-!
# Numbers and moments of a TOML document

Integers are read to their value and must fit into 64 bits.  Floating-point numbers and moments are
kept as they are written, once it is clear that they have a value.
-/

namespace Highlighting.Toml

/-! ## Numbers -/

/-- Digits after the first one, with an underscore between two of them where one likes. -/
def moreDigits (isDigit : Char → Bool) : List Char → Reading (List Char)
  | '_' :: c :: cs =>
    if isDigit c then (moreDigits isDigit cs).bind fun ds rest => .read (c :: ds) rest else .wrong
  | ['_'] => .wrong
  | c :: cs =>
    if isDigit c then (moreDigits isDigit cs).bind fun ds rest => .read (c :: ds) rest
    else .read [] (c :: cs)
  | [] => .read [] []

/-- One digit or more. -/
def digits (isDigit : Char → Bool) : List Char → Reading (List Char)
  | c :: cs =>
    if isDigit c then (moreDigits isDigit cs).bind fun ds rest => .read (c :: ds) rest else .other
  | [] => .other

/-- A sign, if there is one: is it a minus? -/
def sign : List Char → Option Bool × List Char
  | '+' :: cs => (some false, cs)
  | '-' :: cs => (some true, cs)
  | cs => (none, cs)

/-- A decimal integer: whether it is negative, and its digits, without leading zeros. -/
def decimalDigits (cs : List Char) : Reading (Bool × List Char) :=
  let (negative, cs) := sign cs
  match cs with
  | '0' :: cs => .read (negative.getD false, ['0']) cs
  | cs => (digits Char.isDigit cs).bind fun ds rest => .read (negative.getD false, ds) rest

/-- The number that digits spell in a base. -/
def valueOf (base : Nat) (ds : List Char) : Nat :=
  ds.foldl (fun n c =>
    base * n + (if c.isDigit then c.toNat - '0'.toNat else c.toLower.toNat - 'a'.toNat + 10)) 0

/-- An integer must fit into 64 bits. -/
def fits (n : Int) : Bool :=
  Int64.minValue.toInt ≤ n && n ≤ Int64.maxValue.toInt

/-- The integer of a value, if it fits. -/
def integerOf (n : Int) (rest : List Char) : Reading Scalar :=
  if fits n then .read (.integer n) rest else .wrong

/-- Is it a hexadecimal digit? -/
def isHexDigit (c : Char) : Bool :=
  c.isDigit || ('a' ≤ c && c ≤ 'f') || ('A' ≤ c && c ≤ 'F')

/-- An integer. -/
def integer : List Char → Reading Scalar
  | '0' :: 'x' :: cs =>
    (digits isHexDigit cs).commit.bind fun ds rest => integerOf (valueOf 16 ds) rest
  | '0' :: 'o' :: cs =>
    (digits (fun c => '0' ≤ c && c ≤ '7') cs).commit.bind fun ds rest =>
      integerOf (valueOf 8 ds) rest
  | '0' :: 'b' :: cs =>
    (digits (fun c => c == '0' || c == '1') cs).commit.bind fun ds rest =>
      integerOf (valueOf 2 ds) rest
  | cs =>
    (decimalDigits cs).bind fun (negative, ds) rest =>
      integerOf (if negative then -(valueOf 10 ds : Int) else valueOf 10 ds) rest

/-- From here on a number is as near to `2 ^ 1024` as to the largest double, or nearer. -/
def overflowBound : Nat :=
  Nat.pow 2 1024 - Nat.pow 2 970

/-- Is `significand · 10 ^ exponent` too large for a double?  Magnitudes that decide it by
themselves are not computed. -/
def overflows (significand : Nat) (exponent : Int) : Bool :=
  if significand = 0 then false
  else
    let size : Int := (toString significand).length + exponent
    if size ≤ 308 then false
    else if 310 < size then true
    else if 0 ≤ exponent then overflowBound ≤ significand * Nat.pow 10 exponent.toNat
    else overflowBound * Nat.pow 10 (-exponent).toNat ≤ significand

/-- The exponent of a number, if it has one. -/
def exponent (cs : List Char) : Reading Int :=
  match cs with
  | c :: rest =>
    if c == 'e' || c == 'E' then
      let (negative, rest) := sign rest
      (digits Char.isDigit rest).commit.bind fun ds rest =>
        .read (if negative.getD false then -(valueOf 10 ds : Int) else valueOf 10 ds) rest
    else .other
  | [] => .other

/-- A floating-point number in digits: what makes it one is a fraction or an exponent. -/
def digitFloat (cs : List Char) : Reading Scalar :=
  (decimalDigits cs).bind fun (negative, whole) rest =>
    let finish (fraction : List Char) (e : Int) (rest : List Char) : Reading Scalar :=
      if !negative && overflows (valueOf 10 (whole ++ fraction)) (e - fraction.length) then .wrong
      else .read (.float (String.ofList (cs.take (cs.length - rest.length)))) rest
    match rest with
    | '.' :: rest =>
      (digits Char.isDigit rest).commit.bind fun fraction rest =>
        match exponent rest with
        | .other => finish fraction 0 rest
        | .wrong => .wrong
        | .read e rest => finish fraction e rest
    | rest => (exponent rest).bind fun e rest => finish [] e rest

/-- Infinity, or what is not a number. -/
def namedFloat (cs : List Char) : Reading Scalar :=
  let (negative, rest) := sign cs
  let signed (s : String) : String := (if negative.getD false then "-" else "") ++ s
  match rest with
  | 'i' :: 'n' :: 'f' :: rest => .read (.float (signed "inf")) rest
  | 'n' :: 'a' :: 'n' :: rest => .read (.float (signed "nan")) rest
  | _ => .other

/-! ## Moments -/

/-- Exactly `n` digits that spell a number from `least` to `most`. -/
def field (n least most : Nat) (cs : List Char) : Reading Nat :=
  let ds := cs.take n
  let v := valueOf 10 ds
  if ds.length == n && ds.all Char.isDigit && least ≤ v && v ≤ most then .read v (cs.drop n)
  else .other

/-- One particular character. -/
def exact (c : Char) : List Char → Reading Unit
  | d :: cs => if c == d then .read () cs else .other
  | [] => .other

/-- How many days a month has. -/
def daysIn (year month : Nat) : Nat :=
  if month == 2 then
    if year % 4 == 0 && (year % 100 != 0 || year % 400 == 0) then 29 else 28
  else if month == 4 || month == 6 || month == 9 || month == 11 then 30
  else 31

/-- A date. -/
def date (cs : List Char) : Reading Unit :=
  (field 4 0 9999 cs).bind fun year rest => (exact '-' rest).bind fun _ rest =>
    Reading.commit <|
      (field 2 1 12 rest).bind fun month rest => (exact '-' rest).bind fun _ rest =>
        (field 2 1 (daysIn year month) rest).bind fun _ rest => .read () rest

/-- The fraction of a second, if there is one. -/
def skipFraction (cs : List Char) : List Char :=
  match cs with
  | '.' :: c :: rest => if c.isDigit then rest.dropWhile Char.isDigit else cs
  | _ => cs

/-- A time of day. -/
def time (cs : List Char) : Reading Unit :=
  (field 2 0 23 cs).bind fun _ rest => (exact ':' rest).bind fun _ rest =>
    Reading.commit <|
      (field 2 0 59 rest).bind fun _ rest => (exact ':' rest).bind fun _ rest =>
        (field 2 0 60 rest).bind fun _ rest => .read () (skipFraction rest)

/-- How far a time is from that of Greenwich. -/
def timeOffset (cs : List Char) : Reading Unit :=
  match cs with
  | c :: rest =>
    if c == 'Z' || c == 'z' then .read () rest
    else if c == '+' || c == '-' then
      Reading.commit <|
        (field 2 0 23 rest).bind fun _ rest => (exact ':' rest).bind fun _ rest =>
          (field 2 0 59 rest).bind fun _ rest => .read () rest
    else .other
  | [] => .other

/-- A time, and its distance from that of Greenwich if that is given. -/
def timeWithOffset (cs : List Char) : Reading Unit :=
  (time cs).bind fun _ rest =>
    match timeOffset rest with
    | .other => .read () rest
    | r => r

/-- A date with or without a time, or a time. -/
def momentEnd (cs : List Char) : Reading Unit :=
  match date cs with
  | .wrong => .wrong
  | .other => time cs
  | .read _ rest =>
    match rest with
    | c :: after =>
      if c == 'T' || c == 't' || c == ' ' then
        match timeWithOffset after with
        | .other => .read () rest
        | r => r
      else .read () rest
    | [] => .read () []

/-- A moment. -/
def moment (cs : List Char) : Reading Scalar :=
  (momentEnd cs).bind fun _ rest =>
    .read (.moment (String.ofList (cs.take (cs.length - rest.length)))) rest

/-- A moment or a number. -/
def numeric (cs : List Char) : Option (Scalar × List Char) :=
  ((moment cs).orElse fun _ => (digitFloat cs).orElse fun _ => (namedFloat cs).orElse fun _ =>
    integer cs).toOption

end Highlighting.Toml
