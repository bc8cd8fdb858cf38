import Acceptance.Text.Digit
import Acceptance.Toml.Value

/-!
# Numbers and moments in configuration

Integers have 64 bits and are written in base 10, or behind `0x`, `0o` or `0b` in base 16, 8 or 2;
a low line may stand between two digits. A float has a fraction or an exponent and must not be
above all finite values of 64 bits. Dates and times follow the calendar.
-/

namespace Acceptance.Toml

open Text

/-- The value of a digit in a base up to sixteen. -/
def digitIn? (base : Nat) (c : Char) : Option Nat :=
  let value? :=
    if '0' ≤ c ∧ c ≤ '9' then some (c.toNat - '0'.toNat)
    else if 'a' ≤ c ∧ c ≤ 'f' then some (c.toNat - 'a'.toNat + 10)
    else if 'A' ≤ c ∧ c ≤ 'F' then some (c.toNat - 'A'.toNat + 10)
    else none
  value?.filter (· < base)

/-- The values of digits with single low lines between them, and the text behind. `owed` says that
a digit has to come next. -/
def digitsFrom? (base : Nat) (owed : Bool) : List Char → Option (List Nat × List Char)
  | [] => if owed then none else some ([], [])
  | c :: s =>
    match digitIn? base c with
    | some d => (digitsFrom? base false s).map fun (ds, rest) => (d :: ds, rest)
    | none =>
      if owed then none
      else if c == '_' then digitsFrom? base true s
      else some ([], c :: s)

/-- The number of at least one digit, the number of digits, and the text behind. -/
def natural? (base : Nat) (s : List Char) : Option (Nat × Nat × List Char) :=
  (digitsFrom? base true s).map fun (ds, rest) =>
    (ds.foldl (fun n d => n * base + d) 0, ds.length, rest)

/-- Whether a sign is negative, and the text behind an optional sign. -/
def sign (s : List Char) : Bool × List Char :=
  match s with
  | '-' :: rest => (true, rest)
  | '+' :: rest => (false, rest)
  | _ => (false, s)

/-- A number without a leading zero, and the text behind; a zero stands alone. -/
def whole? (s : List Char) : Option (Nat × List Char) :=
  match s with
  | '0' :: rest => some (0, rest)
  | _ => (natural? 10 s).map fun (n, _, rest) => (n, rest)

/-- The integer within 64 bits. -/
def word? (n : Int) : Option Toml :=
  if Int64.minValue.toInt ≤ n ∧ n ≤ Int64.maxValue.toInt then some (integer n) else none

/-- An integer, and the text behind. -/
def integer? (s : List Char) : Option (Toml × List Char) := do
  let inBase (base : Nat) (digits : List Char) : Option (Toml × List Char) := do
    let (n, _, rest) ← natural? base digits
    return (← word? n, rest)
  match s with
  | '0' :: 'x' :: digits => inBase 16 digits
  | '0' :: 'o' :: digits => inBase 8 digits
  | '0' :: 'b' :: digits => inBase 2 digits
  | _ =>
    let (negative, digits) := sign s
    let (n, rest) ← whole? digits
    return (← word? (if negative then -n else n), rest)

/-! ## Floats -/

/-- Half a step above the greatest finite value of 64 bits. -/
def floatBound : Nat := Nat.pow 2 1024 - Nat.pow 2 970

/-- Whether `mantissa * 10 ^ exponent` is above all finite values once it is rounded. -/
def overflows (mantissa : Nat) (exponent : Int) : Bool :=
  let size : Int := (Nat.toDigits 10 mantissa).length
  if mantissa = 0 ∨ size + exponent ≤ 308 then false
  else if 310 ≤ size + exponent then true
  else if 0 ≤ exponent then decide (floatBound ≤ mantissa * Nat.pow 10 exponent.toNat)
  else decide (floatBound * Nat.pow 10 (-exponent).toNat ≤ mantissa)

/-- The exponent of a float, and the text behind. -/
def exponent? (s : List Char) : Option (Int × List Char) := do
  match s with
  | c :: s =>
    guard (c == 'e' || c == 'E')
    let (negative, digits) := sign s
    let (n, _, rest) ← natural? 10 digits
    return (if negative then -(n : Int) else n, rest)
  | [] => none

/-- The text behind a float. -/
def float? (s : List Char) : Option (List Char) := do
  let (negative, body) := sign s
  let (n, rest) ← whole? body
  let (mantissa, places, rest) ←
    match rest with
    | '.' :: digits => (natural? 10 digits).map fun (f, k, rest) => (n * Nat.pow 10 k + f, k, rest)
    | _ => some (n, 0, rest)
  match exponent? rest with
  | some (e, rest) =>
    guard (negative || !overflows mantissa (e - places))
    return rest
  | none =>
    guard (places ≠ 0)
    guard (negative || !overflows mantissa (-(places : Int)))
    return rest

/-- The text behind one of the floats that are no numbers. -/
def specialFloat? (s : List Char) : Option (List Char) :=
  match (sign s).2 with
  | 'i' :: 'n' :: 'f' :: rest => some rest
  | 'n' :: 'a' :: 'n' :: rest => some rest
  | _ => none

/-! ## Moments -/

/-- The number written by exactly so many digits, and the text behind. -/
def fixed? (width : Nat) (s : List Char) : Option (Nat × List Char) := do
  let n ← decimal? (s.take width)
  guard ((s.take width).length = width)
  return (n, s.drop width)

/-- The text behind one character. -/
def sep? (c : Char) : List Char → Option (List Char)
  | [] => none
  | d :: s => if d == c then some s else none

/-- The number of days of a month. -/
def monthDays (year month : Nat) : Nat :=
  if month = 2 then
    if year % 4 = 0 ∧ (year % 100 ≠ 0 ∨ year % 400 = 0) then 29 else 28
  else if month = 4 ∨ month = 6 ∨ month = 9 ∨ month = 11 then 30
  else 31

/-- The text behind a date. -/
def date? (s : List Char) : Option (List Char) := do
  let (year, s) ← fixed? 4 s
  let (month, s) ← fixed? 2 (← sep? '-' s)
  guard (1 ≤ month ∧ month ≤ 12)
  let (day, s) ← fixed? 2 (← sep? '-' s)
  guard (1 ≤ day ∧ day ≤ monthDays year month)
  return s

/-- The text behind hours and minutes. -/
def clock? (s : List Char) : Option (List Char) := do
  let (hour, s) ← fixed? 2 s
  guard (hour ≤ 23)
  let (minute, s) ← fixed? 2 (← sep? ':' s)
  guard (minute ≤ 59)
  return s

/-- The text behind a time; its seconds may have a fraction. -/
def time? (s : List Char) : Option (List Char) := do
  let (second, s) ← fixed? 2 (← sep? ':' (← clock? s))
  guard (second ≤ 60)
  match s with
  | '.' :: d :: rest =>
    if isAsciiDigit d then return rest.dropWhile isAsciiDigit else return s
  | _ => return s

/-- The text behind the distance to universal time, if there is one. -/
def skipOffset (s : List Char) : List Char :=
  match s with
  | c :: rest =>
    if c == 'Z' || c == 'z' then rest
    else if c == '+' || c == '-' then (clock? rest).getD s
    else s
  | [] => s

/-- The text behind a date, a time, or both. -/
def moment? (s : List Char) : Option (List Char) :=
  match date? s with
  | none => time? s
  | some rest =>
    match rest with
    | c :: more =>
      if c == 'T' || c == 't' || c == ' ' then
        match time? more with
        | some rest => some (skipOffset rest)
        | none => some (c :: more)
      else some (c :: more)
    | [] => some []

/-- A number or a moment, and the text behind. -/
def number? (s : List Char) : Option (Toml × List Char) :=
  match (moment? s).map (Toml.moment, ·) with
  | some found => some found
  | none =>
    match ((float? s).or (specialFloat? s)).map (Toml.float, ·) with
    | some found => some found
    | none => integer? s

end Acceptance.Toml
