/-
# Points in time

Objects say when they were made and when they are to go. A point in time is kept
as a day of the calendar and a time of that day, both in UTC, and written as RFC
3339 has it, with as many decimals of a second as are needed out of none, three,
six and nine. It is read from any time zone, and more loosely: numbers may be
short and have blanks around them, and there may be more decimals than count.

Key definitions: `Date`, `Timestamp`, `Timestamp.text`, `Timestamp.parse?`.
-/
import ClusterKit.Text.Blank

namespace ClusterKit

/-! ### Days -/

/-- Whether a year has a leap day. -/
def isLeapYear (year : Int) : Bool :=
  year % 4 == 0 && (year % 100 != 0 || year % 400 == 0)

/-- The number of days in a month. -/
def daysIn (year : Int) (month : Nat) : Nat :=
  match month with
  | 2 => if isLeapYear year then 29 else 28
  | 4 | 6 | 9 | 11 => 30
  | _ => 31

/-- Whether there is such a day in the years that can be told. -/
def IsDay (year : Int) (month day : Nat) : Prop :=
  (-262143 ≤ year ∧ year ≤ 262142) ∧ (1 ≤ month ∧ month ≤ 12) ∧ 1 ≤ day ∧ day ≤ daysIn year month

instance (year : Int) (month day : Nat) : Decidable (IsDay year month day) :=
  inferInstanceAs (Decidable (_ ∧ _))

/-- A day of the calendar. -/
structure Date where
  year : Int
  month : Nat
  day : Nat
  isDay : IsDay year month day
  deriving DecidableEq

namespace Date

/-- The day with these numbers, if there is one. -/
def of? (year : Int) (month day : Nat) : Option Date :=
  if h : IsDay year month day then some ⟨year, month, day, h⟩ else none

/-- The next day. -/
def next? (d : Date) : Option Date :=
  (of? d.year d.month (d.day + 1)).or <|
    (of? d.year (d.month + 1) 1).or <|
      of? (d.year + 1) 1 1

/-- The day before. -/
def previous? (d : Date) : Option Date :=
  (of? d.year d.month (d.day - 1)).or <|
    (of? d.year (d.month - 1) (daysIn d.year (d.month - 1))).or <|
      of? (d.year - 1) 12 31

end Date

/-- A point in time, in UTC. The second number 60 is a leap second. -/
structure Timestamp where
  date : Date
  hour : Fin 24
  minute : Fin 60
  second : Fin 61
  nano : Fin 1000000000
  deriving DecidableEq

namespace Timestamp

/-! ### Writing -/

/-- The last `width` digits of a number. -/
def digits : Nat → Nat → List Char
  | 0, _ => []
  | width + 1, n => digits width (n / 10) ++ [Nat.digitChar (n % 10)]

/-- The number of digits in a year, which are at least four. -/
def yearWidth (n : Nat) : Nat :=
  if n < 10000 then 4 else if n < 100000 then 5 else 6

/-- A year: four digits, or a sign and at least four digits. -/
def yearChars (year : Int) : List Char :=
  let n := year.natAbs
  if 0 ≤ year ∧ year < 10000 then digits 4 n
  else (if year < 0 then '-' else '+') :: digits (yearWidth n) n

/-- The decimals of a second, if there are any. -/
def decimals (nano : Nat) : List Char :=
  if nano = 0 then []
  else if nano % 1000000 = 0 then '.' :: digits 3 (nano / 1000000)
  else if nano % 1000 = 0 then '.' :: digits 6 (nano / 1000)
  else '.' :: digits 9 nano

/-- The characters of the written form. -/
def chars (t : Timestamp) : List Char :=
  yearChars t.date.year ++ '-' :: (digits 2 t.date.month ++ '-' :: (digits 2 t.date.day ++
    'T' :: (digits 2 t.hour ++ ':' :: (digits 2 t.minute ++ ':' :: (digits 2 t.second ++
      (decimals t.nano ++ ['Z']))))))

/-- The written form. -/
def text (t : Timestamp) : String :=
  String.ofList t.chars

/-! ### Reading -/

/-- The number that the digits at the start make, of which at most `max` count, and what is
behind them. -/
def digits? (max : Nat) (cs : List Char) : Option (Nat × List Char) :=
  let ds := (cs.take max).takeWhile (·.isDigit)
  if ds.isEmpty then none else some (Nat.ofDigitChars 10 ds 0, cs.drop ds.length)

/-- A number of one or two digits, with blanks before it. -/
def number? (cs : List Char) : Option (Nat × List Char) :=
  digits? 2 (Text.trimStart cs)

/-- A year: up to four digits, or a sign and any number of them, with blanks before it. -/
def year? (cs : List Char) : Option (Int × List Char) :=
  match Text.trimStart cs with
  | '-' :: cs => (digits? cs.length cs).map fun (n, cs) => (-n, cs)
  | '+' :: cs => (digits? cs.length cs).map fun (n, cs) => (n, cs)
  | cs => (digits? 4 cs).map fun (n, cs) => (n, cs)

/-- What is behind the character `c`, which may have blanks before it. -/
def behind? (c : Char) (cs : List Char) : Option (List Char) :=
  match Text.trimStart cs with
  | d :: cs => if d = c then some cs else none
  | [] => none

/-- What is behind the character between day and time. -/
def behindDay? : List Char → Option (List Char)
  | c :: cs => if c = 'T' ∨ c = 't' ∨ c = ' ' then some cs else none
  | [] => none

/-- The nanoseconds, for which the first nine decimals count. -/
def decimals? : List Char → Option (Nat × List Char)
  | '.' :: cs =>
    let ds := (cs.take 9).takeWhile (·.isDigit)
    if ds.isEmpty then none
    else some (Nat.ofDigitChars 10 (ds.rightpad 9 '0') 0, cs.dropWhile (·.isDigit))
  | cs => some (0, cs)

/-- The minutes of an offset of hours and minutes, with colons and blanks between them. -/
def offsetMinutes? : List Char → Option (Nat × List Char)
  | a :: b :: cs =>
    match cs.dropWhile fun c => c = ':' || Text.isBlank c with
    | c :: d :: cs =>
      let hours := Nat.ofDigitChars 10 [a, b] 0
      let minutes := Nat.ofDigitChars 10 [c, d] 0
      if [a, b, c, d].all (·.isDigit) ∧ hours < 24 ∧ minutes < 60 then
        some (60 * hours + minutes, cs)
      else none
    | _ => none
  | _ => none

/-- The offset of a time zone from UTC in minutes, with blanks before it. -/
def offset? (cs : List Char) : Option (Int × List Char) :=
  match Text.trimStart cs with
  | 'Z' :: cs => some (0, cs)
  | 'z' :: cs => some (0, cs)
  | '+' :: cs => (offsetMinutes? cs).map fun (n, cs) => (n, cs)
  | '-' :: cs => (offsetMinutes? cs).map fun (n, cs) => (-n, cs)
  | '\u2212' :: cs => (offsetMinutes? cs).map fun (n, cs) => (-n, cs)
  | u :: t :: c :: cs => if [u, t, c].map (·.toUpper) = ['U', 'T', 'C'] then some (0, cs) else none
  | _ => none

/-- A number, if it is below `n`. -/
def below? (n k : Nat) : Option (Fin n) :=
  if h : k < n then some ⟨k, h⟩ else none

/-- The point in time of a day and a time, which are those of a place `offset` minutes ahead. -/
def ofLocal? (date : Date) (hour : Fin 24) (minute : Fin 60) (second : Fin 61)
    (nano : Fin 1000000000) (offset : Int) : Option Timestamp :=
  let minutes : Int := 60 * hour.val + minute.val - offset
  let date? :=
    if minutes < 0 then date.previous?
    else if 1440 ≤ minutes then date.next?
    else some date
  let ofDay := (minutes % 1440).toNat
  date?.map fun date => ⟨date, Fin.ofNat 24 (ofDay / 60), Fin.ofNat 60 (ofDay % 60), second, nano⟩

/-- The point in time that characters tell, behind which only blanks may stand. -/
def parseChars? (cs : List Char) : Option Timestamp := do
  let (year, cs) ← year? cs
  let (month, cs) ← number? (← behind? '-' cs)
  let (day, cs) ← number? (← behind? '-' cs)
  let date ← Date.of? year month day
  let (hour, cs) ← number? (← behindDay? cs)
  let (minute, cs) ← number? (← behind? ':' cs)
  let (second, cs) ← number? (← behind? ':' cs)
  let (nano, cs) ← decimals? cs
  let (offset, cs) ← offset? cs
  guard (Text.trimStart cs).isEmpty
  ofLocal? date (← below? 24 hour) (← below? 60 minute) (← below? 61 second)
    (← below? 1000000000 nano) offset

/-- The point in time that a text tells. -/
def parse? (s : String) : Option Timestamp :=
  parseChars? s.toList

end Timestamp
end ClusterKit
