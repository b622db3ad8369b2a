import Courier.Text.Blank

/-!
# Instants

Dates and times of day with an offset from universal time, as RFC 3339 writes
them, and the instants they name: nanoseconds since the start of 1970.
-/

namespace Courier
namespace Time

structure Date where
  year : Nat
  month : Nat
  day : Nat
deriving DecidableEq, Repr

namespace Date

def isLeapYear (year : Nat) : Bool :=
  year % 4 == 0 && (year % 100 != 0 || year % 400 == 0)

def daysInMonth (year month : Nat) : Nat :=
  if month = 2 then (if isLeapYear year then 29 else 28)
  else if month = 4 ∨ month = 6 ∨ month = 9 ∨ month = 11 then 30
  else 31

def daysBeforeYear (year : Nat) : Nat :=
  365 * year + (year + 3) / 4 - (year + 99) / 100 + (year + 399) / 400

def daysBeforeMonth (year month : Nat) : Nat :=
  (List.range (month - 1)).foldl (fun days m => days + daysInMonth year (m + 1)) 0

def isValid (d : Date) : Bool :=
  1 ≤ d.month && d.month ≤ 12 && 1 ≤ d.day && d.day ≤ daysInMonth d.year d.month

def epochDays (d : Date) : Int :=
  (daysBeforeYear d.year + daysBeforeMonth d.year d.month + (d.day - 1) : Int) -
    daysBeforeYear 1970

end Date

/-- A date and time of day at an offset, in minutes, from universal time. -/
structure Stamp where
  date : Date
  hour : Nat
  minute : Nat
  second : Nat
  nanosecond : Nat
  offset : Int
deriving DecidableEq, Repr

namespace Stamp

def epochSeconds (s : Stamp) : Int :=
  s.date.epochDays * 86400 + (s.hour * 3600 + s.minute * 60 + s.second : Int) - s.offset * 60

def epochNanoseconds (s : Stamp) : Int :=
  s.epochSeconds * 1000000000 + s.nanosecond

/-- Milliseconds since the start of 1970, cut off toward zero. -/
def epochMilliseconds (s : Stamp) : Int :=
  Int.tdiv s.epochNanoseconds 1000000

/--
Whether the stamp is in the last second of a month in universal time, where the
day is the local one or a neighbour of it.
-/
def endsMonth (s : Stamp) : Bool :=
  let shift := s.epochSeconds.ediv 86400 - s.date.epochDays
  let day := s.date.day + shift
  s.epochSeconds.emod 86400 == 86399 &&
    (day == 0 || day == Date.daysInMonth s.date.year s.date.month)

/-! ## Reading -/

def digit? (c : Char) : Option Nat :=
  if '0' ≤ c ∧ c ≤ '9' then some (c.toNat - '0'.toNat) else none

def number? (count : Nat) (cs : List Char) : Option (Nat × List Char) :=
  if cs.length < count then none
  else
    match (cs.take count).mapM digit? with
    | some digits => some (digits.foldl (fun n d => n * 10 + d) 0, cs.drop count)
    | none => none

def mark? (c : Char) : List Char → Option (List Char)
  | [] => none
  | d :: rest => if d = c then some rest else none

/-- Nanoseconds of the digits after the point; those past the ninth are dropped. -/
def nanosecondsOf (digits : List Nat) : Nat :=
  (digits.take 9 ++ List.replicate (9 - digits.length) 0).foldl (fun n d => n * 10 + d) 0

def fraction? (cs : List Char) : Option (Nat × List Char) :=
  match cs with
  | '.' :: rest =>
    let digits := rest.takeWhile fun c => (digit? c).isSome
    if digits.isEmpty then none
    else some (nanosecondsOf (digits.filterMap digit?), rest.drop digits.length)
  | _ => some (0, cs)

/-- `Z`, or a sign with hours and minutes, in minutes east of universal time. -/
def offset? (cs : List Char) : Option Int :=
  match cs with
  | ['Z'] => some 0
  | ['z'] => some 0
  | sign :: rest =>
    if sign = '+' ∨ sign = '-' then do
      let (hours, rest) ← number? 2 rest
      let rest ← mark? ':' rest
      let (minutes, rest) ← number? 2 rest
      if rest.isEmpty ∧ hours ≤ 23 ∧ minutes ≤ 59 then
        let total : Int := hours * 60 + minutes
        some (if sign = '-' then -total else total)
      else none
    else none
  | [] => none

/-- Any character of one octet may stand between the date and the time. -/
def separator? : List Char → Option (List Char)
  | [] => none
  | c :: rest => if c.toNat < 0x80 then some rest else none

/-- Reads a stamp; the second 60 is read as the last instant of second 59. -/
def ofChars? (cs : List Char) : Option Stamp := do
  let (year, cs) ← number? 4 cs
  let cs ← mark? '-' cs
  let (month, cs) ← number? 2 cs
  let cs ← mark? '-' cs
  let (day, cs) ← number? 2 cs
  let cs ← separator? cs
  let (hour, cs) ← number? 2 cs
  let cs ← mark? ':' cs
  let (minute, cs) ← number? 2 cs
  let cs ← mark? ':' cs
  let (second, cs) ← number? 2 cs
  let (nanosecond, cs) ← fraction? cs
  let offset ← offset? cs
  let date : Date := ⟨year, month, day⟩
  if date.isValid ∧ hour ≤ 23 ∧ minute ≤ 59 then
    if second ≤ 59 then some ⟨date, hour, minute, second, nanosecond, offset⟩
    else if second = 60 then
      let stamp : Stamp := ⟨date, hour, minute, 59, 999999999, offset⟩
      if stamp.endsMonth then some stamp else none
    else none
  else none

def ofString? (s : String) : Option Stamp :=
  ofChars? s.toList

end Stamp

/--
The milliseconds of the stamp written between blanks; where there is none, the
clock reading `now`.
-/
def millisecondsLenient (now : Int64) (s : String) : Int64 :=
  match Stamp.ofString? (Text.trim s) with
  | some stamp => Int64.ofInt stamp.epochMilliseconds
  | none => now

end Time
end Courier
