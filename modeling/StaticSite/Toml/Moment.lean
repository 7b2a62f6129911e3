import StaticSite.Text.Numeral

/-!
Dates and times of day, alone or together, with or without an offset from universal time. Reading checks
that the date exists; writing gives one text to each moment.
-/

namespace StaticSite.Toml

structure Date where
  year : Nat
  month : Nat
  day : Nat
deriving DecidableEq, Repr

/-- A time of day. The fraction of a second is a list of at most nine digits, the last of them not
zero. -/
structure Clock where
  hour : Nat
  minute : Nat
  second : Nat
  fraction : List Char
deriving DecidableEq, Repr

inductive Offset
  | universal
  /-- Minutes ahead of universal time. -/
  | ahead (minutes : Int)
deriving DecidableEq, Repr

/-- What can be written as a moment: at least one of a date and a time of day. -/
structure Moment where
  date? : Option Date
  clock? : Option Clock
  offset? : Option Offset
deriving DecidableEq, Repr

def isLeapYear (year : Nat) : Bool := year % 4 == 0 && (year % 100 != 0 || year % 400 == 0)

def daysIn (year month : Nat) : Nat :=
  match month with
  | 2 => if isLeapYear year then 29 else 28
  | 4 | 6 | 9 | 11 => 30
  | _ => 31

/-- A number of exactly so many decimal digits at the start of a text. -/
def fixedNumber? (count : Nat) (cs : List Char) : Option (Nat × List Char) :=
  if cs.length < count then none
  else (Text.numeral? 10 (cs.take count)).map fun n => (n, cs.drop count)

/-- What follows a character that a text has to begin with. -/
def expect? (c : Char) (cs : List Char) : Option (List Char) :=
  if cs.head? == some c then some (cs.drop 1) else none

/-- A date such as `2024-02-29` at the start of a text. -/
def readDate? (cs : List Char) : Option (Date × List Char) := do
  let (year, cs) ← fixedNumber? 4 cs
  let cs ← expect? '-' cs
  let (month, cs) ← fixedNumber? 2 cs
  let cs ← expect? '-' cs
  let (day, cs) ← fixedNumber? 2 cs
  if 1 ≤ month && month ≤ 12 && 1 ≤ day && day ≤ daysIn year month then
    some (⟨year, month, day⟩, cs)
  else none

/-- Seconds from behind the minutes: nothing, or a colon, two digits and a fraction if there is one. -/
def readSeconds? (cs : List Char) : Option (Nat × List Char × List Char) :=
  match cs with
  | ':' :: cs => do
    let (second, cs) ← fixedNumber? 2 cs
    match cs with
    | '.' :: cs =>
      let digits := cs.takeWhile (Text.isDigitIn 10)
      if digits.isEmpty then none
      else
        let kept := ((digits.take 9).reverse.dropWhile (· == '0')).reverse
        some (second, kept, cs.dropWhile (Text.isDigitIn 10))
    | cs => some (second, [], cs)
  | cs => some (0, [], cs)

/-- A time of day such as `07:32:00.5` at the start of a text. A minute may have a leap second. -/
def readClock? (cs : List Char) : Option (Clock × List Char) := do
  let (hour, cs) ← fixedNumber? 2 cs
  let cs ← expect? ':' cs
  let (minute, cs) ← fixedNumber? 2 cs
  let (second, fraction, cs) ← readSeconds? cs
  if hour ≤ 23 && minute ≤ 59 && second ≤ 60 then some (⟨hour, minute, second, fraction⟩, cs)
  else none

/-- A whole text as an offset. -/
def readOffset? (cs : List Char) : Option Offset :=
  match cs with
  | ['Z'] | ['z'] => some .universal
  | sign :: cs =>
    if sign != '+' && sign != '-' then none
    else do
      let (hours, cs) ← fixedNumber? 2 cs
      let cs ← expect? ':' cs
      let (minutes, cs) ← fixedNumber? 2 cs
      let total : Int := hours * 60 + minutes
      if hours ≤ 23 && minutes ≤ 59 && cs.isEmpty then
        some (.ahead (if sign == '-' then -total else total))
      else none
  | [] => none

/-- Whether a character may stand between a date and a time of day. -/
def isDateEnd (c : Char) : Bool := c == 'T' || c == 't' || c == ' '

/-- A whole text as a moment. An offset needs both a date and a time of day. -/
def Moment.read? (cs : List Char) : Option Moment :=
  match readDate? cs with
  | some (date, []) => some ⟨some date, none, none⟩
  | some (date, c :: cs) =>
    if !isDateEnd c then none
    else do
      let (clock, cs) ← readClock? cs
      if cs.isEmpty then some ⟨some date, some clock, none⟩
      else (readOffset? cs).map fun offset => ⟨some date, some clock, some offset⟩
  | none =>
    match readClock? cs with
    | some (clock, []) => some ⟨none, some clock, none⟩
    | _ => none

/-- A number filled up with zeros in front. -/
def padded (width n : Nat) : List Char :=
  let digits := Nat.toDigits 10 n
  List.replicate (width - digits.length) '0' ++ digits

def Date.chars (date : Date) : List Char :=
  padded 4 date.year ++ '-' :: padded 2 date.month ++ '-' :: padded 2 date.day

def Clock.chars (clock : Clock) : List Char :=
  padded 2 clock.hour ++ ':' :: padded 2 clock.minute ++ ':' :: padded 2 clock.second ++
    (if clock.fraction.isEmpty then [] else '.' :: clock.fraction)

def Offset.chars : Offset → List Char
  | .universal => ['Z']
  | .ahead minutes =>
    let size := minutes.natAbs
    (if minutes < 0 then '-' else '+') :: padded 2 (size / 60) ++ ':' :: padded 2 (size % 60)

/-- The text of a moment, with a `T` between date and time of day. -/
def Moment.text (moment : Moment) : String :=
  let date := moment.date?.elim [] Date.chars
  let clock := moment.clock?.elim [] Clock.chars
  let between := if date.isEmpty || clock.isEmpty then [] else ['T']
  String.ofList (date ++ between ++ clock ++ moment.offset?.elim [] Offset.chars)

end StaticSite.Toml
