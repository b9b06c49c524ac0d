import ObjectMapping.Text.Integer

/-!
# Dates and times in a configuration

A moment is a date, a time of day, or a date and a time with an optional offset.  Every part
has a fixed number of digits; only a fraction of a second has any number of them.  Seconds
may be left out, and a minute may have a sixty-first second.
-/

namespace ObjectMapping.Toml

/-- Reads a number of exactly so many digits. -/
def readDigits (width : Nat) (cs : List Char) : Option (Nat × List Char) := do
  let digits := cs.takeWhile Char.isDigit
  if digits.length = width then some (← digitsValue digits, cs.drop width) else none

/-- Reads one given character. -/
def readMark (mark : Char) : List Char → Option (List Char)
  | [] => none
  | c :: cs => if c = mark then some cs else none

/-- The number of days of a month. -/
def daysOfMonth (year month : Nat) : Nat :=
  if month = 2 then
    if year % 4 = 0 ∧ (year % 100 ≠ 0 ∨ year % 400 = 0) then 29 else 28
  else if month ∈ [4, 6, 9, 11] then 30
  else 31

/-- Reads a date and returns what follows it. -/
def readDate (cs : List Char) : Option (List Char) := do
  let (year, cs) ← readDigits 4 cs
  let (month, cs) ← readDigits 2 (← readMark '-' cs)
  let (day, cs) ← readDigits 2 (← readMark '-' cs)
  if 1 ≤ month ∧ month ≤ 12 ∧ 1 ≤ day ∧ day ≤ daysOfMonth year month then some cs else none

/-- Reads the seconds of a time, if it has any, with their fraction. -/
def readSeconds (cs : List Char) : Option (List Char) :=
  match readMark ':' cs with
  | none => some cs
  | some cs => do
    let (second, cs) ← readDigits 2 cs
    if second > 60 then none
    else
      match readMark '.' cs with
      | none => some cs
      | some cs =>
        if cs.head?.any Char.isDigit then some (cs.dropWhile Char.isDigit) else none

/-- Reads an hour and a minute. -/
def readClock (cs : List Char) : Option (List Char) := do
  let (hour, cs) ← readDigits 2 cs
  let (minute, cs) ← readDigits 2 (← readMark ':' cs)
  if hour ≤ 23 ∧ minute ≤ 59 then some cs else none

/-- Reads a time of day and returns what follows it. -/
def readTime (cs : List Char) : Option (List Char) := do readSeconds (← readClock cs)

/-- Whether these characters are nothing, or the offset of a time. -/
def isOffset : List Char → Bool
  | [] => true
  | 'Z' :: cs | 'z' :: cs => cs.isEmpty
  | '+' :: cs | '-' :: cs => readClock cs = some []
  | _ => false

/-- Whether these characters are a moment. -/
def isMoment (cs : List Char) : Bool :=
  match readDate cs with
  | none => readTime cs = some []
  | some [] => true
  | some (c :: rest) => (c = 'T' || c = 't' || c = ' ') && (readTime rest).any isOffset

end ObjectMapping.Toml
