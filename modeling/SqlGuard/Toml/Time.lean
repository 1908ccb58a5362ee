/-!
# Dates and times of configuration files

Which words are dates, times of day, and dates with times. A date has to exist; a minute may have a
leap second.
-/

namespace SqlGuard.Toml

/-- The number that decimal digits are; there are none but digits. -/
def field? (digits : List Char) : Option Nat :=
  if digits.all Char.isDigit then
    some (digits.foldl (fun value d => 10 * value + (d.toNat - '0'.toNat)) 0)
  else none

/-- Whether a year has a day more than others. -/
def isLeapYear (year : Nat) : Bool := year % 4 == 0 && (year % 100 != 0 || year % 400 == 0)

/-- The number of days of a month. -/
def daysOfMonth (year month : Nat) : Nat :=
  if month = 2 then (if isLeapYear year then 29 else 28)
  else if month = 4 ∨ month = 6 ∨ month = 9 ∨ month = 11 then 30
  else 31

/-- What is behind the date that a word starts with. -/
def behindDate? : List Char → Option (List Char)
  | y₁ :: y₂ :: y₃ :: y₄ :: '-' :: m₁ :: m₂ :: '-' :: d₁ :: d₂ :: rest => do
    let year ← field? [y₁, y₂, y₃, y₄]
    let month ← field? [m₁, m₂]
    let day ← field? [d₁, d₂]
    if 1 ≤ month ∧ month ≤ 12 ∧ 1 ≤ day ∧ day ≤ daysOfMonth year month then some rest else none
  | _ => none

/-- What is behind the hour and minute that a word starts with. -/
def behindMinute? : List Char → Option (List Char)
  | h₁ :: h₂ :: ':' :: m₁ :: m₂ :: rest => do
    let hour ← field? [h₁, h₂]
    let minute ← field? [m₁, m₂]
    if hour ≤ 23 ∧ minute ≤ 59 then some rest else none
  | _ => none

/-- What is behind the fraction of a second that a word may start with. -/
def behindFraction : List Char → List Char
  | '.' :: d :: rest => if d.isDigit then rest.dropWhile Char.isDigit else '.' :: d :: rest
  | cs => cs

/-- What is behind the time of day that a word starts with. -/
def behindTime? (cs : List Char) : Option (List Char) := do
  match ← behindMinute? cs with
  | ':' :: s₁ :: s₂ :: rest =>
    let second ← field? [s₁, s₂]
    if second ≤ 60 then some (behindFraction rest) else none
  | _ => none

/-- Whether a word is an offset from universal time. -/
def isOffset : List Char → Bool
  | ['Z'] | ['z'] => true
  | '+' :: cs | '-' :: cs => behindMinute? cs == some []
  | _ => false

/-- Whether a word is a date. -/
def isDate (word : List Char) : Bool := behindDate? word == some []

/-- Whether a word is a time of day with an optional offset. -/
def isTimeWithOffset (word : List Char) : Bool :=
  (behindTime? word).any fun rest => rest.isEmpty || isOffset rest

/-- Whether a word is a date, a time of day, or both with a `T` between them. -/
def isTime (word : List Char) : Bool :=
  isDate word || behindTime? word == some [] ||
    match behindDate? word with
    | some ('T' :: rest) | some ('t' :: rest) => isTimeWithOffset rest
    | _ => false

end SqlGuard.Toml
