import ApiTypes.Filter.Results

/-!
# Points in time

A point in time is counted in microseconds from the start of 1970.  As a value
it is a number of seconds, a text, or an array of calendar fields: year, month
from zero, day, hour, minute, second, day of the week from Sunday, and day of
the year from zero.
-/

namespace ApiTypes.Filter.Time

/-- A date and a time of day. -/
structure Calendar where
  year : Int
  /-- From 1 on. -/
  month : Nat
  /-- From 1 on. -/
  day : Nat
  hour : Nat := 0
  minute : Nat := 0
  second : Nat := 0
  micros : Nat := 0
deriving DecidableEq, Repr

/-! ### Counting days -/

/-- How many days lie between the start of 1970 and a day.  Years are counted
from March on, so that a leap day is the last day of its year. -/
def dayNumber (year : Int) (month day : Nat) : Int :=
  let y := if month ≤ 2 then year - 1 else year
  let era := Int.fdiv y 400
  let yearOfEra := y - era * 400
  let dayOfYear := (153 * ((month + 9) % 12) + 2) / 5 + day - 1
  era * 146097 + yearOfEra * 365 + yearOfEra / 4 - yearOfEra / 100 + dayOfYear - 719468

def dateOf (dayNumber : Int) : Int × Nat × Nat :=
  let z := dayNumber + 719468
  let era := Int.fdiv z 146097
  let d := (z - era * 146097).toNat
  let yearOfEra := (d - d / 1460 + d / 36524 - d / 146096) / 365
  let dayOfYear := d - (365 * yearOfEra + yearOfEra / 4 - yearOfEra / 100)
  let m := (5 * dayOfYear + 2) / 153
  let day := dayOfYear - (153 * m + 2) / 5 + 1
  let month := if m < 10 then m + 3 else m - 9
  (yearOfEra + era * 400 + (if month ≤ 2 then 1 else 0), month, day)

def monthLength (year : Int) (month : Nat) : Nat :=
  let (y, m) := if month = 12 then (year + 1, 1) else (year, month + 1)
  (dayNumber y m 1 - dayNumber year month 1).toNat

def firstYear : Int := -262143

def lastYear : Int := 262142

namespace Calendar

def isValid (c : Calendar) : Bool :=
  firstYear ≤ c.year && c.year ≤ lastYear && 1 ≤ c.month && c.month ≤ 12 && 1 ≤ c.day &&
    c.day ≤ monthLength c.year c.month && c.hour < 24 && c.minute < 60 && c.second < 60

/-- The day, counted from the start of 1970. -/
def dayNumber (c : Calendar) : Int := Time.dayNumber c.year c.month c.day

def seconds (c : Calendar) : Int :=
  c.dayNumber * 86400 + (c.hour * 3600 + c.minute * 60 + c.second : Nat)

def weekday (c : Calendar) : Nat := ((c.dayNumber + 4) % 7).toNat

def yearDay (c : Calendar) : Nat := (c.dayNumber - Time.dayNumber c.year 1 1).toNat

/-- The date and time of microseconds from the start of 1970. -/
def ofMicros? (micros : Int) : Option Calendar :=
  let seconds := Int.fdiv micros 1000000
  let days := Int.fdiv seconds 86400
  let (year, month, day) := dateOf days
  let s := (seconds - days * 86400).toNat
  let c : Calendar := ⟨year, month, day, s / 3600, s / 60 % 60, s % 60,
    (micros - seconds * 1000000).toNat⟩
  if c.isValid then some c else none

end Calendar

/-! ### Values -/

def timestamp (seconds : Int) (micros : Nat) : Value :=
  if micros = 0 then .integer seconds
  else .ofFloat (Float.ofInt seconds + Float.ofNat micros / 1e6)

/-- The date and time of a number of seconds. -/
def ofSeconds? (v : Value) : Option Calendar :=
  match v with
  | .integer n => Calendar.ofMicros? (n * 1000000)
  | v => v.toFloat?.bind fun x => Calendar.ofMicros? (x * 1e6).toInt64.toInt

def fields (c : Calendar) : Value :=
  .array [.integer c.year, .integer (c.month - 1 : Nat), .integer c.day, .integer c.hour,
    .integer c.minute, .ofFloat (Float.ofNat c.second + Float.ofNat c.micros / 1e6),
    .integer c.weekday, .integer c.yearDay]

/-- A small number among the fields. -/
def natural? : Value → Option Nat
  | .integer n => if 0 ≤ n then some n.toNat else none
  | _ => none

def ofFields? : Value → Option Calendar
  | .array (.integer year :: month :: day :: hour :: minute :: second :: _) => do
    let x ← second.toFloat?
    if x < 0.0 then none
    else
      let c : Calendar := ⟨year, (← natural? month) + 1, ← natural? day, ← natural? hour,
        ← natural? minute, x.floor.toUInt64.toNat, ((x - x.floor) * 1e6).toUInt64.toNat⟩
      if c.isValid then some c else none
  | _ => none

/-- The date and time of seconds or of fields. -/
def ofValue? (v : Value) : Option Calendar :=
  match v with
  | .array _ => ofFields? v
  | v => ofSeconds? v

/-! ### Text -/

/-- A number with at least `width` digits. -/
def padded (width n : Nat) : String :=
  let digits := toString n
  "".pushn '0' (width - digits.length) ++ digits

/-- A number with a blank in place of a missing digit. -/
def spaced (n : Nat) : String := if n < 10 then " " ++ toString n else toString n

/-- A year with at least four digits, and a sign where that is needed. -/
def yearText (year : Int) : String :=
  if year < 0 then "-" ++ padded 4 year.natAbs
  else (if year < 10000 then "" else "+") ++ padded 4 year.natAbs

def monthNames : List String :=
  ["January", "February", "March", "April", "May", "June", "July", "August", "September",
    "October", "November", "December"]

def dayNames : List String :=
  ["Sunday", "Monday", "Tuesday", "Wednesday", "Thursday", "Friday", "Saturday"]

def clockHour (c : Calendar) : Nat := if c.hour % 12 = 0 then 12 else c.hour % 12

def short (name : String) : String := String.ofList (name.toList.take 3)

def abbreviated : Char → Option String
  | 'T' | 'X' => some "%H:%M:%S"
  | 'R' => some "%H:%M"
  | 'D' | 'x' => some "%m/%d/%y"
  | 'F' => some "%Y-%m-%d"
  | 'r' => some "%I:%M:%S %p"
  | 'c' => some "%a %b %e %H:%M:%S %Y"
  | _ => none

def fieldText (c : Calendar) : Char → Option String
  | 'Y' => some (yearText c.year)
  | 'C' => some (padded 2 (Int.fdiv c.year 100).natAbs)
  | 'y' => some (padded 2 (c.year % 100).toNat)
  | 'm' => some (padded 2 c.month)
  | 'B' => some (monthNames.getD (c.month - 1) "")
  | 'b' | 'h' => some (short (monthNames.getD (c.month - 1) ""))
  | 'd' => some (padded 2 c.day)
  | 'e' => some (spaced c.day)
  | 'A' => some (dayNames.getD c.weekday "")
  | 'a' => some (short (dayNames.getD c.weekday ""))
  | 'w' => some (toString c.weekday)
  | 'u' => some (toString (if c.weekday = 0 then 7 else c.weekday))
  | 'j' => some (padded 3 (c.yearDay + 1))
  | 'H' => some (padded 2 c.hour)
  | 'k' => some (spaced c.hour)
  | 'I' => some (padded 2 (clockHour c))
  | 'l' => some (spaced (clockHour c))
  | 'M' => some (padded 2 c.minute)
  | 'S' => some (padded 2 c.second)
  | 'p' => some (if c.hour < 12 then "AM" else "PM")
  | 'P' => some (if c.hour < 12 then "am" else "pm")
  | 'Z' => some "UTC"
  | 'z' => some "+0000"
  | 's' => some (toString c.seconds)
  | 'n' => some "\n"
  | 't' => some "\t"
  | '%' => some "%"
  | _ => none

/-- The text of a layout; fields stand behind percent signs. -/
def render (c : Calendar) : Nat → List Char → Option (List Char)
  | 0, _ => none
  | _ + 1, [] => some []
  | _ + 1, ['%'] => none
  | fuel + 1, '%' :: letter :: rest =>
    match abbreviated letter with
    | some layout => render c fuel (layout.toList ++ rest)
    | none => do
      let field ← fieldText c letter
      let rest ← render c fuel rest
      some (field.toList ++ rest)
  | fuel + 1, x :: rest => (render c fuel rest).map (x :: ·)

/-- How many steps `render` and `scan` take at most for a layout. -/
def steps (layout : List Char) : Nat := 24 * layout.length + 1

/-- The text of a date and time in some layout. -/
def format? (c : Calendar) (layout : String) : Option String :=
  (render c (steps layout.toList) layout.toList).map String.ofList

/-- The text of a date and time in the order of its fields. -/
def standardText (c : Calendar) (fraction : Bool) : String :=
  yearText c.year ++ "-" ++ padded 2 c.month ++ "-" ++ padded 2 c.day ++ "T" ++
    padded 2 c.hour ++ ":" ++ padded 2 c.minute ++ ":" ++ padded 2 c.second ++
    (if fraction then "." ++ padded 6 c.micros else "") ++ "Z"

/-! ### Reading text -/

def readNumber (least most : Nat) (s : List Char) : Option (Nat × List Char) :=
  let digits := (s.take most).takeWhile Char.isDigit
  if digits.length < least then none
  else some (digits.foldl (fun n d => 10 * n + (d.toNat - 48)) 0, s.drop digits.length)

def readChar (allowed : List Char) : List Char → Option (List Char)
  | c :: rest => if allowed.contains c then some rest else none
  | [] => none

/-- Reads a distance from UTC in seconds; a colon may stand in it. -/
def readOffset (s : List Char) : Option (Int × List Char) :=
  match s with
  | 'Z' :: rest | 'z' :: rest => some (0, rest)
  | sign :: rest => do
    if sign ≠ '+' ∧ sign ≠ '-' then none
    else
      let (hours, rest) ← readNumber 2 2 rest
      let rest := if rest.head? = some ':' then rest.drop 1 else rest
      let (minutes, rest) ← readNumber 2 2 rest
      if 60 ≤ minutes ∨ 24 ≤ hours then none
      else
        let n : Int := (hours * 3600 + minutes * 60 : Nat)
        some (if sign = '-' then -n else n, rest)
  | [] => none

/-- Reads a fraction of a second in microseconds, if there is one. -/
def readFraction : List Char → Option (Nat × List Char)
  | '.' :: rest => do
    let digits := rest.takeWhile Char.isDigit
    let (n, _) ← readNumber 1 6 rest
    some (n * Nat.pow 10 (6 - min 6 digits.length), rest.drop digits.length)
  | rest => some (0, rest)

/-- Reads a date and time in the order of its fields, in seconds and microseconds
from the start of 1970. -/
def readStandard (text : String) : Option (Int × Nat) := do
  let (year, s) ← readNumber 4 4 text.toList
  let (month, s) ← readNumber 2 2 (← readChar ['-'] s)
  let (day, s) ← readNumber 2 2 (← readChar ['-'] s)
  let (hour, s) ← readNumber 2 2 (← readChar ['T', 't', ' '] s)
  let (minute, s) ← readNumber 2 2 (← readChar [':'] s)
  let (second, s) ← readNumber 2 2 (← readChar [':'] s)
  let (micros, s) ← readFraction s
  let (offset, s) ← readOffset s
  let c : Calendar := { year, month, day, hour, minute, second }
  if s.isEmpty ∧ c.isValid then some (c.seconds - offset, micros) else none

/-- What has been read of a date and time. -/
structure Draft where
  year : Option Int := none
  month : Option Nat := none
  day : Option Nat := none
  yearDay : Option Nat := none
  hour : Option Nat := none
  minute : Option Nat := none
  second : Nat := 0
  seconds : Option Int := none

/-- The date and time of what has been read. -/
def Draft.calendar? (d : Draft) : Option Calendar := do
  match d.seconds with
  | some n => Calendar.ofMicros? (n * 1000000)
  | none =>
    let year ← d.year
    let (month, day) ← match d.month, d.day, d.yearDay with
      | some month, some day, _ => some (month, day)
      | _, _, some n => if n = 0 then none else some (dateOf (dayNumber year 1 1 + (n - 1))).2
      | _, _, _ => none
    let c : Calendar := ⟨year, month, day, ← d.hour, ← d.minute, d.second, 0⟩
    if c.isValid then some c else none

/-- Reads one of several names or its short form; its place among them. -/
def readName (names : List String) (s : List Char) : Option (Nat × List Char) :=
  let starts (name : String) : Bool :=
    (name.toList.map Char.toLower).isPrefixOf (s.map Char.toLower)
  match names.findIdx? starts with
  | some i => some (i, s.drop (names.getD i "").length)
  | none => (names.findIdx? fun name => starts (short name)).map fun i => (i, s.drop 3)

def readField (d : Draft) (letter : Char) (s : List Char) : Option (Draft × List Char) := do
  let spaceless := s.dropWhile Char.isWhitespace
  match letter with
  | 'Y' =>
    let (n, s) ← readNumber 1 9 spaceless
    some ({ d with year := some n }, s)
  | 'm' =>
    let (n, s) ← readNumber 1 2 spaceless
    some ({ d with month := some n }, s)
  | 'd' | 'e' =>
    let (n, s) ← readNumber 1 2 spaceless
    some ({ d with day := some n }, s)
  | 'j' =>
    let (n, s) ← readNumber 1 3 spaceless
    some ({ d with yearDay := some n }, s)
  | 'H' | 'k' =>
    let (n, s) ← readNumber 1 2 spaceless
    some ({ d with hour := some n }, s)
  | 'M' =>
    let (n, s) ← readNumber 1 2 spaceless
    some ({ d with minute := some n }, s)
  | 'S' =>
    let (n, s) ← readNumber 1 2 spaceless
    some ({ d with second := n }, s)
  | 's' =>
    let (n, s) ← readNumber 1 18 spaceless
    some ({ d with seconds := some n }, s)
  | 'B' | 'b' | 'h' =>
    let (i, s) ← readName monthNames s
    some ({ d with month := some (i + 1) }, s)
  | 'A' | 'a' =>
    let (_, s) ← readName dayNames s
    some (d, s)
  | 'Z' => some (d, s.dropWhile fun c => !c.isWhitespace)
  | 'z' =>
    let (_, s) ← readOffset spaceless
    some (d, s)
  | 'n' | 't' => some (d, spaceless)
  | '%' => some (d, ← readChar ['%'] s)
  | _ => none

/-- Reads text in a layout; blanks in the layout stand for any number of blanks. -/
def scan : Nat → Draft → (layout text : List Char) → Option Draft
  | 0, _, _, _ => none
  | _ + 1, d, [], s => if s.isEmpty then some d else none
  | _ + 1, _, ['%'], _ => none
  | fuel + 1, d, '%' :: letter :: rest, s =>
    match abbreviated letter with
    | some layout => scan fuel d (layout.toList ++ rest) s
    | none => do
      let (d, s) ← readField d letter s
      scan fuel d rest s
  | fuel + 1, d, x :: rest, s =>
    if x.isWhitespace then scan fuel d rest (s.dropWhile Char.isWhitespace)
    else (readChar [x] s).bind (scan fuel d rest)

/-- Reads a date and time in some layout. -/
def parse? (text layout : String) : Option Calendar :=
  (scan (steps layout.toList) {} layout.toList text.toList).bind Draft.calendar?

/-! ### Filters -/

/-- The error that a value is no point in time. -/
def refuse (v : Value) : Except Exception Value :=
  .error (.text ("cannot use " ++ v.text ++ " as a point in time"))

/-- The fields of a number of seconds. -/
def split (v : Value) : Except Exception Value :=
  match ofSeconds? v with
  | some c => .ok (fields c)
  | none => refuse v

/-- The number of seconds of fields. -/
def join (v : Value) : Except Exception Value :=
  match ofFields? v with
  | some c => .ok (timestamp c.seconds c.micros)
  | none => refuse v

/-- The text of a number of seconds. -/
def toStandard (v : Value) : Except Exception Value :=
  match ofSeconds? v, v with
  | some c, .integer _ => .ok (.string (standardText c false))
  | some c, _ => .ok (.string (standardText c true))
  | none, v => refuse v

/-- The number of seconds of a text. -/
def ofStandard (v : Value) : Except Exception Value :=
  match v with
  | .string s =>
    match readStandard s with
    | some (seconds, micros) => .ok (timestamp seconds micros)
    | none => refuse v
  | v => refuse v

/-- The text of seconds or fields in a layout. -/
def format (layout v : Value) : Except Exception Value :=
  match layout, ofValue? v with
  | .string layout, some c =>
    match format? c layout with
    | some s => .ok (.string s)
    | none => refuse v
  | _, _ => refuse v

def parse (layout v : Value) : Except Exception Value :=
  match layout, v with
  | .string layout, .string s =>
    match parse? s layout with
    | some c => .ok (fields c)
    | none => refuse v
  | _, v => refuse v

end ApiTypes.Filter.Time
