import Mathlib.Data.Int.Init
import Mathlib.Data.Rat.Floor

/-! Go's `time` and number formatting, as far as the dialer uses them. An
instant counts nanoseconds from the zero time, a duration is a signed 64-bit
nanosecond count, and float values are exact rationals. -/

namespace Vici2

abbrev Instant := Int

abbrev Duration := Int

def nsPerSecond : Int := 1000000000

def int64 (n : Int) : Int := n.bmod (2 ^ 64)

def Instant.isZero (t : Instant) : Bool := t == 0

/-- `Time.Sub`, which saturates at the ends of the duration range. -/
def Instant.sub (t u : Instant) : Duration :=
  max (-(2 ^ 63)) (min (2 ^ 63 - 1) (t - u))

def seconds (n : Int) : Duration := int64 (n * nsPerSecond)

def Duration.toSeconds (d : Duration) : ℚ := (d : ℚ) / nsPerSecond

def unixEpoch : Int := 62135596800 * nsPerSecond

/-- `time.UnixMilli`. -/
def unixMilli (tsMs : Int) : Instant := unixEpoch + tsMs * 1000000

/-- `Time.UnixMilli`. -/
def Instant.toUnixMilli (t : Instant) : Int := (t - unixEpoch) / 1000000

def nsPerMinute : Int := 60 * nsPerSecond

def nsPerHour : Int := 60 * nsPerMinute

def nsPerDay : Int := 24 * nsPerHour

/-- A time zone: how far the wall clock is ahead of UTC at an instant. -/
structure Location where
  offset : Int → Int

def Location.wall (loc : Location) (t : Int) : Int := t + loc.offset t

/-- `time.Date`: the offset is looked up as if the wall clock were UTC, and
once more at the instant this gives. -/
def Location.fromWall (loc : Location) (wall : Int) : Int :=
  wall - loc.offset (wall - loc.offset wall)

def Location.addDays (loc : Location) (t : Int) (n : Int) : Int :=
  loc.fromWall (loc.wall t + n * nsPerDay)

def dayOf (wall : Int) : Int := wall / nsPerDay

/-- `Time.Weekday`, Sunday first; day zero is a Monday. -/
def weekday (day : Int) : Fin 7 := ⟨((day + 1) % 7).toNat, by omega⟩

def clockHour (wall : Int) : Int := wall % nsPerDay / nsPerHour

def clockMinute (wall : Int) : Int := wall % nsPerHour / nsPerMinute

def clockSecond (wall : Int) : Int := wall % nsPerMinute / nsPerSecond

/-- The text of an instant in RFC 3339 form, named by the whole second it shows. -/
def formatRFC3339 (t : Instant) : Int := t / nsPerSecond

def parseRFC3339 (text : Int) : Instant := text * nsPerSecond

def roundHalfEven (q : ℚ) : Int :=
  let f := ⌊q⌋
  if q - f < 1 / 2 then f
  else if 1 / 2 < q - f then f + 1
  else if f % 2 = 0 then f else f + 1

/-- The number that the text `%.nf` of `q` shows. -/
def fixedValue (n : Nat) (q : ℚ) : ℚ := roundHalfEven (q * 10 ^ n) / 10 ^ n

def fixedText (n : Nat) (q : ℚ) : String :=
  let k := (roundHalfEven (|q| * 10 ^ n)).toNat
  let frac := toString (k % 10 ^ n)
  (if q < 0 then "-" else "") ++ toString (k / 10 ^ n) ++ "." ++
    String.ofList (List.replicate (n - frac.length) '0') ++ frac

end Vici2
