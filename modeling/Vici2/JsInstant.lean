import Vici2.JsDate

/-! Instants of the language as ISO 8601 texts, and back. -/

namespace Vici2

namespace JsDate

open IsoTime

/-- A year outside of 0 to 9999 is written with a sign and six digits. -/
def toISOString (t : Int) : List Char :=
  let y := year t
  (if 0 ≤ y ∧ y ≤ 9999 then fixedDigits 4 y.toNat
    else (if y < 0 then '-' else '+') :: fixedDigits 6 y.natAbs) ++ (millisText t).drop 4 ++ ['Z']

def parseClock : List Char → Option Nat
  | [a, b, ':', c, d, ':', e, f, '.', g, h, i, 'Z'] =>
    (digits [a, b]).bind fun hour => (digits [c, d]).bind fun minute =>
      (digits [e, f]).bind fun second => (digits [g, h, i]).bind fun ms =>
        if hour < 24 ∧ minute < 60 ∧ second < 60 then
          some (hour * 3600000 + minute * 60000 + second * 1000 + ms)
        else none
  | _ => none

def parseInstant (text : List Char) : Option Int :=
  match text.drop 10 with
  | 'T' :: rest => (parseDay (text.take 10)).bind fun day =>
      (parseClock rest).map fun (clock : Nat) => day * msPerDay + clock
  | _ => none

/-- `new Date` of a text. What an engine makes of other forms is its own affair. -/
def newDate (fallback : List Char → Option Int) (text : List Char) : Option Int :=
  match parseInstant text with
  | some t => timeClip t
  | none => fallback text

theorem fixedDigits_two (n : Nat) :
    fixedDigits 2 n = [Nat.digitChar (n / 10 % 10), Nat.digitChar (n % 10)] := by
  simp [fixedDigits, List.range_succ]

theorem parseClock_fixedDigits {h m s u : Nat} (hh : h < 24) (hm : m < 60) (hs : s < 60)
    (hu : u < 1000) :
    parseClock (fixedDigits 2 h ++ ':' :: fixedDigits 2 m ++ ':' :: fixedDigits 2 s ++
      '.' :: fixedDigits 3 u ++ ['Z']) = some (h * 3600000 + m * 60000 + s * 1000 + u) := by
  have hhour : digits (fixedDigits 2 h) = some h := digits_of_lt (by omega)
  have hminute : digits (fixedDigits 2 m) = some m := digits_of_lt (by omega)
  have hsecond : digits (fixedDigits 2 s) = some s := digits_of_lt (by omega)
  have hmilli : digits (fixedDigits 3 u) = some u := digits_of_lt (by omega)
  rw [fixedDigits_two] at hhour hminute hsecond
  rw [fixedDigits_three] at hmilli
  rw [fixedDigits_two, fixedDigits_two, fixedDigits_two, fixedDigits_three]
  simp only [List.cons_append, List.nil_append, parseClock, hhour, hminute, hsecond, hmilli,
    Option.bind_some, if_pos (And.intro hh (And.intro hm hs))]

theorem toISOString_eq {t : Int} (h : 0 ≤ year t ∧ year t ≤ 9999) :
    toISOString t = millisText t ++ ['Z'] := by
  have hday : t / 1000 / 86400 = t / msPerDay := by
    unfold msPerDay
    omega
  have hyear : (millisText t).take 4 = fixedDigits 4 (year t).toNat := by
    unfold millisText secondsText dateText
    dsimp only
    rw [hday]
    simp only [List.append_assoc]
    rw [List.take_append_of_le_length (by rw [length_fixedDigits]),
      List.take_of_length_le (by rw [length_fixedDigits])]
    rfl
  unfold toISOString
  dsimp only
  rw [if_pos h, ← hyear, List.take_append_drop]

theorem parseInstant_toISOString {t : Int} (h : 0 ≤ year t ∧ year t ≤ 9999) :
    parseInstant (toISOString t) = some t := by
  have hday : t / 1000 / 86400 = t / msPerDay := by
    unfold msPerDay
    omega
  have hclock := parseClock_fixedDigits (h := (t / 1000 % 86400).toNat / 3600)
    (m := (t / 1000 % 86400).toNat / 60 % 60) (s := (t / 1000 % 86400).toNat % 60)
    (u := (t % 1000).toNat) (by omega) (by omega) (by omega) (by omega)
  have htext : toISOString t = dateText (t / msPerDay) ++ 'T' ::
      (fixedDigits 2 ((t / 1000 % 86400).toNat / 3600) ++
        ':' :: fixedDigits 2 ((t / 1000 % 86400).toNat / 60 % 60) ++
        ':' :: fixedDigits 2 ((t / 1000 % 86400).toNat % 60) ++
        '.' :: fixedDigits 3 (t % 1000).toNat ++ ['Z']) := by
    rw [toISOString_eq h]
    unfold millisText secondsText
    dsimp only
    rw [hday]
    simp only [List.append_assoc, List.cons_append]
  have hlen := length_dateText (t / msPerDay)
  unfold parseInstant
  rw [htext, List.drop_append_of_le_length (by omega), List.drop_of_length_le (by omega),
    List.take_append_of_le_length (by omega), List.take_of_length_le (by omega), List.nil_append]
  simp only [parseDay_dateText h.1 h.2, hclock, Option.bind_some, Option.map_some]
  congr 1
  unfold msPerDay
  omega

theorem newDate_toISOString (fallback : List Char → Option Int) {t : Int}
    (h : 0 ≤ year t ∧ year t ≤ 9999) : newDate fallback (toISOString t) = some t := by
  unfold newDate
  rw [parseInstant_toISOString h]
  dsimp only
  unfold timeClip
  apply if_pos
  have hz := daysFromCivil_civil (t / msPerDay)
  obtain ⟨hm, hd⟩ := civil_month_day (t / msPerDay)
  unfold year at h
  unfold daysFromCivil at hz
  dsimp only at hz
  unfold maxTime
  unfold msPerDay at h hz hm hd
  split_ifs at hz <;> omega

end JsDate

end Vici2
