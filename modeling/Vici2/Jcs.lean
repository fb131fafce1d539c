import Vici2.Delimited
import Mathlib.Data.List.Nodup
import Mathlib.Data.List.Perm.Subperm

/-! The canonical JSON texts of the API. Strings are those of the language, the
UTF-16 code units in a list, whether or not the surrogates among them pair up.
Two values have the same text just when they are equal as JSON. -/

namespace Vici2

namespace Jcs

open Delimited

abbrev Units := List Nat

def ascii (s : String) : Units := s.toList.map Char.toNat

abbrev quote : Nat := 34
abbrev comma : Nat := 44
abbrev colon : Nat := 58
abbrev openBracket : Nat := 91
abbrev backslash : Nat := 92
abbrev closeBracket : Nat := 93
abbrev openBrace : Nat := 123
abbrev closeBrace : Nat := 125

inductive Value (ν : Type*)
  | null
  | bool (b : Bool)
  | num (n : ν)
  | str (s : Units)
  | arr (l : List (Value ν))
  | obj (l : List (Units × Value ν))

def numberUnits : Units := ascii "0123456789+-.eE"

/-- The texts of the finite numbers; zero and minus zero are one number. -/
structure NumberText (ν : Type*) where
  text : ν → Units
  chars : ∀ n, ∀ u ∈ text n, u ∈ numberUnits
  ne_nil : ∀ n, text n ≠ []
  inj : ∀ m n, text m = text n → m = n

section Strings

def hexUnit (n : Nat) : Nat := if n < 10 then 48 + n else 87 + n

def unicodeEscape (u : Nat) : Units :=
  [backslash, 117, hexUnit (u / 4096 % 16), hexUnit (u / 256 % 16), hexUnit (u / 16 % 16),
    hexUnit (u % 16)]

def shortEscape : Nat → Option Nat
  | 8 => some 98
  | 9 => some 116
  | 10 => some 110
  | 12 => some 102
  | 13 => some 114
  | 34 => some 34
  | 92 => some 92
  | _ => none

def isHigh (u : Nat) : Bool := decide (0xd800 ≤ u) && decide (u ≤ 0xdbff)

def isLow (u : Nat) : Bool := decide (0xdc00 ≤ u) && decide (u ≤ 0xdfff)

def escapeUnit (u : Nat) : Units :=
  match shortEscape u with
  | some e => [backslash, e]
  | none => if u < 32 ∨ isHigh u ∨ isLow u then unicodeEscape u else [u]

/-- Only surrogates that pair up stand for themselves. -/
def escapeUnits : Units → Units
  | [] => []
  | [u] => escapeUnit u
  | u :: v :: rest =>
    if isHigh u ∧ isLow v then u :: v :: escapeUnits rest
    else escapeUnit u ++ escapeUnits (v :: rest)

/-- `JSON.stringify` of a string. -/
def stringify (s : Units) : Units := quote :: (escapeUnits s ++ [quote])

def escapeSeparator (u : Nat) : Units :=
  if u = 0x2028 ∨ u = 0x2029 then unicodeEscape u else [u]

def serializeString (s : Units) : Units := (stringify s).flatMap escapeSeparator

end Strings

def keyLe (a b : Units) : Bool := !b.lex a

def sortKeys (l : List (Units × Units)) : List (Units × Units) :=
  l.mergeSort fun a b => keyLe a.1 b.1

def memberText (m : Units × Units) : Units := serializeString m.1 ++ colon :: m.2

variable {ν : Type*} (N : NumberText ν)

mutual

def serializeValue : Value ν → Units
  | .null => ascii "null"
  | .bool true => ascii "true"
  | .bool false => ascii "false"
  | .num n => N.text n
  | .str s => serializeString s
  | .arr l => openBracket :: (join comma (serializeArray l) ++ [closeBracket])
  | .obj l => openBrace ::
      (join comma ((sortKeys (serializeMembers l)).map memberText) ++ [closeBrace])

def serializeArray : List (Value ν) → List Units
  | [] => []
  | v :: l => serializeValue v :: serializeArray l

def serializeMembers : List (Units × Value ν) → List (Units × Units)
  | [] => []
  | (k, v) :: l => (k, serializeValue v) :: serializeMembers l

end

mutual

/-- The keys of an object are distinct. -/
def UniqueKeys : Value ν → Prop
  | .arr l => UniqueKeysAll l
  | .obj l => (l.map Prod.fst).Nodup ∧ UniqueKeysMembers l
  | _ => True

def UniqueKeysAll : List (Value ν) → Prop
  | [] => True
  | v :: l => UniqueKeys v ∧ UniqueKeysAll l

def UniqueKeysMembers : List (Units × Value ν) → Prop
  | [] => True
  | (_, v) :: l => UniqueKeys v ∧ UniqueKeysMembers l

end

mutual

/-- Equal as JSON: the members of an object have no order. -/
def Same : Value ν → Value ν → Prop
  | .null, .null => True
  | .bool a, .bool b => a = b
  | .num m, .num n => m = n
  | .str s, .str t => s = t
  | .arr l, .arr l' => SameAll l l'
  | .obj l, .obj l' => l.length = l'.length ∧ SameMembers l l'
  | _, _ => False

def SameAll : List (Value ν) → List (Value ν) → Prop
  | [], [] => True
  | v :: l, w :: l' => Same v w ∧ SameAll l l'
  | _, _ => False

def SameMembers : List (Units × Value ν) → List (Units × Value ν) → Prop
  | [], _ => True
  | (k, v) :: l, l' => (∃ w, (k, w) ∈ l' ∧ Same v w) ∧ SameMembers l l'

end

section Strings

def unhexUnit (u : Nat) : Nat := if u < 58 then u - 48 else u - 87

def unhexUnits (a b c d : Nat) : Nat :=
  unhexUnit a * 4096 + unhexUnit b * 256 + unhexUnit c * 16 + unhexUnit d

def unshort : Nat → Nat
  | 98 => 8
  | 116 => 9
  | 110 => 10
  | 102 => 12
  | 114 => 13
  | e => e

/-- The string up to the closing quote, and what follows it. -/
def unquote : Units → Option (Units × Units)
  | [] => none
  | u :: rest =>
    if u = quote then some ([], rest)
    else if u = backslash then
      match rest with
      | 117 :: a :: b :: c :: d :: rest =>
        (unquote rest).map fun r => (unhexUnits a b c d :: r.1, r.2)
      | e :: rest => (unquote rest).map fun r => (unshort e :: r.1, r.2)
      | [] => none
    else (unquote rest).map fun r => (u :: r.1, r.2)

/-- The text `t` is read as the unit `u`. -/
def ReadAs (u : Nat) (t : Units) : Prop :=
  ∀ rest, unquote (t ++ rest) = (unquote rest).map fun r => (u :: r.1, r.2)

theorem unhexUnit_hexUnit {n : Nat} (h : n < 16) : unhexUnit (hexUnit n) = n := by
  unfold unhexUnit hexUnit
  split <;> split <;> omega

theorem readAs_unicodeEscape {u : Nat} (h : u < 65536) : ReadAs u (unicodeEscape u) := by
  intro rest
  have hvalue : unhexUnits (hexUnit (u / 4096 % 16)) (hexUnit (u / 256 % 16))
      (hexUnit (u / 16 % 16)) (hexUnit (u % 16)) = u := by
    unfold unhexUnits
    rw [unhexUnit_hexUnit (by omega), unhexUnit_hexUnit (by omega), unhexUnit_hexUnit (by omega),
      unhexUnit_hexUnit (by omega)]
    omega
  have hne : backslash ≠ quote := by decide
  unfold unicodeEscape
  simp [unquote, hne, hvalue]

theorem readAs_self {u : Nat} (hq : u ≠ quote) (hb : u ≠ backslash) : ReadAs u [u] := by
  intro rest
  rw [List.singleton_append, unquote.eq_def]
  simp only [if_neg hq, if_neg hb]

theorem readAs_shortEscape {u e : Nat} (h : shortEscape u = some e) : ReadAs u [backslash, e] := by
  intro rest
  have hne : backslash ≠ quote := by decide
  have hcases : e ≠ 117 ∧ unshort e = u := by
    unfold shortEscape at h
    split at h <;> cases h <;> decide
  simp [unquote, hne, hcases.1, hcases.2]

theorem ReadAs.cons {u : Nat} {t x s rest : Units} (h : ReadAs u t)
    (hx : unquote x = some (s, rest)) : unquote (t ++ x) = some (u :: s, rest) := by
  rw [h x, hx]
  rfl

theorem flatMap_escapeSeparator_of_ascii {t : Units} (h : ∀ u ∈ t, u < 128) :
    t.flatMap escapeSeparator = t := by
  induction t with
  | nil => rfl
  | cons u t ih =>
    have hu := h u List.mem_cons_self
    have hself : escapeSeparator u = [u] := by
      unfold escapeSeparator
      rw [if_neg (by omega)]
    rw [List.flatMap_cons, hself, ih fun v hv => h v (List.mem_cons_of_mem _ hv)]
    rfl

theorem hexUnit_lt {n : Nat} (h : n < 16) : 48 ≤ hexUnit n ∧ hexUnit n < 103 := by
  unfold hexUnit
  split <;> omega

theorem unicodeEscape_ascii (u : Nat) : ∀ v ∈ unicodeEscape u, 48 ≤ v ∧ v < 128 := by
  intro v hv
  have h1 := @hexUnit_lt (u / 4096 % 16) (by omega)
  have h2 := @hexUnit_lt (u / 256 % 16) (by omega)
  have h3 := @hexUnit_lt (u / 16 % 16) (by omega)
  have h4 := @hexUnit_lt (u % 16) (by omega)
  have hb : backslash = 92 := rfl
  simp only [unicodeEscape, List.mem_cons, List.not_mem_nil, or_false] at hv
  rcases hv with rfl | rfl | rfl | rfl | rfl | rfl <;> omega

theorem shortEscape_ascii {u e : Nat} (h : shortEscape u = some e) : 32 < e ∧ e < 128 := by
  unfold shortEscape at h
  split at h <;> cases h <;> decide

theorem shortEscape_none {u : Nat} (h : shortEscape u = none) : u ≠ quote ∧ u ≠ backslash := by
  constructor <;> rintro rfl <;> simp [shortEscape] at h

/-- The escape of one unit in `serializeString`. -/
def unitText (u : Nat) : Units := (escapeUnit u).flatMap escapeSeparator

theorem unitText_cases (u : Nat) :
    (∃ e, shortEscape u = some e ∧ unitText u = [backslash, e]) ∨
      (u < 65536 ∧ unitText u = unicodeEscape u) ∨
      (32 ≤ u ∧ u ≠ quote ∧ u ≠ backslash ∧ unitText u = [u]) := by
  unfold unitText escapeUnit
  cases hshort : shortEscape u with
  | some e =>
    left
    have hascii := shortEscape_ascii hshort
    have hb : backslash = 92 := rfl
    refine ⟨e, rfl, flatMap_escapeSeparator_of_ascii ?_⟩
    intro v hv
    simp only [List.mem_cons, List.not_mem_nil, or_false] at hv
    rcases hv with rfl | rfl <;> omega
  | none =>
    right
    obtain ⟨hq, hb⟩ := shortEscape_none hshort
    by_cases hesc : u < 32 ∨ isHigh u ∨ isLow u
    · left
      have hlt : u < 65536 := by
        simp only [isHigh, isLow, Bool.and_eq_true, decide_eq_true_eq] at hesc
        omega
      simp only [if_pos hesc]
      exact ⟨hlt, flatMap_escapeSeparator_of_ascii fun v hv => (unicodeEscape_ascii u v hv).2⟩
    · simp only [if_neg hesc, List.flatMap_cons, List.flatMap_nil, List.append_nil]
      unfold escapeSeparator
      by_cases hsep : u = 0x2028 ∨ u = 0x2029
      · left
        rw [if_pos hsep]
        exact ⟨by omega, rfl⟩
      · right
        rw [if_neg hsep]
        exact ⟨by omega, hq, hb, rfl⟩

theorem readAs_unitText (u : Nat) : ReadAs u (unitText u) := by
  rcases unitText_cases u with ⟨e, he, htext⟩ | ⟨hlt, htext⟩ | ⟨-, hq, hb, htext⟩
  · rw [htext]
    exact readAs_shortEscape he
  · rw [htext]
    exact readAs_unicodeEscape hlt
  · rw [htext]
    exact readAs_self hq hb

theorem surrogate_text {u : Nat} (h : isHigh u ∨ isLow u) :
    32 ≤ u ∧ u ≠ quote ∧ u ≠ backslash ∧ escapeSeparator u = [u] := by
  simp only [isHigh, isLow, Bool.and_eq_true, decide_eq_true_eq] at h
  unfold escapeSeparator quote backslash
  rw [if_neg (by omega)]
  exact ⟨by omega, by omega, by omega, rfl⟩

theorem unquote_escapeUnits (s rest : Units) :
    unquote ((escapeUnits s).flatMap escapeSeparator ++ quote :: rest) = some (s, rest) := by
  have hnil : unquote (quote :: rest) = some ([], rest) := by
    rw [unquote.eq_def]
    simp only [if_pos]
  induction s using escapeUnits.induct with
  | case1 => exact hnil
  | case2 u => exact (readAs_unitText u).cons hnil
  | case3 u v s hpair ih =>
    obtain ⟨-, hq, hb, hu⟩ := surrogate_text (Or.inl hpair.1)
    obtain ⟨-, hq', hb', hv⟩ := surrogate_text (Or.inr hpair.2)
    rw [escapeUnits, if_pos hpair]
    simp only [List.flatMap_cons, hu, hv, List.append_assoc]
    exact (readAs_self hq hb).cons ((readAs_self hq' hb').cons ih)
  | case4 u v s hpair ih =>
    rw [escapeUnits, if_neg hpair, List.flatMap_append, List.append_assoc]
    exact (readAs_unitText u).cons ih

theorem serializeString_eq (s : Units) :
    serializeString s = quote :: ((escapeUnits s).flatMap escapeSeparator ++ [quote]) := by
  have hquote : escapeSeparator quote = [quote] := by decide
  unfold serializeString stringify
  rw [List.flatMap_cons, List.flatMap_append, hquote]
  simp [hquote]

theorem serializeString_cancel {s s' x y : Units}
    (h : serializeString s ++ x = serializeString s' ++ y) : s = s' ∧ x = y := by
  rw [serializeString_eq, serializeString_eq] at h
  simp only [List.cons_append, List.append_assoc, List.cons.injEq, true_and, List.nil_append] at h
  have hread := congrArg unquote h
  rw [unquote_escapeUnits, unquote_escapeUnits] at hread
  simpa using hread

theorem unitText_printable (u : Nat) : ∀ v ∈ unitText u, 32 ≤ v := by
  intro v hv
  rcases unitText_cases u with ⟨e, he, htext⟩ | ⟨-, htext⟩ | ⟨hle, -, -, htext⟩
  · have hascii := shortEscape_ascii he
    have hb : backslash = 92 := rfl
    simp only [htext, List.mem_cons, List.not_mem_nil, or_false] at hv
    rcases hv with rfl | rfl <;> omega
  · rw [htext] at hv
    have hascii := unicodeEscape_ascii u v hv
    omega
  · rw [htext, List.mem_singleton] at hv
    omega

theorem serializeString_printable (s : Units) : ∀ v ∈ serializeString s, 32 ≤ v := by
  have hbody : ∀ v ∈ (escapeUnits s).flatMap escapeSeparator, 32 ≤ v := by
    induction s using escapeUnits.induct with
    | case1 => simp [escapeUnits]
    | case2 u => exact unitText_printable u
    | case3 u v s hpair ih =>
      obtain ⟨hle, -, -, hu⟩ := surrogate_text (Or.inl hpair.1)
      obtain ⟨hle', -, -, hv⟩ := surrogate_text (Or.inr hpair.2)
      rw [escapeUnits, if_pos hpair]
      simp only [List.flatMap_cons, hu, hv]
      exact List.forall_mem_cons.2 ⟨hle, List.forall_mem_cons.2 ⟨hle', ih⟩⟩
    | case4 u v s hpair ih =>
      rw [escapeUnits, if_neg hpair, List.flatMap_append]
      exact List.forall_mem_append.2 ⟨unitText_printable u, ih⟩
  rw [serializeString_eq]
  intro v hv
  simp only [List.mem_cons, List.mem_append, List.not_mem_nil, or_false] at hv
  rcases hv with rfl | hv | rfl
  · decide
  · exact hbody v hv
  · decide

end Strings

section Values

variable {N}

/-- What follows a value does not go on with a number. -/
def Ends (x : Units) : Prop := ∀ u ∈ x.head?, u ∉ numberUnits

theorem ends_cons {u : Nat} (h : u ∉ numberUnits) (x : Units) : Ends (u :: x) := by
  intro v hv
  rw [List.head?_cons, Option.mem_some_iff] at hv
  rw [← hv]
  exact h

theorem ends_comma (x : Units) : Ends (comma :: x) := ends_cons (by decide) x

theorem ends_closeBracket (x : Units) : Ends (closeBracket :: x) := ends_cons (by decide) x

theorem ends_closeBrace (x : Units) : Ends (closeBrace :: x) := ends_cons (by decide) x

inductive Kind
  | null
  | bool (b : Bool)
  | number
  | string
  | array
  | object
  deriving DecidableEq

def kind : Value ν → Kind
  | .null => .null
  | .bool b => .bool b
  | .num _ => .number
  | .str _ => .string
  | .arr _ => .array
  | .obj _ => .object

/-- The kind of a value by the first unit of its text. -/
def kindOf (u : Nat) : Option Kind :=
  if u = 110 then some .null
  else if u = 116 then some (.bool true)
  else if u = 102 then some (.bool false)
  else if u = quote then some .string
  else if u = openBracket then some .array
  else if u = openBrace then some .object
  else if u ∈ numberUnits then some .number
  else none

theorem serializeValue_starts (v : Value ν) :
    ∃ u t, serializeValue N v = u :: t ∧ kindOf u = some (kind v) := by
  cases v with
  | null => exact ⟨110, ascii "ull", by rw [serializeValue]; rfl, rfl⟩
  | bool b =>
    cases b with
    | true => exact ⟨116, ascii "rue", by rw [serializeValue]; rfl, rfl⟩
    | false => exact ⟨102, ascii "alse", by rw [serializeValue]; rfl, rfl⟩
  | num n =>
    have hnumber : ∀ u ∈ numberUnits, kindOf u = some .number := by decide
    obtain ⟨u, t, ht⟩ := List.exists_cons_of_ne_nil (N.ne_nil n)
    have hmem : u ∈ N.text n := by
      rw [ht]
      exact List.mem_cons_self
    exact ⟨u, t, by rw [serializeValue, ht], hnumber u (N.chars n u hmem)⟩
  | str s => exact ⟨quote, _, by rw [serializeValue, serializeString_eq], rfl⟩
  | arr l => exact ⟨openBracket, _, by rw [serializeValue], rfl⟩
  | obj l => exact ⟨openBrace, _, by rw [serializeValue], rfl⟩

theorem kind_eq {v w : Value ν} {x y : Units}
    (h : serializeValue N v ++ x = serializeValue N w ++ y) : kind v = kind w := by
  obtain ⟨u, t, hv, hu⟩ := serializeValue_starts (N := N) v
  obtain ⟨u', t', hw, hu'⟩ := serializeValue_starts (N := N) w
  rw [hv, hw] at h
  have huu : u = u' := (List.cons.inj h).1
  rw [huu, hu'] at hu
  exact (Option.some.inj hu).symm

/-- A text that shows where it ends, against the text of any value. -/
def CancelsValues (N : NumberText ν) (t : Units) : Prop :=
  ∀ w x y, Ends x → Ends y → t ++ x = serializeValue N w ++ y → t = serializeValue N w ∧ x = y

theorem mem_serializeArray {l : List (Value ν)} {t : Units} (h : t ∈ serializeArray N l) :
    ∃ v ∈ l, t = serializeValue N v := by
  induction l with
  | nil => simp [serializeArray] at h
  | cons v l ih =>
    rw [serializeArray] at h
    rcases List.mem_cons.1 h with rfl | h
    · exact ⟨v, List.mem_cons_self, rfl⟩
    · obtain ⟨w, hw, rfl⟩ := ih h
      exact ⟨w, List.mem_cons_of_mem _ hw, rfl⟩

theorem mem_serializeMembers {l : List (Units × Value ν)} {m : Units × Units} :
    m ∈ serializeMembers N l ↔ ∃ v, (m.1, v) ∈ l ∧ m.2 = serializeValue N v := by
  induction l with
  | nil => simp [serializeMembers]
  | cons p l ih =>
    obtain ⟨k, v⟩ := p
    obtain ⟨a, t⟩ := m
    rw [serializeMembers, List.mem_cons, ih]
    constructor
    · rintro (h | ⟨w, hw, rfl⟩)
      · obtain ⟨rfl, rfl⟩ := Prod.mk.inj h
        exact ⟨v, List.mem_cons_self, rfl⟩
      · exact ⟨w, List.mem_cons_of_mem _ hw, rfl⟩
    · rintro ⟨w, hw, rfl⟩
      rcases List.mem_cons.1 hw with h | hw
      · obtain ⟨rfl, rfl⟩ := Prod.mk.inj h
        exact Or.inl rfl
      · exact Or.inr ⟨w, hw, rfl⟩

theorem mem_sortKeys {l : List (Units × Units)} {m : Units × Units} :
    m ∈ sortKeys l ↔ m ∈ l := List.mem_mergeSort

theorem arrayTexts_inj {l l' : List (Value ν)} {x y : Units}
    (hcancel : ∀ t ∈ serializeArray N l, CancelsValues N t)
    (h : join comma (serializeArray N l) ++ [closeBracket] ++ x =
      join comma (serializeArray N l') ++ [closeBracket] ++ y) :
    serializeArray N l = serializeArray N l' ∧ x = y := by
  have hstart : ∀ l : List (Value ν), ∀ t ∈ serializeArray N l,
      ∃ c s, id t = c :: s ∧ c ≠ closeBracket := by
    intro l t ht
    obtain ⟨v, -, rfl⟩ := mem_serializeArray ht
    obtain ⟨u, s, hs, hu⟩ := serializeValue_starts (N := N) v
    refine ⟨u, s, hs, ?_⟩
    rintro rfl
    have hnone : kindOf closeBracket = none := by decide
    rw [hnone] at hu
    cases hu
  have hpair : ∀ t ∈ serializeArray N l, ∀ t' ∈ serializeArray N l', Cancels id Ends t t' := by
    intro t ht t' ht' a b ha hb heq
    obtain ⟨w, -, rfl⟩ := mem_serializeArray ht'
    exact hcancel t ht w a b ha hb heq
  rw [← List.map_id (serializeArray N l), ← List.map_id (serializeArray N l')] at h
  exact members_inj (by decide) ends_comma ends_closeBracket hpair (hstart l) (hstart l') h

theorem memberTexts_inj {l l' : List (Units × Value ν)} {x y : Units}
    (hcancel : ∀ m ∈ serializeMembers N l, CancelsValues N m.2)
    (h : join comma ((sortKeys (serializeMembers N l)).map memberText) ++ [closeBrace] ++ x =
      join comma ((sortKeys (serializeMembers N l')).map memberText) ++ [closeBrace] ++ y) :
    sortKeys (serializeMembers N l) = sortKeys (serializeMembers N l') ∧ x = y := by
  have hstart : ∀ m : Units × Units, ∃ c s, memberText m = c :: s ∧ c ≠ closeBrace := by
    intro m
    unfold memberText
    rw [serializeString_eq]
    exact ⟨quote, _, rfl, by decide⟩
  refine members_inj (by decide) ends_comma ends_closeBrace ?_ (fun m _ => hstart m)
    (fun m _ => hstart m) h
  rintro ⟨k, t⟩ hm ⟨k', t'⟩ hm' a b ha hb heq
  obtain ⟨w, -, rfl⟩ := mem_serializeMembers.1 (mem_sortKeys.1 hm')
  unfold memberText at heq
  rw [List.append_assoc, List.append_assoc] at heq
  obtain ⟨rfl, hrest⟩ := serializeString_cancel heq
  obtain ⟨rfl, hab⟩ := hcancel _ (mem_sortKeys.1 hm) w a b ha hb (List.cons.inj hrest).2
  exact ⟨rfl, hab⟩

mutual

/-- By induction on the value: the bracketed members are read off one by one,
each up to the comma or bracket behind it. -/
theorem serializeValue_cancels : ∀ v : Value ν, CancelsValues N (serializeValue N v)
  | .null, w, x, y, _, _, h => by
    have hkind := kind_eq h
    cases w with
    | null => exact ⟨rfl, List.append_cancel_left h⟩
    | _ => cases hkind
  | .bool b, w, x, y, _, _, h => by
    have hkind := kind_eq h
    cases w with
    | bool c =>
      cases hkind
      exact ⟨rfl, List.append_cancel_left h⟩
    | _ => cases hkind
  | .num n, w, x, y, hx, hy, h => by
    have hkind := kind_eq h
    cases w with
    | num m =>
      rw [serializeValue, serializeValue] at h ⊢
      exact append_run_inj (N.chars n) (N.chars m) hx hy h
    | _ => cases hkind
  | .str s, w, x, y, _, _, h => by
    have hkind := kind_eq h
    cases w with
    | str t =>
      rw [serializeValue, serializeValue] at h ⊢
      obtain ⟨rfl, hxy⟩ := serializeString_cancel h
      exact ⟨rfl, hxy⟩
    | _ => cases hkind
  | .arr l, w, x, y, _, _, h => by
    have hkind := kind_eq h
    cases w with
    | arr l' =>
      rw [serializeValue, serializeValue] at h ⊢
      obtain ⟨htexts, hxy⟩ := arrayTexts_inj (serializeArray_cancels l) (List.cons.inj h).2
      exact ⟨by rw [htexts], hxy⟩
    | _ => cases hkind
  | .obj l, w, x, y, _, _, h => by
    have hkind := kind_eq h
    cases w with
    | obj l' =>
      rw [serializeValue, serializeValue] at h ⊢
      obtain ⟨htexts, hxy⟩ := memberTexts_inj (serializeMembers_cancels l) (List.cons.inj h).2
      exact ⟨by rw [htexts], hxy⟩
    | _ => cases hkind

theorem serializeArray_cancels : ∀ l : List (Value ν), ∀ t ∈ serializeArray N l, CancelsValues N t
  | [], t, ht => by simp [serializeArray] at ht
  | v :: l, t, ht => by
    have hv := serializeValue_cancels v
    have hl := serializeArray_cancels l
    rw [serializeArray] at ht
    rcases List.mem_cons.1 ht with rfl | ht
    · exact hv
    · exact hl t ht

theorem serializeMembers_cancels :
    ∀ l : List (Units × Value ν), ∀ m ∈ serializeMembers N l, CancelsValues N m.2
  | [], m, hm => by simp [serializeMembers] at hm
  | (k, v) :: l, m, hm => by
    have hv := serializeValue_cancels v
    have hl := serializeMembers_cancels l
    rw [serializeMembers] at hm
    rcases List.mem_cons.1 hm with rfl | hm
    · exact hv
    · exact hl m hm

end

theorem serializeArray_inj {l l' : List (Value ν)}
    (h : serializeValue N (.arr l) = serializeValue N (.arr l')) :
    serializeArray N l = serializeArray N l' := by
  rw [serializeValue, serializeValue] at h
  have hinner := (List.cons.inj h).2
  rw [← List.append_nil (_ ++ [closeBracket]), ← List.append_nil (join comma (serializeArray N l') ++ _)]
    at hinner
  exact (arrayTexts_inj (serializeArray_cancels l) hinner).1

theorem serializeMembers_inj {l l' : List (Units × Value ν)}
    (h : serializeValue N (.obj l) = serializeValue N (.obj l')) :
    sortKeys (serializeMembers N l) = sortKeys (serializeMembers N l') := by
  rw [serializeValue, serializeValue] at h
  have hinner := (List.cons.inj h).2
  rw [← List.append_nil (_ ++ [closeBrace]),
    ← List.append_nil (join comma ((sortKeys (serializeMembers N l')).map memberText) ++ _)] at hinner
  exact (memberTexts_inj (serializeMembers_cancels l) hinner).1

theorem length_serializeMembers (l : List (Units × Value ν)) :
    (serializeMembers N l).length = l.length := by
  induction l with
  | nil => rfl
  | cons p l ih =>
    obtain ⟨k, v⟩ := p
    rw [serializeMembers, List.length_cons, ih, List.length_cons]

theorem length_sortKeys (l : List (Units × Units)) : (sortKeys l).length = l.length :=
  List.length_mergeSort l

theorem kind_eq_of_serializeValue_eq {v w : Value ν}
    (h : serializeValue N v = serializeValue N w) : kind v = kind w := by
  have happ : serializeValue N v ++ [] = serializeValue N w ++ [] := by rw [h]
  exact kind_eq happ

mutual

theorem same_of_serializeValue_eq :
    ∀ v w : Value ν, serializeValue N v = serializeValue N w → Same v w
  | .null, w, h => by
    have hkind := kind_eq_of_serializeValue_eq h
    cases w with
    | null => trivial
    | _ => cases hkind
  | .bool b, w, h => by
    have hkind := kind_eq_of_serializeValue_eq h
    cases w with
    | bool c =>
      cases hkind
      rfl
    | _ => cases hkind
  | .num n, w, h => by
    have hkind := kind_eq_of_serializeValue_eq h
    cases w with
    | num m =>
      rw [serializeValue, serializeValue] at h
      exact N.inj n m h
    | _ => cases hkind
  | .str s, w, h => by
    have hkind := kind_eq_of_serializeValue_eq h
    cases w with
    | str t =>
      rw [serializeValue, serializeValue] at h
      have happ : serializeString s ++ [] = serializeString t ++ [] := by rw [h]
      exact (serializeString_cancel happ).1
    | _ => cases hkind
  | .arr l, w, h => by
    have hkind := kind_eq_of_serializeValue_eq h
    cases w with
    | arr l' => exact sameAll_of_serializeArray_eq l l' (serializeArray_inj h)
    | _ => cases hkind
  | .obj l, w, h => by
    have hkind := kind_eq_of_serializeValue_eq h
    cases w with
    | obj l' =>
      have hsort := serializeMembers_inj h
      have hlen : l.length = l'.length := by
        have hlength := congrArg List.length hsort
        rw [length_sortKeys, length_sortKeys, length_serializeMembers, length_serializeMembers]
          at hlength
        exact hlength
      have hsub : ∀ m ∈ serializeMembers N l, m ∈ serializeMembers N l' := by
        intro m hm
        have hmem : m ∈ sortKeys (serializeMembers N l) := mem_sortKeys.2 hm
        rw [hsort] at hmem
        exact mem_sortKeys.1 hmem
      exact ⟨hlen, sameMembers_of_subset l l' hsub⟩
    | _ => cases hkind

theorem sameAll_of_serializeArray_eq :
    ∀ l l' : List (Value ν), serializeArray N l = serializeArray N l' → SameAll l l'
  | [], l', h => by
    cases l' with
    | nil => trivial
    | cons w l' => cases h
  | v :: l, l', h => by
    cases l' with
    | nil => cases h
    | cons w l' =>
      rw [serializeArray, serializeArray] at h
      obtain ⟨hhead, htail⟩ := List.cons.inj h
      exact ⟨same_of_serializeValue_eq v w hhead, sameAll_of_serializeArray_eq l l' htail⟩

theorem sameMembers_of_subset :
    ∀ l l' : List (Units × Value ν), (∀ m ∈ serializeMembers N l, m ∈ serializeMembers N l') →
      SameMembers l l'
  | [], _, _ => trivial
  | (k, v) :: l, l', h => by
    rw [serializeMembers] at h
    obtain ⟨w, hw, htext⟩ := mem_serializeMembers.1 (h _ List.mem_cons_self)
    have htail := sameMembers_of_subset l l' fun m hm => h m (List.mem_cons_of_mem _ hm)
    exact ⟨⟨w, hw, same_of_serializeValue_eq v w htext⟩, htail⟩

end

theorem keys_serializeMembers (l : List (Units × Value ν)) :
    (serializeMembers N l).map Prod.fst = l.map Prod.fst := by
  induction l with
  | nil => rfl
  | cons p l ih =>
    obtain ⟨k, v⟩ := p
    rw [serializeMembers, List.map_cons, ih, List.map_cons]

theorem keyLe_iff {a b : Units} : keyLe a b = true ↔ List.le a b := by
  unfold keyLe
  rw [Bool.not_eq_true', List.lex_eq_false_iff_ge]
  rfl

/-- Members with distinct keys have one sorted order. -/
theorem sortKeys_eq_of_perm {ms ns : List (Units × Units)} (h : ms.Perm ns)
    (hnodup : (ns.map Prod.fst).Nodup) : sortKeys ms = sortKeys ns := by
  have htrans : ∀ a b c : Units × Units, keyLe a.1 b.1 = true → keyLe b.1 c.1 = true →
      keyLe a.1 c.1 = true := by
    intro a b c hab hbc
    exact keyLe_iff.2 (List.le_trans (keyLe_iff.1 hab) (keyLe_iff.1 hbc))
  have htotal : ∀ a b : Units × Units, (keyLe a.1 b.1 || keyLe b.1 a.1) = true := by
    intro a b
    rw [Bool.or_eq_true]
    exact (List.le_total a.1 b.1).imp keyLe_iff.2 keyLe_iff.2
  have hms := List.pairwise_mergeSort htrans htotal ms
  have hns := List.pairwise_mergeSort htrans htotal ns
  have hperm : (sortKeys ms).Perm (sortKeys ns) :=
    ((List.mergeSort_perm ms _).trans h).trans (List.mergeSort_perm ns _).symm
  refine List.Perm.eq_of_pairwise ?_ hms hns hperm
  intro a b ha hb hab hba
  have hkey : a.1 = b.1 := List.le_antisymm (keyLe_iff.1 hab) (keyLe_iff.1 hba)
  have ha' : a ∈ ns := mem_sortKeys.1 (hperm.subset ha)
  exact List.inj_on_of_nodup_map hnodup ha' (mem_sortKeys.1 hb) hkey

theorem uniqueKeys_of_mem {l : List (Units × Value ν)} {k : Units} {v : Value ν}
    (hl : UniqueKeysMembers l) (h : (k, v) ∈ l) : UniqueKeys v := by
  induction l with
  | nil => cases h
  | cons p l ih =>
    rcases List.mem_cons.1 h with rfl | h
    · exact hl.1
    · exact ih hl.2 h

mutual

theorem serializeValue_eq_of_same : ∀ v w : Value ν, UniqueKeys v → UniqueKeys w → Same v w →
    serializeValue N v = serializeValue N w
  | .null, w, _, _, h => by
    cases w with
    | null => rfl
    | _ => cases h
  | .bool b, w, _, _, h => by
    cases w with
    | bool c => rw [show b = c from h]
    | _ => cases h
  | .num n, w, _, _, h => by
    cases w with
    | num m => rw [show n = m from h]
    | _ => cases h
  | .str s, w, _, _, h => by
    cases w with
    | str t => rw [show s = t from h]
    | _ => cases h
  | .arr l, w, hl, hw, h => by
    cases w with
    | arr l' => rw [serializeValue, serializeValue, serializeArray_eq_of_same l l' hl hw h]
    | _ => cases h
  | .obj l, w, hl, hw, h => by
    cases w with
    | obj l' =>
      have hsub := serializeMembers_subset_of_same l l' hl.2 hw.2 h.2
      have hnodup : (serializeMembers N l).Nodup := by
        apply List.Nodup.of_map Prod.fst
        rw [keys_serializeMembers]
        exact hl.1
      have hnodup' : ((serializeMembers N l').map Prod.fst).Nodup := by
        rw [keys_serializeMembers]
        exact hw.1
      have hlen : (serializeMembers N l').length ≤ (serializeMembers N l).length := by
        rw [length_serializeMembers, length_serializeMembers]
        exact Nat.le_of_eq h.1.symm
      have hperm : (serializeMembers N l).Perm (serializeMembers N l') :=
        (List.subperm_of_subset hnodup hsub).perm_of_length_le hlen
      rw [serializeValue, serializeValue, sortKeys_eq_of_perm hperm hnodup']
    | _ => cases h

theorem serializeArray_eq_of_same : ∀ l l' : List (Value ν), UniqueKeysAll l → UniqueKeysAll l' →
    SameAll l l' → serializeArray N l = serializeArray N l'
  | [], l', _, _, h => by
    cases l' with
    | nil => rfl
    | cons w l' => cases h
  | v :: l, l', hl, hl', h => by
    cases l' with
    | nil => cases h
    | cons w l' =>
      rw [serializeArray, serializeArray, serializeValue_eq_of_same v w hl.1 hl'.1 h.1,
        serializeArray_eq_of_same l l' hl.2 hl'.2 h.2]

theorem serializeMembers_subset_of_same : ∀ l l' : List (Units × Value ν), UniqueKeysMembers l →
    UniqueKeysMembers l' → SameMembers l l' → serializeMembers N l ⊆ serializeMembers N l'
  | [], l', _, _, _ => by
    rw [serializeMembers]
    exact List.nil_subset _
  | (k, v) :: l, l', hl, hl', h => by
    obtain ⟨⟨w, hw, hsame⟩, htail⟩ := h
    have hwkeys : UniqueKeys w := uniqueKeys_of_mem hl' hw
    have htext := serializeValue_eq_of_same v w hl.1 hwkeys hsame
    rw [serializeMembers, htext]
    exact List.cons_subset.2 ⟨mem_serializeMembers.2 ⟨w, hw, rfl⟩,
      serializeMembers_subset_of_same l l' hl.2 hl' htail⟩

end

mutual

theorem serializeValue_printable : ∀ v : Value ν, ∀ u ∈ serializeValue N v, 32 ≤ u
  | .null, u, hu => by
    have hall : ∀ c ∈ ascii "null", 32 ≤ c := by decide
    exact hall u hu
  | .bool true, u, hu => by
    have hall : ∀ c ∈ ascii "true", 32 ≤ c := by decide
    exact hall u hu
  | .bool false, u, hu => by
    have hall : ∀ c ∈ ascii "false", 32 ≤ c := by decide
    exact hall u hu
  | .num n, u, hu => by
    have hall : ∀ c ∈ numberUnits, 32 ≤ c := by decide
    rw [serializeValue] at hu
    exact hall u (N.chars n u hu)
  | .str s, u, hu => by
    rw [serializeValue] at hu
    exact serializeString_printable s u hu
  | .arr l, u, hu => by
    have hitems := serializeArray_printable l
    rw [serializeValue, List.mem_cons, List.mem_append, List.mem_singleton] at hu
    rcases hu with rfl | hu | rfl
    · decide
    · exact forall_mem_join (by decide) hitems u hu
    · decide
  | .obj l, u, hu => by
    have hmembers := serializeMembers_printable l
    rw [serializeValue, List.mem_cons, List.mem_append, List.mem_singleton] at hu
    rcases hu with rfl | hu | rfl
    · decide
    · refine forall_mem_join (by decide) ?_ u hu
      intro t ht c hc
      obtain ⟨m, hm, rfl⟩ := List.mem_map.1 ht
      rw [memberText, List.mem_append, List.mem_cons] at hc
      rcases hc with hc | rfl | hc
      · exact serializeString_printable m.1 c hc
      · decide
      · exact hmembers m (mem_sortKeys.1 hm) c hc
    · decide

theorem serializeArray_printable :
    ∀ l : List (Value ν), ∀ t ∈ serializeArray N l, ∀ u ∈ t, 32 ≤ u
  | [], t, ht => by simp [serializeArray] at ht
  | v :: l, t, ht => by
    have hv := serializeValue_printable v
    have hl := serializeArray_printable l
    rw [serializeArray] at ht
    rcases List.mem_cons.1 ht with rfl | ht
    · exact hv
    · exact hl t ht

theorem serializeMembers_printable :
    ∀ l : List (Units × Value ν), ∀ m ∈ serializeMembers N l, ∀ u ∈ m.2, 32 ≤ u
  | [], m, hm => by simp [serializeMembers] at hm
  | (k, v) :: l, m, hm => by
    have hv := serializeValue_printable v
    have hl := serializeMembers_printable l
    rw [serializeMembers] at hm
    rcases List.mem_cons.1 hm with rfl | hm
    · exact hv
    · exact hl m hm

end

/-- The canonical text of a value determines it as JSON. -/
theorem serializeValue_eq_iff {v w : Value ν} (hv : UniqueKeys v) (hw : UniqueKeys w) :
    serializeValue N v = serializeValue N w ↔ Same v w :=
  ⟨same_of_serializeValue_eq v w, serializeValue_eq_of_same v w hv hw⟩

end Values

end Jcs

end Vici2
