import Mathlib.Data.List.Basic
import Mathlib.Tactic.IntervalCases

/-! SHA-256 over lists of bytes, with the hexadecimal texts of digests. The
schedule is kept as a window of sixteen words. -/

namespace Vici2

abbrev Bytes := List UInt8

namespace Sha256

def wordMod : Nat := 4294967296

def rotr (x n : Nat) : Nat := ((x >>> n) ||| (x <<< (32 - n))) % wordMod

def complement (x : Nat) : Nat := wordMod - 1 - x

def roundConstants : List Nat := [
  0x428a2f98, 0x71374491, 0xb5c0fbcf, 0xe9b5dba5, 0x3956c25b, 0x59f111f1, 0x923f82a4, 0xab1c5ed5,
  0xd807aa98, 0x12835b01, 0x243185be, 0x550c7dc3, 0x72be5d74, 0x80deb1fe, 0x9bdc06a7, 0xc19bf174,
  0xe49b69c1, 0xefbe4786, 0x0fc19dc6, 0x240ca1cc, 0x2de92c6f, 0x4a7484aa, 0x5cb0a9dc, 0x76f988da,
  0x983e5152, 0xa831c66d, 0xb00327c8, 0xbf597fc7, 0xc6e00bf3, 0xd5a79147, 0x06ca6351, 0x14292967,
  0x27b70a85, 0x2e1b2138, 0x4d2c6dfc, 0x53380d13, 0x650a7354, 0x766a0abb, 0x81c2c92e, 0x92722c85,
  0xa2bfe8a1, 0xa81a664b, 0xc24b8b70, 0xc76c51a3, 0xd192e819, 0xd6990624, 0xf40e3585, 0x106aa070,
  0x19a4c116, 0x1e376c08, 0x2748774c, 0x34b0bcb5, 0x391c0cb3, 0x4ed8aa4a, 0x5b9cca4f, 0x682e6ff3,
  0x748f82ee, 0x78a5636f, 0x84c87814, 0x8cc70208, 0x90befffa, 0xa4506ceb, 0xbef9a3f7, 0xc67178f2]

structure Regs where
  a : Nat
  b : Nat
  c : Nat
  d : Nat
  e : Nat
  f : Nat
  g : Nat
  h : Nat

def initial : Regs :=
  ⟨0x6a09e667, 0xbb67ae85, 0x3c6ef372, 0xa54ff53a, 0x510e527f, 0x9b05688c, 0x1f83d9ab, 0x5be0cd19⟩

def nextWord (w : List Nat) : Nat :=
  let w1 := w.getD 1 0
  let w14 := w.getD 14 0
  let s0 := rotr w1 7 ^^^ rotr w1 18 ^^^ (w1 >>> 3)
  let s1 := rotr w14 17 ^^^ rotr w14 19 ^^^ (w14 >>> 10)
  (w.getD 0 0 + s0 + w.getD 9 0 + s1) % wordMod

def round (r : Regs) (k w : Nat) : Regs :=
  let s1 := rotr r.e 6 ^^^ rotr r.e 11 ^^^ rotr r.e 25
  let ch := (r.e &&& r.f) ^^^ (complement r.e &&& r.g)
  let t1 := (r.h + s1 + ch + k + w) % wordMod
  let s0 := rotr r.a 2 ^^^ rotr r.a 13 ^^^ rotr r.a 22
  let maj := (r.a &&& r.b) ^^^ (r.a &&& r.c) ^^^ (r.b &&& r.c)
  ⟨(t1 + s0 + maj) % wordMod, r.a, r.b, r.c, (r.d + t1) % wordMod, r.e, r.f, r.g⟩

def rounds : List Nat → List Nat → Regs → Regs
  | [], _, r => r
  | k :: ks, w, r => rounds ks (w.tail ++ [nextWord w]) (round r k (w.headD 0))

def compress (r : Regs) (block : List Nat) : Regs :=
  let s := rounds roundConstants block r
  ⟨(r.a + s.a) % wordMod, (r.b + s.b) % wordMod, (r.c + s.c) % wordMod, (r.d + s.d) % wordMod,
    (r.e + s.e) % wordMod, (r.f + s.f) % wordMod, (r.g + s.g) % wordMod, (r.h + s.h) % wordMod⟩

def words : List Nat → List Nat
  | a :: b :: c :: d :: rest => (a * 16777216 + b * 65536 + c * 256 + d) :: words rest
  | _ => []

/-- The last `k` bytes of `n`, the highest first. -/
def bigEndian (k n : Nat) : List Nat :=
  (List.range k).map fun i => (n >>> (8 * (k - 1 - i))) % 256

def pad (msg : List Nat) : List Nat :=
  msg ++ 0x80 :: List.replicate ((119 - msg.length % 64) % 64) 0 ++ bigEndian 8 (8 * msg.length)

def blocks : Nat → List Nat → Regs → Regs
  | 0, _, r => r
  | n + 1, ws, r => blocks n (ws.drop 16) (compress r (ws.take 16))

def hash (msg : Bytes) : Bytes :=
  let ws := words (pad (msg.map UInt8.toNat))
  let r := blocks (ws.length / 16) ws initial
  ([r.a, r.b, r.c, r.d, r.e, r.f, r.g, r.h].flatMap (bigEndian 4)).map UInt8.ofNat

theorem length_hash (msg : Bytes) : (hash msg).length = 32 := by
  simp [hash, bigEndian]

end Sha256

/-- A hash function with digests of 32 bytes. -/
structure Digest where
  hash : Bytes → Bytes
  length_hash : ∀ x, (hash x).length = 32

def sha256 : Digest := ⟨Sha256.hash, Sha256.length_hash⟩

def hexDigit (n : Nat) : Char := "0123456789abcdef".toList.getD n '0'

def hexValue (c : Char) : Option Nat :=
  if '0' ≤ c ∧ c ≤ '9' then some (c.toNat - 48)
  else if 'a' ≤ c ∧ c ≤ 'f' then some (c.toNat - 87)
  else if 'A' ≤ c ∧ c ≤ 'F' then some (c.toNat - 55)
  else none

def hexChars (b : Bytes) : List Char :=
  b.flatMap fun x => [hexDigit (x.toNat / 16), hexDigit (x.toNat % 16)]

def toHex (b : Bytes) : String := String.ofList (hexChars b)

/-- Decoding stops at the first pair that is not hexadecimal. -/
def unhexChars : List Char → Bytes
  | x :: y :: rest =>
    match hexValue x, hexValue y with
    | some a, some b => UInt8.ofNat (16 * a + b) :: unhexChars rest
    | _, _ => []
  | _ => []

def fromHex (s : String) : Bytes := unhexChars s.toList

theorem hexValue_hexDigit {n : Nat} (h : n < 16) : hexValue (hexDigit n) = some n := by
  interval_cases n <;> decide

theorem unhexChars_hexChars (b : Bytes) : unhexChars (hexChars b) = b := by
  induction b with
  | nil => rfl
  | cons x b ih =>
    have hx : x.toNat < 256 := UInt8.toNat_lt x
    have hhi := hexValue_hexDigit (n := x.toNat / 16) (by omega)
    have hlo := hexValue_hexDigit (n := x.toNat % 16) (by omega)
    have hcons : hexChars (x :: b) =
        hexDigit (x.toNat / 16) :: hexDigit (x.toNat % 16) :: hexChars b := rfl
    have hbyte : UInt8.ofNat (16 * (x.toNat / 16) + x.toNat % 16) = x := by
      rw [Nat.div_add_mod]
      exact UInt8.ofNat_toNat
    rw [hcons]
    simp only [unhexChars, hhi, hlo, hbyte, ih]

theorem fromHex_toHex (b : Bytes) : fromHex (toHex b) = b := by
  unfold fromHex toHex
  rw [String.toList_ofList]
  exact unhexChars_hexChars b

theorem toHex_inj {a b : Bytes} (h : toHex a = toHex b) : a = b := by
  rw [← fromHex_toHex a, h, fromHex_toHex]

theorem length_hexChars (b : Bytes) : (hexChars b).length = 2 * b.length := by
  induction b with
  | nil => rfl
  | cons x b ih =>
    have hcons : (hexChars (x :: b)).length = (hexChars b).length + 2 := rfl
    rw [hcons, ih, List.length_cons]
    omega

theorem isHex_of_mem_hexChars {b : Bytes} {c : Char} (h : c ∈ hexChars b) :
    c ∈ "0123456789abcdef".toList := by
  have hdigit : ∀ n, n < 16 → hexDigit n ∈ "0123456789abcdef".toList := by
    intro n hn
    interval_cases n <;> decide
  obtain ⟨x, -, hx⟩ := List.mem_flatMap.1 h
  have hlt : x.toNat < 256 := UInt8.toNat_lt x
  simp only [List.mem_cons, List.not_mem_nil, or_false] at hx
  rcases hx with rfl | rfl
  · exact hdigit _ (by omega)
  · exact hdigit _ (by omega)

theorem hexDigit_hexValue {c : Char} (h : c ∈ "0123456789abcdef".toList) :
    ∃ n, n < 16 ∧ hexValue c = some n ∧ hexDigit n = c := by
  have hall : ∀ c ∈ "0123456789abcdef".toList,
      (hexValue c).any (fun n => n < 16 ∧ hexDigit n = c) = true :=
    List.all_eq_true.1 (by decide)
  have hc := hall c h
  rw [Option.any_eq_true] at hc
  obtain ⟨n, hn, hlt⟩ := hc
  obtain ⟨hlt, hdigit⟩ := of_decide_eq_true hlt
  exact ⟨n, hlt, hn, hdigit⟩

theorem hexChars_unhexChars {cs : List Char} (hlen : cs.length % 2 = 0)
    (hcs : ∀ c ∈ cs, c ∈ "0123456789abcdef".toList) : hexChars (unhexChars cs) = cs := by
  induction cs using unhexChars.induct with
  | case1 x y rest a b hb ha ih =>
    obtain ⟨m, hm, hxm, hx⟩ := hexDigit_hexValue (hcs x (by simp))
    obtain ⟨n, hn, hyn, hy⟩ := hexDigit_hexValue (hcs y (by simp))
    rw [hxm] at ha
    rw [hyn] at hb
    obtain rfl := Option.some.inj ha
    obtain rfl := Option.some.inj hb
    have hrest : rest.length % 2 = 0 := by
      simp only [List.length_cons] at hlen
      omega
    have hlt : 16 * m + n < 256 := by omega
    have hbyte : (UInt8.ofNat (16 * m + n)).toNat = 16 * m + n := UInt8.toNat_ofNat_of_lt' hlt
    have hhi : (16 * m + n) / 16 = m := by omega
    have hlo : (16 * m + n) % 16 = n := by omega
    simp only [unhexChars, hxm, hyn]
    have hcons : hexChars (UInt8.ofNat (16 * m + n) :: unhexChars rest) =
        hexDigit ((UInt8.ofNat (16 * m + n)).toNat / 16) ::
          hexDigit ((UInt8.ofNat (16 * m + n)).toNat % 16) :: hexChars (unhexChars rest) := rfl
    rw [hcons, hbyte, hhi, hlo, hx, hy, ih hrest fun c hc => hcs c (by simp [hc])]
  | case2 x y rest hno =>
    obtain ⟨m, -, hxm, -⟩ := hexDigit_hexValue (hcs x (by simp))
    obtain ⟨n, -, hyn, -⟩ := hexDigit_hexValue (hcs y (by simp))
    exact absurd hyn (hno m n hxm)
  | case3 cs hne =>
    match cs, hne with
    | [], _ => rfl
    | [c], _ => simp at hlen
    | x :: y :: rest, hne => exact absurd rfl (hne x y rest)

example : toHex (sha256.hash [0]) =
    "6e340b9cffb37a989ca544e6bb780a2c78901d3fb33738768511a30617afa01d" := by
  decide +kernel

end Vici2
