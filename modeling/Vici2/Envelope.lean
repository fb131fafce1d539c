import Vici2.AuditCanonical
import Vici2.Base64
import Vici2.Delimited

/-! Envelope encryption of column values. A fresh key encrypts the value, bound to its table,
column, row and tenant, and the key-encryption key of the environment encrypts that key; the
blob holds both. -/

namespace Vici2

namespace Envelope

open Audit (utf8 utf8_inj)

/-- An authenticated cipher. Decryption takes the key, the IV, the associated data, the
ciphertext and its tag. -/
structure Aead where
  encrypt : Bytes → Bytes → Bytes → Bytes → Bytes × Bytes
  decrypt : Bytes → Bytes → Bytes → Bytes → Bytes → Option Bytes
  decrypt_encrypt : ∀ key iv aad pt,
    decrypt key iv aad (encrypt key iv aad pt).1 (encrypt key iv aad pt).2 = some pt
  length_ciphertext : ∀ key iv aad pt, (encrypt key iv aad pt).1.length = pt.length
  length_tag : ∀ key iv aad pt, (encrypt key iv aad pt).2.length = 16

/-- What was encrypted with some associated data does not decrypt with other. -/
def Aead.Rejects (c : Aead) (key iv aad pt other : Bytes) : Prop :=
  c.decrypt key iv other (c.encrypt key iv aad pt).1 (c.encrypt key iv aad pt).2 = none

def layoutVersion : UInt8 := 0x01

def dekBytes : Nat := 32

def ivBytes : Nat := 12

def tagBytes : Nat := 16

def headerBytes : Nat := 1 + 2 + ivBytes + dekBytes + tagBytes + ivBytes

/-- The texts of the environment; a variable that is not set reads as the empty text. -/
structure Env where
  kekCurrentVersion : Int
  kekVersionEnv : Int → String

structure Cell where
  table : String
  column : String
  rowId : Int
  tenantId : Int
  deriving DecidableEq, Repr

inductive Plaintext
  | text (s : String)
  | bytes (b : Bytes)
  deriving DecidableEq

def Plaintext.buffer : Plaintext → Bytes
  | .text s => utf8 s
  | .bytes b => b

structure Draws where
  dek : Bytes
  dekWrapIv : Bytes
  payloadIv : Bytes
  length_dek : dek.length = dekBytes
  length_dekWrapIv : dekWrapIv.length = ivBytes
  length_payloadIv : payloadIv.length = ivBytes
  deriving DecidableEq

def getKek (env : Env) (version : Int) : Except String Bytes :=
  let b64 := env.kekVersionEnv version
  if b64 = "" then .error ("KEK version " ++ toString version ++ " not configured")
  else
    let buf := Base64.decode b64
    if buf.length ≠ 32 then
      .error ("KEK v" ++ toString version ++ " must be 32 bytes; got " ++ toString buf.length)
    else .ok buf

def payloadText (cell : Cell) (kekVersion : Int) : String :=
  "table:" ++ cell.table ++ ":column:" ++ cell.column ++ ":row_id:" ++ toString cell.rowId ++
    ":tenant_id:" ++ toString cell.tenantId ++ ":kek_version:" ++ toString kekVersion

def payloadAad (H : Digest) (cell : Cell) (kekVersion : Int) : Bytes :=
  H.hash (utf8 (payloadText cell kekVersion))

def kekAad (version : Int) : Bytes := utf8 ("vici2:kek-wrap:v" ++ toString version)

/-- `src.copy(out, off)`, which writes no further than the end of `out`. -/
def copyAt (src : Bytes) (off : Nat) (out : Bytes) : Bytes :=
  out.take off ++ src.take (out.length - off) ++ out.drop (off + src.length)

def subarray (b : Bytes) (start stop : Nat) : Bytes := (b.drop start).take (stop - start)

def littleEndian16 (n : Nat) : Bytes := [UInt8.ofNat (n % 256), UInt8.ofNat (n / 256)]

def readUInt16LE (b : Bytes) (off : Nat) : Nat :=
  (b.getD off 0).toNat + 256 * (b.getD (off + 1) 0).toNat

def errUnauthenticated : String := "Unsupported state or unable to authenticate data"

/-- `decipher.final()` throws where the tag does not fit. -/
def decipherFinal (c : Aead) (key iv aad ct tag : Bytes) : Except String Bytes :=
  match c.decrypt key iv aad ct tag with
  | some pt => .ok pt
  | none => .error errUnauthenticated

structure EncryptResult where
  ciphertextBlob : Bytes
  kekVersion : Int

def encrypt (c : Aead) (H : Digest) (env : Env) (draws : Draws) (cell : Cell)
    (plaintext : Plaintext) : Except String EncryptResult := do
  let kekVersion := env.kekCurrentVersion
  let kek ← getKek env kekVersion
  let (dekCt, dekTag) := c.encrypt kek draws.dekWrapIv (kekAad kekVersion) draws.dek
  let aad := payloadAad H cell kekVersion
  let (payloadCt, payloadTag) := c.encrypt draws.dek draws.payloadIv aad plaintext.buffer
  let out := List.replicate (headerBytes + payloadCt.length + tagBytes) 0
  let off := 0
  let out := copyAt [layoutVersion] off out
  let off := off + 1
  if kekVersion < 0 ∨ 65535 < kekVersion then
    .error ("The value of \"value\" is out of range. It must be >= 0 and <= 65535. Received " ++
      toString kekVersion)
  else
    let out := copyAt (littleEndian16 kekVersion.toNat) off out
    let off := off + 2
    let out := copyAt draws.dekWrapIv off out
    let off := off + ivBytes
    let out := copyAt dekCt off out
    let off := off + dekBytes
    let out := copyAt dekTag off out
    let off := off + tagBytes
    let out := copyAt draws.payloadIv off out
    let off := off + ivBytes
    let out := copyAt payloadCt off out
    let off := off + payloadCt.length
    let out := copyAt payloadTag off out
    return ⟨out, kekVersion⟩

def decrypt (c : Aead) (H : Digest) (env : Env) (cell : Cell) (blob : Bytes) :
    Except String Bytes := do
  if blob.length < headerBytes + tagBytes then .error "ciphertext too short"
  else
    let off := 0
    let version := blob.getD off 0
    let off := off + 1
    if version ≠ layoutVersion then
      .error ("unsupported blob version " ++ toString version.toNat)
    else
      let kekVersion := readUInt16LE blob off
      let off := off + 2
      if kekVersion < 1 then .error "invalid kek_version"
      else
        let kek ← getKek env kekVersion
        let dekWrapIv := subarray blob off (off + ivBytes)
        let off := off + ivBytes
        let dekCt := subarray blob off (off + dekBytes)
        let off := off + dekBytes
        let dekTag := subarray blob off (off + tagBytes)
        let off := off + tagBytes
        let payloadIv := subarray blob off (off + ivBytes)
        let off := off + ivBytes
        let payloadCt := subarray blob off (blob.length - tagBytes)
        let payloadTag := subarray blob (blob.length - tagBytes) blob.length
        let dek ← decipherFinal c kek dekWrapIv (kekAad kekVersion) dekCt dekTag
        let aad := payloadAad H cell kekVersion
        decipherFinal c dek payloadIv aad payloadCt payloadTag

section Layout

variable {done hole src rest : Bytes}

theorem copyAt_hole (hole : Bytes) (hlen : hole.length = src.length) :
    copyAt src done.length (done ++ (hole ++ rest)) = done ++ src ++ rest := by
  have hroom : src.take ((done ++ (hole ++ rest)).length - done.length) = src := by
    apply List.take_of_length_le
    simp only [List.length_append]
    omega
  have hbefore : (done ++ (hole ++ rest)).take done.length = done := List.take_left
  have hafter : (done ++ (hole ++ rest)).drop (done.length + src.length) = rest := by
    rw [← List.append_assoc, ← hlen, ← List.length_append]
    exact List.drop_left
  rw [copyAt, hbefore, hroom, hafter]

def writeAll : List Bytes → Nat → Bytes → Bytes
  | [], _, out => out
  | src :: rest, off, out => writeAll rest (off + src.length) (copyAt src off out)

/-- Writes that fill a buffer leave their contents in it. -/
theorem writeAll_zeros (done : Bytes) (pieces : List Bytes) :
    writeAll pieces done.length (done ++ List.replicate pieces.flatten.length 0) =
      done ++ pieces.flatten := by
  induction pieces generalizing done with
  | nil => simp [writeAll]
  | cons src rest ih =>
    have hsplit : List.replicate (src :: rest).flatten.length (0 : UInt8) =
        List.replicate src.length 0 ++ List.replicate rest.flatten.length 0 := by
      rw [List.replicate_append_replicate, List.flatten_cons, List.length_append]
    rw [writeAll, hsplit, copyAt_hole _ List.length_replicate, ← List.length_append, ih,
      List.append_assoc, List.flatten_cons]

theorem subarray_middle {start stop : Nat} (hstart : start = done.length)
    (hstop : stop = start + src.length) : subarray (done ++ (src ++ rest)) start stop = src := by
  have hdrop : (done ++ (src ++ rest)).drop start = src ++ rest := by
    rw [hstart]
    exact List.drop_left
  rw [subarray, hdrop, hstop, Nat.add_sub_cancel_left]
  exact List.take_left

end Layout

structure Frame where
  kekVersion : Nat
  dekWrapIv : Bytes
  dekCt : Bytes
  dekTag : Bytes
  payloadIv : Bytes
  payloadCt : Bytes
  payloadTag : Bytes
  version_fits : kekVersion ≤ 65535
  length_dekWrapIv : dekWrapIv.length = ivBytes
  length_dekCt : dekCt.length = dekBytes
  length_dekTag : dekTag.length = tagBytes
  length_payloadIv : payloadIv.length = ivBytes
  length_payloadTag : payloadTag.length = tagBytes

namespace Frame

def bytes (f : Frame) : Bytes :=
  [layoutVersion] ++ (littleEndian16 f.kekVersion ++ (f.dekWrapIv ++ (f.dekCt ++ (f.dekTag ++
    (f.payloadIv ++ (f.payloadCt ++ f.payloadTag))))))

theorem length_bytes (f : Frame) :
    f.bytes.length = headerBytes + f.payloadCt.length + tagBytes := by
  simp only [bytes, List.length_append, f.length_dekWrapIv, f.length_dekCt, f.length_dekTag,
    f.length_payloadIv, f.length_payloadTag, littleEndian16, List.length_cons, List.length_nil,
    headerBytes]
  omega

theorem readUInt16LE_bytes (f : Frame) : readUInt16LE f.bytes 1 = f.kekVersion := by
  have hfits := f.version_fits
  have hlow : (UInt8.ofNat (f.kekVersion % 256)).toNat = f.kekVersion % 256 := by
    rw [UInt8.toNat_ofNat']
    omega
  have hhigh : (UInt8.ofNat (f.kekVersion / 256)).toNat = f.kekVersion / 256 := by
    rw [UInt8.toNat_ofNat']
    omega
  show (UInt8.ofNat (f.kekVersion % 256)).toNat + 256 * (UInt8.ofNat (f.kekVersion / 256)).toNat =
    f.kekVersion
  rw [hlow, hhigh]
  omega

/-- A field lies behind everything that comes before it. -/
theorem subarray_field (f : Frame) {field : Bytes} {start stop : Nat} (before after : Bytes)
    (hb : f.bytes = before ++ (field ++ after)) (hstart : start = before.length)
    (hstop : stop = start + field.length) : subarray f.bytes start stop = field := by
  rw [hb]
  exact subarray_middle hstart hstop

theorem decrypt_bytes (c : Aead) (H : Digest) (env : Env) (cell : Cell) (f : Frame)
    (hv : 1 ≤ f.kekVersion) :
    decrypt c H env cell f.bytes =
      (do
        let kek ← getKek env f.kekVersion
        let dek ← decipherFinal c kek f.dekWrapIv (kekAad f.kekVersion) f.dekCt f.dekTag
        decipherFinal c dek f.payloadIv (payloadAad H cell f.kekVersion) f.payloadCt
          f.payloadTag) := by
  have hlength := f.length_bytes
  have hiv := f.length_dekWrapIv
  have hct := f.length_dekCt
  have htag := f.length_dekTag
  have hpiv := f.length_payloadIv
  have hptag := f.length_payloadTag
  have hle : (littleEndian16 f.kekVersion).length = 2 := rfl
  have hshort : ¬ f.bytes.length < headerBytes + tagBytes := by omega
  have hversion : f.bytes.getD 0 0 = layoutVersion := rfl
  have hkek : ¬ f.kekVersion < 1 := by omega
  have hdekWrapIv : subarray f.bytes 3 (3 + ivBytes) = f.dekWrapIv :=
    f.subarray_field ([layoutVersion] ++ littleEndian16 f.kekVersion)
      (f.dekCt ++ (f.dekTag ++ (f.payloadIv ++ (f.payloadCt ++ f.payloadTag))))
      (by simp [bytes]) (by simp [hle]) (by rw [hiv])
  have hdekCt : subarray f.bytes (3 + ivBytes) (3 + ivBytes + dekBytes) = f.dekCt :=
    f.subarray_field ([layoutVersion] ++ littleEndian16 f.kekVersion ++ f.dekWrapIv)
      (f.dekTag ++ (f.payloadIv ++ (f.payloadCt ++ f.payloadTag)))
      (by simp [bytes]) (by simp [hle, hiv]; omega) (by rw [hct])
  have hdekTag : subarray f.bytes (3 + ivBytes + dekBytes) (3 + ivBytes + dekBytes + tagBytes) =
      f.dekTag :=
    f.subarray_field ([layoutVersion] ++ littleEndian16 f.kekVersion ++ f.dekWrapIv ++ f.dekCt)
      (f.payloadIv ++ (f.payloadCt ++ f.payloadTag))
      (by simp [bytes]) (by simp [hle, hiv, hct]; omega) (by rw [htag])
  have hpayloadIv : subarray f.bytes (3 + ivBytes + dekBytes + tagBytes)
      (3 + ivBytes + dekBytes + tagBytes + ivBytes) = f.payloadIv :=
    f.subarray_field ([layoutVersion] ++ littleEndian16 f.kekVersion ++ f.dekWrapIv ++ f.dekCt ++
        f.dekTag)
      (f.payloadCt ++ f.payloadTag)
      (by simp [bytes]) (by simp [hle, hiv, hct, htag]; omega) (by rw [hpiv])
  have hpayloadCt : subarray f.bytes (3 + ivBytes + dekBytes + tagBytes + ivBytes)
      (f.bytes.length - tagBytes) = f.payloadCt :=
    f.subarray_field ([layoutVersion] ++ littleEndian16 f.kekVersion ++ f.dekWrapIv ++ f.dekCt ++
        f.dekTag ++ f.payloadIv)
      f.payloadTag
      (by simp [bytes]) (by simp [hle, hiv, hct, htag, hpiv]; omega)
      (by rw [hlength, headerBytes]; omega)
  have hpayloadTag : subarray f.bytes (f.bytes.length - tagBytes) f.bytes.length =
      f.payloadTag :=
    f.subarray_field ([layoutVersion] ++ littleEndian16 f.kekVersion ++ f.dekWrapIv ++ f.dekCt ++
        f.dekTag ++ f.payloadIv ++ f.payloadCt)
      [] (by simp [bytes])
      (by rw [hlength]; simp [hle, hiv, hct, htag, hpiv, headerBytes]; omega)
      (by rw [hptag]; omega)
  simp only [decrypt, if_neg hshort, hversion, ne_eq, not_true_eq_false, if_false, Nat.zero_add,
    Nat.reduceAdd, f.readUInt16LE_bytes, if_neg hkek, hdekWrapIv, hdekCt, hdekTag, hpayloadIv,
    hpayloadCt, hpayloadTag]

theorem decrypt_version_zero (c : Aead) (H : Digest) (env : Env) (cell : Cell) (f : Frame)
    (hv : f.kekVersion = 0) : decrypt c H env cell f.bytes = .error "invalid kek_version" := by
  have hlength := f.length_bytes
  have hshort : ¬ f.bytes.length < headerBytes + tagBytes := by omega
  have hversion : f.bytes.getD 0 0 = layoutVersion := rfl
  have hkek : f.kekVersion < 1 := by omega
  simp only [decrypt, if_neg hshort, hversion, ne_eq, not_true_eq_false, if_false, Nat.zero_add,
    f.readUInt16LE_bytes, if_pos hkek]

end Frame

variable {c : Aead} {H : Digest} {env : Env} {draws : Draws} {cell : Cell} {plaintext : Plaintext}
  {kek : Bytes}

def sealed (c : Aead) (H : Digest) (env : Env) (draws : Draws) (cell : Cell)
    (plaintext : Plaintext) (kek : Bytes) (hfits : env.kekCurrentVersion ≤ 65535) : Frame where
  kekVersion := env.kekCurrentVersion.toNat
  dekWrapIv := draws.dekWrapIv
  dekCt := (c.encrypt kek draws.dekWrapIv (kekAad env.kekCurrentVersion) draws.dek).1
  dekTag := (c.encrypt kek draws.dekWrapIv (kekAad env.kekCurrentVersion) draws.dek).2
  payloadIv := draws.payloadIv
  payloadCt := (c.encrypt draws.dek draws.payloadIv (payloadAad H cell env.kekCurrentVersion)
    plaintext.buffer).1
  payloadTag := (c.encrypt draws.dek draws.payloadIv (payloadAad H cell env.kekCurrentVersion)
    plaintext.buffer).2
  version_fits := by omega
  length_dekWrapIv := draws.length_dekWrapIv
  length_dekCt := (c.length_ciphertext _ _ _ _).trans draws.length_dek
  length_dekTag := c.length_tag _ _ _ _
  length_payloadIv := draws.length_payloadIv
  length_payloadTag := c.length_tag _ _ _ _

/-- The fields, in the order in which they are written. -/
def Frame.pieces (f : Frame) : List Bytes :=
  [[layoutVersion], littleEndian16 f.kekVersion, f.dekWrapIv, f.dekCt, f.dekTag, f.payloadIv,
    f.payloadCt, f.payloadTag]

theorem Frame.flatten_pieces (f : Frame) : f.pieces.flatten = f.bytes := by
  simp [pieces, bytes]

theorem encrypt_eq (hkek : getKek env env.kekCurrentVersion = .ok kek)
    (hzero : 0 ≤ env.kekCurrentVersion) (hfits : env.kekCurrentVersion ≤ 65535) :
    encrypt c H env draws cell plaintext =
      .ok ⟨(sealed c H env draws cell plaintext kek hfits).bytes, env.kekCurrentVersion⟩ := by
  obtain ⟨f, hf⟩ : ∃ f, f = sealed c H env draws cell plaintext kek hfits := ⟨_, rfl⟩
  have hrange : ¬ (env.kekCurrentVersion < 0 ∨ 65535 < env.kekCurrentVersion) := by omega
  have hwritten := writeAll_zeros [] f.pieces
  rw [f.flatten_pieces, f.length_bytes] at hwritten
  simp only [Frame.pieces, writeAll, List.nil_append, List.length_nil, List.length_singleton,
    f.length_dekWrapIv, f.length_dekCt, f.length_dekTag, f.length_payloadIv] at hwritten
  rw [← hf, ← hwritten, hf]
  simp only [encrypt, hkek, if_neg hrange]
  rfl

/-- An encryption that succeeds found its key, and a version that fits the layout. -/
theorem encrypt_ok {result : EncryptResult}
    (h : encrypt c H env draws cell plaintext = .ok result) :
    ∃ kek, getKek env env.kekCurrentVersion = .ok kek ∧ 0 ≤ env.kekCurrentVersion ∧
      ∃ hfits, result.ciphertextBlob =
        (sealed c H env draws cell plaintext kek hfits).bytes := by
  cases hkek : getKek env env.kekCurrentVersion with
  | error e =>
    simp only [encrypt, hkek] at h
    cases h
  | ok kek =>
    by_cases hrange : env.kekCurrentVersion < 0 ∨ 65535 < env.kekCurrentVersion
    · simp only [encrypt, hkek, if_pos hrange] at h
      cases h
    · have hfits : env.kekCurrentVersion ≤ 65535 := by omega
      have hzero : 0 ≤ env.kekCurrentVersion := by omega
      rw [encrypt_eq hkek hzero hfits] at h
      refine ⟨kek, rfl, hzero, hfits, ?_⟩
      rw [← Except.ok.inj h]

/-- The cipher and the digest keep two places of one value apart: their texts have digests of
their own, and the cipher does not take the one digest for the other. -/
structure Separates (c : Aead) (H : Digest) (draws : Draws) (plaintext : Plaintext)
    (kekVersion : Int) (cell other : Cell) : Prop where
  digest : payloadAad H cell kekVersion = payloadAad H other kekVersion →
    payloadText cell kekVersion = payloadText other kekVersion
  cipher : payloadAad H cell kekVersion ≠ payloadAad H other kekVersion →
    c.Rejects draws.dek draws.payloadIv (payloadAad H cell kekVersion) plaintext.buffer
      (payloadAad H other kekVersion)

/-- Names without the separator of the text. -/
def Cell.Plain (cell : Cell) : Prop := ':' ∉ cell.table.toList ∧ ':' ∉ cell.column.toList

theorem payloadText_toList (cell : Cell) (v : Int) : (payloadText cell v).toList =
    "table:".toList ++ (cell.table.toList ++ ':' :: ("column:".toList ++ (cell.column.toList ++
      ':' :: ("row_id:".toList ++ ((toString cell.rowId).toList ++ ':' :: ("tenant_id:".toList ++
        ((toString cell.tenantId).toList ++ ':' ::
          ("kek_version:".toList ++ (toString v).toList)))))))) := by
  have hcolumn : ":column:".toList = ':' :: "column:".toList := by rfl
  have hrow : ":row_id:".toList = ':' :: "row_id:".toList := by rfl
  have htenant : ":tenant_id:".toList = ':' :: "tenant_id:".toList := by rfl
  have hversion : ":kek_version:".toList = ':' :: "kek_version:".toList := by rfl
  unfold payloadText
  simp only [String.toList_append]
  rw [hcolumn, hrow, htenant, hversion]
  simp only [List.cons_append, List.append_assoc]

theorem payloadText_inj {cell other : Cell} {v : Int} (hcell : cell.Plain) (hother : other.Plain)
    (h : payloadText cell v = payloadText other v) : cell = other := by
  have hlist := congrArg String.toList h
  rw [payloadText_toList, payloadText_toList] at hlist
  obtain ⟨htable, hlist⟩ :=
    Delimited.append_sep_inj hcell.1 hother.1 (List.append_cancel_left hlist)
  obtain ⟨hcolumn, hlist⟩ :=
    Delimited.append_sep_inj hcell.2 hother.2 (List.append_cancel_left hlist)
  obtain ⟨hrow, hlist⟩ := Delimited.append_sep_inj (Delimited.colon_not_mem_toString_int _)
    (Delimited.colon_not_mem_toString_int _) (List.append_cancel_left hlist)
  obtain ⟨htenant, -⟩ := Delimited.append_sep_inj (Delimited.colon_not_mem_toString_int _)
    (Delimited.colon_not_mem_toString_int _) (List.append_cancel_left hlist)
  have hrowId := Delimited.toString_int_inj (String.toList_inj.1 hrow)
  have htenantId := Delimited.toString_int_inj (String.toList_inj.1 htenant)
  cases cell
  cases other
  simp only [Cell.mk.injEq]
  exact ⟨String.toList_inj.1 htable, String.toList_inj.1 hcolumn, hrowId, htenantId⟩

/-- Reading a blob at some place opens its payload with the text of that place. -/
theorem decrypt_sealed (hkek : getKek env env.kekCurrentVersion = .ok kek)
    (hone : 1 ≤ env.kekCurrentVersion) (hfits : env.kekCurrentVersion ≤ 65535) (other : Cell) :
    decrypt c H env other (sealed c H env draws cell plaintext kek hfits).bytes =
      decipherFinal c draws.dek draws.payloadIv (payloadAad H other env.kekCurrentVersion)
        (sealed c H env draws cell plaintext kek hfits).payloadCt
        (sealed c H env draws cell plaintext kek hfits).payloadTag := by
  have hversion : ((env.kekCurrentVersion.toNat : Nat) : Int) = env.kekCurrentVersion :=
    Int.toNat_of_nonneg (by omega)
  have hnat : 1 ≤ env.kekCurrentVersion.toNat := by omega
  have hdek : decipherFinal c kek draws.dekWrapIv (kekAad env.kekCurrentVersion)
      (sealed c H env draws cell plaintext kek hfits).dekCt
      (sealed c H env draws cell plaintext kek hfits).dekTag = .ok draws.dek := by
    simp only [decipherFinal, sealed, c.decrypt_encrypt]
  rw [(sealed c H env draws cell plaintext kek hfits).decrypt_bytes c H env other hnat]
  show (do
      let kek ← getKek env (env.kekCurrentVersion.toNat : Nat)
      let dek ← decipherFinal c kek draws.dekWrapIv
        (kekAad (env.kekCurrentVersion.toNat : Nat)) _ _
      decipherFinal c dek draws.payloadIv
        (payloadAad H other (env.kekCurrentVersion.toNat : Nat)) _ _) = _
  rw [hversion, hkek]
  show (do
      let dek ← decipherFinal c kek draws.dekWrapIv (kekAad env.kekCurrentVersion) _ _
      decipherFinal c dek draws.payloadIv (payloadAad H other env.kekCurrentVersion) _ _) = _
  rw [hdek]
  rfl

theorem decrypt_elsewhere (hkek : getKek env env.kekCurrentVersion = .ok kek)
    (hone : 1 ≤ env.kekCurrentVersion) (hfits : env.kekCurrentVersion ≤ 65535) {other : Cell}
    (hcell : cell.Plain) (hother : other.Plain) (hne : other ≠ cell)
    (hsep : Separates c H draws plaintext env.kekCurrentVersion cell other) :
    decrypt c H env other (sealed c H env draws cell plaintext kek hfits).bytes =
      .error errUnauthenticated := by
  have hdigest : payloadAad H cell env.kekCurrentVersion ≠
      payloadAad H other env.kekCurrentVersion := by
    intro heq
    exact hne (payloadText_inj hcell hother (hsep.digest heq)).symm
  have hrejects := hsep.cipher hdigest
  rw [decrypt_sealed hkek hone hfits]
  unfold Aead.Rejects at hrejects
  simp only [decipherFinal, sealed, hrejects]

/-- With a configured key of a version from 1 to 65535, what is encrypted for a place decrypts
there, and, with names free of `:`, nowhere else. -/
theorem encrypt_decrypt (c : Aead) (H : Digest) (env : Env) (draws : Draws) (cell : Cell)
    (plaintext : Plaintext) (kek : Bytes) (hone : 1 ≤ env.kekCurrentVersion)
    (hfits : env.kekCurrentVersion ≤ 65535)
    (hkek : getKek env env.kekCurrentVersion = .ok kek) :
    ∃ result, encrypt c H env draws cell plaintext = .ok result ∧
      decrypt c H env cell result.ciphertextBlob = .ok plaintext.buffer ∧
      ∀ other : Cell, cell.Plain → other.Plain → other ≠ cell →
        Separates c H draws plaintext env.kekCurrentVersion cell other →
        decrypt c H env other result.ciphertextBlob = .error errUnauthenticated := by
  refine ⟨_, encrypt_eq hkek (by omega) hfits, ?_, fun other hcell hother hne hsep => ?_⟩
  · rw [decrypt_sealed hkek hone hfits]
    simp only [decipherFinal, sealed, c.decrypt_encrypt]
  · exact decrypt_elsewhere hkek hone hfits hcell hother hne hsep

/-- A stand-in for the cipher: the plaintext in the clear, with a tag over all there is. -/
def tagged (H : Digest) : Aead where
  encrypt key iv aad pt := (pt, (H.hash (key ++ iv ++ aad ++ pt)).take 16)
  decrypt key iv aad ct tag :=
    if (H.hash (key ++ iv ++ aad ++ ct)).take 16 = tag then some ct else none
  decrypt_encrypt _ _ _ _ := if_pos rfl
  length_ciphertext _ _ _ _ := rfl
  length_tag _ _ _ _ := by simp [H.length_hash]

def firstKek : Bytes := List.replicate 32 7

def oneKek : Env where
  kekCurrentVersion := 1
  kekVersionEnv version := if version = 1 then Base64.encode firstKek else ""

def fixedDraws : Draws where
  dek := List.replicate 32 1
  dekWrapIv := List.replicate 12 2
  payloadIv := List.replicate 12 3
  length_dek := rfl
  length_dekWrapIv := rfl
  length_payloadIv := rfl

theorem getKek_oneKek : getKek oneKek 1 = .ok firstKek := by
  have hset : Base64.encode firstKek ≠ "" := by decide +kernel
  have hlength : firstKek.length = 32 := rfl
  simp [getKek, oneKek, hset, hlength, Base64.decode_encode]

def passwordCell (rowId : Int) : Cell := ⟨"fs_nodes", "esl_password", rowId, 1⟩

theorem plain_passwordCell (rowId : Int) : (passwordCell rowId).Plain := by
  simp [Cell.Plain, passwordCell]

theorem separates_rows_zero_one :
    Separates (tagged sha256) sha256 fixedDraws (.text "secret") 1 (passwordCell 0)
      (passwordCell 1) where
  digest h := absurd h (by decide +kernel)
  cipher _ := by
    unfold Aead.Rejects
    decide +kernel

theorem encrypt_decrypt_password :
    ∃ result, encrypt (tagged sha256) sha256 oneKek fixedDraws (passwordCell 0)
        (.text "secret") = .ok result ∧
      decrypt (tagged sha256) sha256 oneKek (passwordCell 0) result.ciphertextBlob =
        .ok (utf8 "secret") ∧
      decrypt (tagged sha256) sha256 oneKek (passwordCell 1) result.ciphertextBlob =
        .error errUnauthenticated := by
  obtain ⟨result, hencrypt, hdecrypt, hother⟩ :=
    encrypt_decrypt (tagged sha256) sha256 oneKek fixedDraws (passwordCell 0) (.text "secret")
      firstKek (by decide) (by decide) getKek_oneKek
  exact ⟨result, hencrypt, hdecrypt, hother (passwordCell 1) (plain_passwordCell 0)
    (plain_passwordCell 1) (by decide) separates_rows_zero_one⟩

end Envelope

end Vici2
