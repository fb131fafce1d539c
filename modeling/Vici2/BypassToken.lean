import Vici2.AuditCanonical
import Vici2.Delimited
import Vici2.DncImport
import Vici2.Runs
import Vici2.Sha256

/-! Single-use tokens that lift a DNC block. The API mints them under a time to live; the API and
the dialer redeem them by one script, which deletes the token whatever it finds. What a
redemption answers is read off the history of the token. -/

namespace Vici2

namespace Dnc

namespace Bypass

open Audit (utf8)
open Delimited

/-- What a token stands for, and what a redemption expects of it. -/
structure Terms where
  tenantId : Int
  phone : String
  source : DncSource
  userId : Int
  justification : String
  deriving DecidableEq, Repr

structure MintOpts where
  terms : Terms
  ttlSeconds : Option Int
  deriving DecidableEq, Repr

inductive RedeemResult
  | ok | mismatch | expired
  deriving DecidableEq, Repr

section Source

variable (H : Digest)

def bypassKey (tenantId : Int) (tokenHash : String) : String :=
  "t:" ++ toString tenantId ++ ":dnc:bypass:" ++ tokenHash

def hashHex (s : String) : String := toHex (H.hash (utf8 s))

def payload (o : Terms) : String :=
  o.phone ++ "|" ++ o.source.row.text ++ "|" ++ toString o.userId ++ "|" ++ hashHex H o.justification

def ttl (o : MintOpts) : Int := min (o.ttlSeconds.getD 60) 300

structure Held where
  payload : String
  expiresAt : Int
  deriving DecidableEq, Repr

/-- A command of Valkey that succeeded or a script that answered, with the moment. -/
inductive Event
  | minted (at' : Int) (tokenHash : String) (o : MintOpts)
  | redeemed (at' : Int) (tokenHash : String) (o : Terms) (result : RedeemResult)
  deriving DecidableEq, Repr

structure Store where
  now : Int
  held : String → Option Held
  log : List Event

inductive Op
  | tick (n : Nat)
  | mintBypassToken (token : String) (o : MintOpts)
  | redeemBypassToken (token : String) (o : Terms)
  | redeemBypass (tokenHash : String) (o : Terms)

namespace Store

variable (s : Store)

def get (key : String) : Option Held := (s.held key).filter fun v => s.now ≤ v.expiresAt

def redeem (tokenHash : String) (o : Terms) : Store :=
  let key := bypassKey o.tenantId tokenHash
  let result : RedeemResult :=
    match s.get key with
    | none => .expired
    | some v => if v.payload ≠ payload H o then .mismatch else .ok
  { s with
    held := Function.update s.held key none
    log := .redeemed s.now tokenHash o result :: s.log }

/-- `SET NX EX`, which refuses a time to live that is not positive and a key that is held. -/
def mint (tokenHash : String) (o : MintOpts) : Store :=
  let key := bypassKey o.terms.tenantId tokenHash
  if ttl o ≤ 0 ∨ (s.get key).isSome then s
  else
    { s with
      held := Function.update s.held key (some ⟨payload H o.terms, s.now + ttl o * 1000⟩)
      log := .minted s.now tokenHash o :: s.log }

def step (s : Store) : Op → Store
  | .tick n => { s with now := s.now + n }
  | .mintBypassToken token o => s.mint H (hashHex H token) o
  | .redeemBypassToken token o => s.redeem H (hashHex H token) o
  | .redeemBypass tokenHash o => s.redeem H tokenHash o

end Store

end Source

def Event.touches (key : String) : Event → Bool
  | .minted _ h o => bypassKey o.terms.tenantId h = key
  | .redeemed _ h o _ => bypassKey o.tenantId h = key

section History

variable (H : Digest)

def Event.leaves : Event → Option Held
  | .minted at' _ o => some ⟨payload H o.terms, at' + ttl o * 1000⟩
  | .redeemed _ _ _ _ => none

def heldBy (log : List Event) (key : String) : Option Held :=
  (log.find? fun e => e.touches key).bind (Event.leaves H)

/-- A redemption was answered by what was left of its key then. -/
def Event.Answers (log : List Event) : Event → Prop
  | .minted _ _ _ => True
  | .redeemed at' h o result =>
    result =
      match (heldBy H log (bypassKey o.tenantId h)).filter fun v => at' ≤ v.expiresAt with
      | none => .expired
      | some v => if v.payload ≠ payload H o then .mismatch else .ok

def Answered : List Event → Prop
  | [] => True
  | e :: rest => e.Answers H rest ∧ Answered rest

structure Store.Inv (s : Store) : Prop where
  held : ∀ key, s.held key = heldBy H s.log key
  log : Answered H s.log

variable {H}

theorem answers_of_split {pre rest : List Event} {e : Event} (h : Answered H (pre ++ e :: rest)) :
    e.Answers H rest := by
  induction pre with
  | nil => exact h.1
  | cons e' pre ih => exact ih h.2

theorem heldBy_cons (e : Event) (log : List Event) (key : String) :
    heldBy H (e :: log) key = if e.touches key then e.leaves H else heldBy H log key := by
  unfold heldBy
  by_cases ht : e.touches key = true
  · rw [List.find?_cons_of_pos ht, if_pos ht]
    rfl
  · rw [List.find?_cons_of_neg ht, if_neg ht]

theorem held_update {s : Store} (h : ∀ key, s.held key = heldBy H s.log key) {e : Event}
    {key : String} (hkey : ∀ k, e.touches k = decide (key = k)) (k : String) :
    Function.update s.held key (e.leaves H) k = heldBy H (e :: s.log) k := by
  rw [heldBy_cons, hkey]
  by_cases hk : key = k
  · subst hk
    rw [Function.update_self, if_pos (decide_eq_true rfl)]
  · rw [Function.update_of_ne (Ne.symm hk), h k, if_neg (by simpa using hk)]

theorem Store.Inv.redeem {s : Store} (h : s.Inv H) (tokenHash : String) (o : Terms) :
    (s.redeem H tokenHash o).Inv H := by
  refine ⟨fun k => ?_, ?_, h.log⟩
  · exact held_update (e := .redeemed _ _ _ _) h.held (fun _ => rfl) k
  · have hget : s.get (bypassKey o.tenantId tokenHash) =
        (heldBy H s.log (bypassKey o.tenantId tokenHash)).filter fun v => s.now ≤ v.expiresAt := by
      unfold Store.get
      rw [h.held]
    show _ = _
    rw [hget]

theorem Store.Inv.mint {s : Store} (h : s.Inv H) (tokenHash : String) (o : MintOpts) :
    (s.mint H tokenHash o).Inv H := by
  unfold Store.mint
  dsimp only
  split
  · exact h
  · exact ⟨fun k => held_update (e := .minted _ _ _) h.held (fun _ => rfl) k, trivial, h.log⟩

theorem Store.Inv.step {s : Store} (h : s.Inv H) (op : Op) : (s.step H op).Inv H := by
  cases op with
  | tick n => exact ⟨h.held, h.log⟩
  | mintBypassToken token o => exact h.mint _ o
  | redeemBypassToken token o => exact h.redeem _ o
  | redeemBypass tokenHash o => exact h.redeem tokenHash o

def Store.start (now : Int) : Store := ⟨now, fun _ => none, []⟩

theorem inv_start (now : Int) : (Store.start now).Inv H where
  held _ := rfl
  log := trivial

theorem inv_run (now : Int) (l : List Op) : (l.foldl (Store.step H) (Store.start now)).Inv H :=
  (always_of_step (I := fun s : Store => s.Inv H) (fun _ op h => h.step op) l (inv_start now)).last

end History

section Texts

theorem bypassKey_inj {t t' : Int} {h h' : String} (heq : bypassKey t h = bypassKey t' h') :
    t = t' ∧ h = h' := by
  have hlist := congrArg String.toList heq
  simp only [bypassKey, String.toList_append, List.append_assoc] at hlist
  have hrest := (List.cons.inj (List.cons.inj hlist).2).2
  obtain ⟨htenant, hsuffix⟩ := append_sep_inj (colon_not_mem_toString_int t)
    (colon_not_mem_toString_int t') hrest
  exact ⟨toString_int_inj (String.toList_inj.1 htenant),
    String.toList_inj.1 (List.append_cancel_left hsuffix)⟩

variable (H : Digest)

theorem bar_not_mem_hashHex (s : String) : '|' ∉ (hashHex H s).toList := by
  intro hmem
  have hhex : '|' ∈ hexChars (H.hash (utf8 s)) := by simpa [hashHex, toHex] using hmem
  exact absurd (isHex_of_mem_hexChars hhex) (by decide)

theorem bar_not_mem_toString_int (n : Int) : '|' ∉ (toString n).toList := by
  intro hmem
  rcases mem_toString_int hmem with hsign | hdigit
  · cases hsign
  · exact absurd hdigit (by decide)

theorem source_text_inj {a b : DncSource} (h : a.row.text = b.row.text) : a = b := by
  cases a <;> cases b <;> first | rfl | (revert h; decide)

/-- The four fields are read off a payload from its end, so that even a phone number with a bar
in it could not be mistaken. -/
theorem payload_inj {m o : Terms} (h : payload H m = payload H o) :
    m.phone = o.phone ∧ m.source = o.source ∧ m.userId = o.userId ∧
      hashHex H m.justification = hashHex H o.justification := by
  have hlist := congrArg String.toList h
  have hbar1 : "|".toList = ['|'] := rfl
  simp only [payload, String.toList_append, hbar1, List.append_assoc, List.singleton_append]
    at hlist
  simp only [← List.append_assoc] at hlist
  obtain ⟨hfront, hhash⟩ := append_sep_inj_right (bar_not_mem_hashHex H m.justification)
    (bar_not_mem_hashHex H o.justification) hlist
  obtain ⟨hfront, huser⟩ := append_sep_inj_right (bar_not_mem_toString_int m.userId)
    (bar_not_mem_toString_int o.userId) hfront
  have hbar : ∀ a : DncSource, '|' ∉ a.row.text.toList := by
    intro a
    cases a <;> decide
  obtain ⟨hphone, hsource⟩ := append_sep_inj_right (hbar m.source) (hbar o.source) hfront
  exact ⟨String.toList_inj.1 hphone, source_text_inj (String.toList_inj.1 hsource),
    toString_int_inj (String.toList_inj.1 huser), String.toList_inj.1 hhash⟩

theorem payload_eq_iff {m o : Terms} :
    payload H m = payload H o ↔ m.phone = o.phone ∧ m.source = o.source ∧ m.userId = o.userId ∧
      hashHex H m.justification = hashHex H o.justification := by
  refine ⟨payload_inj H, ?_⟩
  rintro ⟨hphone, hsource, huser, hjust⟩
  unfold payload
  rw [hphone, hsource, huser, hjust]

end Texts

section Redemption

variable {H : Digest} {rest : List Event} {key : String}

theorem heldBy_eq_some_iff {v : Held} :
    heldBy H rest key = some v ↔
      ∃ mid minted h m rest', rest = mid ++ .minted minted h m :: rest' ∧
        (∀ e ∈ mid, e.touches key = false) ∧ bypassKey m.terms.tenantId h = key ∧
        v = ⟨payload H m.terms, minted + ttl m * 1000⟩ := by
  unfold heldBy
  rw [Option.bind_eq_some_iff]
  constructor
  · rintro ⟨e, he, hv⟩
    obtain ⟨htouch, mid, rest', rfl, hmid⟩ := List.find?_eq_some_iff_append.1 he
    cases e with
    | redeemed at' h o result => cases hv
    | minted at' h m =>
      refine ⟨mid, at', h, m, rest', rfl, fun e he => ?_, of_decide_eq_true htouch,
        (Option.some.inj hv).symm⟩
      simpa using hmid e he
  · rintro ⟨mid, minted, h, m, rest', rfl, hmid, hkey, rfl⟩
    refine ⟨.minted minted h m, List.find?_eq_some_iff_append.2
      ⟨decide_eq_true hkey, mid, rest', rfl, fun e he => ?_⟩, rfl⟩
    rw [hmid e he]
    rfl

/-- A redemption succeeds exactly when the last thing that happened to the token is its minting
for the same tenant, phone, source and user and a justification of the same hash, and its time to
live is not over. -/
theorem redeemed_ok_iff (now : Int) (l : List Op) {pre rest : List Event} {at' : Int}
    {h : String} {o : Terms} {result : RedeemResult}
    (hlog : (l.foldl (Store.step H) (Store.start now)).log =
      pre ++ .redeemed at' h o result :: rest) :
    result = .ok ↔
      ∃ mid minted m rest', rest = mid ++ .minted minted h m :: rest' ∧
        (∀ e ∈ mid, e.touches (bypassKey o.tenantId h) = false) ∧
        m.terms.tenantId = o.tenantId ∧ m.terms.phone = o.phone ∧ m.terms.source = o.source ∧
        m.terms.userId = o.userId ∧
        hashHex H m.terms.justification = hashHex H o.justification ∧
        at' ≤ minted + ttl m * 1000 := by
  have hanswered := (@inv_run H now l).log
  rw [hlog] at hanswered
  have hresult : result = _ := answers_of_split hanswered
  constructor
  · intro hok
    rw [hok] at hresult
    cases hheld : (heldBy H rest (bypassKey o.tenantId h)).filter
        fun v => at' ≤ v.expiresAt with
    | none =>
      rw [hheld] at hresult
      cases hresult
    | some v =>
      rw [hheld] at hresult
      dsimp only at hresult
      split_ifs at hresult with hne
      obtain ⟨hv, halive⟩ := Option.filter_eq_some_iff.1 hheld
      obtain ⟨mid, minted, h', m, rest', hrest, hmid, hkey, rfl⟩ := heldBy_eq_some_iff.1 hv
      obtain ⟨htenant, rfl⟩ := bypassKey_inj hkey
      obtain ⟨hphone, hsource, huser, hjust⟩ := payload_inj H (not_not.1 hne)
      exact ⟨mid, minted, m, rest', hrest, hmid, htenant, hphone, hsource, huser, hjust,
        of_decide_eq_true halive⟩
  · rintro ⟨mid, minted, m, rest', hrest, hmid, htenant, hphone, hsource, huser, hjust, halive⟩
    have hheld : heldBy H rest (bypassKey o.tenantId h) =
        some ⟨payload H m.terms, minted + ttl m * 1000⟩ :=
      heldBy_eq_some_iff.2 ⟨mid, minted, h, m, rest', hrest, hmid, by rw [htenant], rfl⟩
    have hpay : payload H m.terms = payload H o :=
      (payload_eq_iff H).2 ⟨hphone, hsource, huser, hjust⟩
    rw [hresult, hheld, Option.filter_some, if_pos (decide_eq_true halive)]
    exact if_neg (not_not.2 hpay)

def sampleTerms : Terms := ⟨1, "+14155551212", .federal, 99, "returning inbound call"⟩

def sampleRun : List Op :=
  [.mintBypassToken "token" ⟨sampleTerms, none⟩, .tick 30000,
    .redeemBypass (hashHex sha256 "token") sampleTerms]

theorem sampleRun_log :
    (sampleRun.foldl (Store.step sha256) (Store.start 0)).log =
      [] ++ .redeemed 30000 (hashHex sha256 "token") sampleTerms .ok ::
        [.minted 0 (hashHex sha256 "token") ⟨sampleTerms, none⟩] := by
  have httl : ttl ⟨sampleTerms, none⟩ = 60 := by decide
  simp [sampleRun, Store.step, Store.mint, Store.redeem, Store.get, Store.start, httl,
    Option.filter_some]

theorem sampleRun_redeemed :
    ∃ mid minted m rest', [Event.minted 0 (hashHex sha256 "token") ⟨sampleTerms, none⟩] =
        mid ++ .minted minted (hashHex sha256 "token") m :: rest' ∧
      (∀ e ∈ mid, e.touches (bypassKey sampleTerms.tenantId (hashHex sha256 "token")) = false) ∧
      m.terms.tenantId = sampleTerms.tenantId ∧ m.terms.phone = sampleTerms.phone ∧
      m.terms.source = sampleTerms.source ∧ m.terms.userId = sampleTerms.userId ∧
      hashHex sha256 m.terms.justification = hashHex sha256 sampleTerms.justification ∧
      30000 ≤ minted + ttl m * 1000 :=
  (redeemed_ok_iff 0 sampleRun sampleRun_log).1 rfl

def okCount (key : String) (log : List Event) : Nat :=
  log.countP fun e =>
    match e with
    | .redeemed _ h o .ok => bypassKey o.tenantId h = key
    | _ => false

def mintCount (key : String) (log : List Event) : Nat :=
  log.countP fun e =>
    match e with
    | .minted _ h m => bypassKey m.terms.tenantId h = key
    | _ => false

theorem ok_add_held_le_minted {log : List Event} (h : Answered H log) (key : String) :
    okCount key log + (if (heldBy H log key).isSome then 1 else 0) ≤ mintCount key log := by
  induction log with
  | nil => exact le_refl 0
  | cons e log ih =>
    have hrest := ih h.2
    rw [heldBy_cons]
    cases e with
    | minted at' h' m =>
      by_cases hkey : bypassKey m.terms.tenantId h' = key
      · have hok : okCount key log ≤ mintCount key log := by omega
        simpa [okCount, mintCount, Event.touches, Event.leaves, hkey] using hok
      · simpa [okCount, mintCount, Event.touches, hkey] using hrest
    | redeemed at' h' o result =>
      by_cases hkey : bypassKey o.tenantId h' = key
      · have hanswer : result = _ := h.1
        subst hkey
        cases hheld : heldBy H log (bypassKey o.tenantId h') with
        | none =>
          rw [hheld] at hanswer hrest
          rw [hanswer]
          simpa [okCount, mintCount, Event.touches, Event.leaves] using hrest
        | some v =>
          rw [hheld] at hrest
          cases result <;>
            simp [okCount, mintCount, Event.touches, Event.leaves] at hrest ⊢ <;>
            omega
      · have hother : okCount key (.redeemed at' h' o result :: log) = okCount key log := by
          cases result <;> simp [okCount, hkey]
        rw [hother]
        simpa [mintCount, Event.touches, hkey] using hrest

/-- However redemptions interleave, a token is good for one of them. -/
theorem ok_le_minted (now : Int) (l : List Op) (key : String) :
    okCount key (l.foldl (Store.step H) (Store.start now)).log ≤
      mintCount key (l.foldl (Store.step H) (Store.start now)).log := by
  have hle := ok_add_held_le_minted (@inv_run H now l).log key
  omega

end Redemption

end Bypass

end Dnc

end Vici2
