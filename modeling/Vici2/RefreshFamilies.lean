import Mathlib.Data.List.Nodup
import Vici2.RefreshTokens

/-! Which refresh tokens are accepted. A token is accepted once; in a family that
was replayed or revoked none is, as long as no refresh issues its new token too
late. -/

namespace Vici2

namespace Refresh

variable {tenantOf : Int → Int} {w : World} {v : Valkey}

/-- The tokens of a key that the revocation is still going to delete. -/
def Stage.WillDelete (k : TokenKey) : Stage → Prop
  | .readUser _ => True
  | .families rest => k.familyId ∈ rest
  | .tokens f hashes rest => (k.familyId = f ∧ k.tokenHash ∈ hashes) ∨ k.familyId ∈ rest

/-- The families that the revocation has read and not yet deleted. -/
def Stage.ahead : Stage → List String
  | .readUser _ => []
  | .families rest => rest
  | .tokens f _ rest => f :: rest

abbrev Created := List (FamilyKey × Int)

structure RevocationOk (v : Valkey) (created : Created) (r : Revocation) : Prop where
  covers : ∀ k rec, v.record k = some rec → r.About k.family rec.userId → r.stage.WillDelete k
  reader : ∀ u, r.stage = .readUser u → r.scope = .user u
  ahead_nodup : r.stage.ahead.Nodup
  ahead_about : ∀ f ∈ r.stage.ahead, ∀ u, (⟨r.tenantId, f⟩, u) ∈ created →
    r.About ⟨r.tenantId, f⟩ u
  ahead_known : ∀ f ∈ r.stage.ahead,
    r.scope.names f = true ∨ ∃ u, (⟨r.tenantId, f⟩, u) ∈ created

/-- Every token is found through its family and its user, and is the only one of
its family. -/
structure KeysOk (tenantOf : Int → Int) (v : Valkey) (created : Created) (drawn : List String) :
    Prop where
  backed : ∀ k rec, v.record k = some rec →
    k.tokenHash ∈ (v.families k.family).members ∧ rec.deadline ≤ (v.families k.family).deadline
  listed : ∀ k rec, v.record k = some rec → k.familyId ∈ v.users ⟨k.tenantId, rec.userId⟩
  users_created : ∀ t u, ∀ f ∈ v.users ⟨t, u⟩, (⟨t, f⟩, u) ∈ created
  users_nodup : ∀ x, (v.users x).Nodup
  created_once : ∀ f u u', (f, u) ∈ created → (f, u') ∈ created → u = u'
  owned : ∀ k rec, v.record k = some rec →
    (k.family, rec.userId) ∈ created ∧ tenantOf rec.userId = k.tenantId
  drawn : ∀ k rec, v.record k = some rec → k.tokenHash ∈ drawn
  one_per_family : ∀ k rec k' rec', v.record k = some rec → v.record k' = some rec' →
    k.family = k'.family → k = k'
  one_per_hash : ∀ k rec k' rec', v.record k = some rec → v.record k' = some rec' →
    k.tokenHash = k'.tokenHash → k = k'

structure PendingOk (tenantOf : Int → Int) (v : Valkey) (created : Created)
    (pending : List PendingRefresh) : Prop where
  owned : ∀ p ∈ pending, (p.family, p.userId) ∈ created ∧ tenantOf p.userId = p.family.tenantId
  alone : ∀ p ∈ pending, ∀ k rec, v.record k = some rec → k.family ≠ p.family
  once : (pending.map PendingRefresh.family).Nodup

structure AcceptedOk (v : Valkey) (created : Created) (drawn : List String)
    (accepted : List TokenKey) : Prop where
  created : ∀ a ∈ accepted, ∃ u, (a.family, u) ∈ created
  drawn : ∀ a ∈ accepted, a.tokenHash ∈ drawn
  gone : ∀ a ∈ accepted, ∀ k rec, v.record k = some rec → a.tokenHash ≠ k.tokenHash

structure CondemnedOk (v : Valkey) (created : Created) (condemned : List FamilyKey) : Prop where
  created : ∀ f ∈ condemned, ∃ u, (f, u) ∈ created
  gone : ∀ f ∈ condemned, ∀ k rec, v.record k = some rec → k.family ≠ f

structure Inv (tenantOf : Int → Int) (w : World) : Prop where
  keys : KeysOk tenantOf w.valkey w.created w.drawn
  pending : PendingOk tenantOf w.valkey w.created w.pending
  accepted : AcceptedOk w.valkey w.created w.drawn w.accepted
  condemned : CondemnedOk w.valkey w.created w.condemned
  revocations : ∀ r ∈ w.revocations, RevocationOk w.valkey w.created r

theorem record_eq_some {k : TokenKey} {rec : TokenRecord} :
    v.record k = some rec ↔ v.tokens k = some rec ∧ v.now < rec.deadline := by
  simp [Valkey.record, Option.filter_eq_some_iff]

theorem record_of_tokens {v' : Valkey} (hnow : v.now ≤ v'.now)
    (htokens : ∀ k rec, v'.tokens k = some rec → v.tokens k = some rec) {k : TokenKey}
    {rec : TokenRecord} (h : v'.record k = some rec) : v.record k = some rec := by
  rw [record_eq_some] at h ⊢
  exact ⟨htokens k rec h.1, Int.lt_of_le_of_lt hnow h.2⟩

theorem tokens_delToken {k k' : TokenKey} {rec : TokenRecord}
    (h : (v.delToken k).tokens k' = some rec) : k' ≠ k ∧ v.tokens k' = some rec := by
  unfold Valkey.delToken at h
  by_cases hk : k' = k
  · subst k'
    simp at h
  · simp only [Function.update_of_ne hk] at h
    exact ⟨hk, h⟩

theorem delTokens_other (f : FamilyKey) (hashes : List String) :
    (v.delTokens f hashes).families = v.families ∧ (v.delTokens f hashes).users = v.users ∧
      (v.delTokens f hashes).now = v.now := by
  induction hashes generalizing v with
  | nil => exact ⟨rfl, rfl, rfl⟩
  | cons h hashes ih => exact ih

theorem tokens_delTokens {f : FamilyKey} {hashes : List String} {k : TokenKey} {rec : TokenRecord}
    (h : (v.delTokens f hashes).tokens k = some rec) :
    v.tokens k = some rec ∧ (k.family = f → k.tokenHash ∉ hashes) := by
  induction hashes generalizing v with
  | nil => exact ⟨h, fun _ => List.not_mem_nil⟩
  | cons x hashes ih =>
    obtain ⟨hdel, hrest⟩ := ih h
    obtain ⟨hne, hk⟩ := tokens_delToken hdel
    refine ⟨hk, ?_⟩
    intro hf hmem
    rcases List.mem_cons.1 hmem with hx | hx
    · apply hne
      subst hf hx
      rfl
    · exact hrest hf hx

theorem mem_readOrder {order members : List String} {x : String} :
    x ∈ readOrder order members ↔ x ∈ members := by
  unfold readOrder
  split
  · next h => exact (List.isPerm_iff.1 h).mem_iff
  · exact Iff.rfl

theorem nodup_readOrder {order members : List String} (h : members.Nodup) :
    (readOrder order members).Nodup := by
  unfold readOrder
  split
  · next hp => exact (List.isPerm_iff.1 hp).nodup_iff.2 h
  · exact h

theorem Inv.mem_smembers (hw : Inv tenantOf w) {k : TokenKey} {rec : TokenRecord}
    (h : w.valkey.record k = some rec) : k.tokenHash ∈ w.valkey.smembers k.family := by
  obtain ⟨hmem, hdeadline⟩ := hw.keys.backed k rec h
  have hnow := (record_eq_some.1 h).2
  unfold Valkey.smembers
  rw [if_pos (Int.lt_of_lt_of_le hnow hdeadline)]
  exact hmem

/-- Keys may go, as long as the tokens that stay are still found by their family
and their user. -/
theorem Inv.shrink {v' : Valkey} (hw : Inv tenantOf w)
    (hlive : ∀ k rec, v'.record k = some rec → w.valkey.record k = some rec)
    (hfamilies : ∀ k rec, v'.record k = some rec →
      k.tokenHash ∈ (v'.families k.family).members ∧
        rec.deadline ≤ (v'.families k.family).deadline)
    (hlisted : ∀ k rec, v'.record k = some rec →
      k.familyId ∈ v'.users ⟨k.tenantId, rec.userId⟩)
    (husers : ∀ x, (v'.users x).Sublist (w.valkey.users x)) :
    Inv tenantOf { w with valkey := v' } where
  keys :=
    { backed := hfamilies
      listed := hlisted
      users_created := fun t u f hf => hw.keys.users_created t u f ((husers _).subset hf)
      users_nodup := fun x => (hw.keys.users_nodup x).sublist (husers x)
      created_once := hw.keys.created_once
      owned := fun k rec h => hw.keys.owned k rec (hlive k rec h)
      drawn := fun k rec h => hw.keys.drawn k rec (hlive k rec h)
      one_per_family := fun k rec k' rec' h h' =>
        hw.keys.one_per_family k rec k' rec' (hlive k rec h) (hlive k' rec' h')
      one_per_hash := fun k rec k' rec' h h' =>
        hw.keys.one_per_hash k rec k' rec' (hlive k rec h) (hlive k' rec' h') }
  pending :=
    { hw.pending with alone := fun p hp k rec h => hw.pending.alone p hp k rec (hlive k rec h) }
  accepted :=
    { hw.accepted with gone := fun a ha k rec h => hw.accepted.gone a ha k rec (hlive k rec h) }
  condemned :=
    { hw.condemned with gone := fun f hf k rec h => hw.condemned.gone f hf k rec (hlive k rec h) }
  revocations := fun r hr =>
    { hw.revocations r hr with
      covers := fun k rec h => (hw.revocations r hr).covers k rec (hlive k rec h) }

/-- Tokens go, the sets stay. -/
theorem Inv.shrinkTokens {v' : Valkey} (hw : Inv tenantOf w) (hnow : w.valkey.now ≤ v'.now)
    (htokens : ∀ k rec, v'.tokens k = some rec → w.valkey.tokens k = some rec)
    (hfamilies : v'.families = w.valkey.families) (husers : v'.users = w.valkey.users) :
    Inv tenantOf { w with valkey := v' } := by
  have hlive : ∀ k rec, v'.record k = some rec → w.valkey.record k = some rec :=
    fun k rec => record_of_tokens hnow htokens
  apply hw.shrink hlive
  · intro k rec h
    rw [hfamilies]
    exact hw.keys.backed k rec (hlive k rec h)
  · intro k rec h
    rw [husers]
    exact hw.keys.listed k rec (hlive k rec h)
  · intro x
    rw [husers]

theorem Inv.delToken (hw : Inv tenantOf w) (k : TokenKey) :
    Inv tenantOf { w with valkey := w.valkey.delToken k } :=
  hw.shrinkTokens Int.le_rfl (fun _ _ h => (tokens_delToken h).2) rfl rfl

theorem Inv.tick (hw : Inv tenantOf w) (seconds : Nat) :
    Inv tenantOf { w with valkey := { w.valkey with now := w.valkey.now + seconds } } :=
  hw.shrinkTokens (Int.le_add_of_nonneg_right (Int.natCast_nonneg seconds)) (fun _ _ h => h) rfl rfl

theorem Inv.delFamily (hw : Inv tenantOf w) {f : FamilyKey}
    (hgone : ∀ k rec, w.valkey.record k = some rec → k.family ≠ f) :
    Inv tenantOf { w with valkey := w.valkey.delFamily f } := by
  apply hw.shrink
  · exact fun _ _ h => h
  · intro k rec h
    have hk := hgone k rec h
    simp only [Valkey.delFamily, Function.update_of_ne hk]
    exact hw.keys.backed k rec h
  · exact hw.keys.listed
  · exact fun x => List.Sublist.refl _

theorem Inv.sremFamily (hw : Inv tenantOf w) {x : UserKey} {familyId : String}
    (hgone : ∀ k rec, w.valkey.record k = some rec → k.family ≠ ⟨x.tenantId, familyId⟩) :
    Inv tenantOf { w with valkey := w.valkey.sremFamily x familyId } := by
  apply hw.shrink
  · exact fun _ _ h => h
  · exact hw.keys.backed
  · intro k rec h
    have hmem := hw.keys.listed k rec h
    by_cases hx : (⟨k.tenantId, rec.userId⟩ : UserKey) = x
    · subst x
      simp only [Valkey.sremFamily, Function.update_self, List.mem_filter, decide_eq_true_eq]
      refine ⟨hmem, ?_⟩
      intro hf
      apply hgone k rec h
      subst hf
      rfl
    · simp only [Valkey.sremFamily, Function.update_of_ne hx]
      exact hmem
  · intro y
    by_cases hy : y = x
    · subst y
      simp only [Valkey.sremFamily, Function.update_self]
      exact List.filter_sublist
    · simp only [Valkey.sremFamily, Function.update_of_ne hy]
      exact List.Sublist.refl _

theorem Inv.delUser (hw : Inv tenantOf w) {x : UserKey}
    (hgone : ∀ k rec, w.valkey.record k = some rec → ⟨k.tenantId, rec.userId⟩ ≠ x) :
    Inv tenantOf { w with valkey := w.valkey.delUser x } := by
  apply hw.shrink
  · exact fun _ _ h => h
  · exact hw.keys.backed
  · intro k rec h
    have hx := hgone k rec h
    simp only [Valkey.delUser, Function.update_of_ne hx]
    exact hw.keys.listed k rec h
  · intro y
    by_cases hy : y = x
    · subst y
      simp [Valkey.delUser]
    · simp only [Valkey.delUser, Function.update_of_ne hy]
      exact List.Sublist.refl _

/-- The consume script on a token it accepts. -/
theorem Inv.consume (hw : Inv tenantOf w) {k : TokenKey} {rec : TokenRecord}
    (hk : w.valkey.record k = some rec) :
    Inv tenantOf { w with valkey := (w.valkey.delToken k).sremToken k } ∧
      ∀ k' rec', ((w.valkey.delToken k).sremToken k).record k' = some rec' →
        w.valkey.record k' = some rec' ∧ k' ≠ k := by
  have hlive : ∀ k' rec', ((w.valkey.delToken k).sremToken k).record k' = some rec' →
      w.valkey.record k' = some rec' ∧ k' ≠ k := by
    intro k' rec' h
    rw [record_eq_some] at h
    obtain ⟨hne, htokens⟩ := tokens_delToken (v := w.valkey) (k := k) h.1
    exact ⟨record_eq_some.2 ⟨htokens, h.2⟩, hne⟩
  refine ⟨?_, hlive⟩
  apply hw.shrink (fun k' rec' h => (hlive k' rec' h).1)
  · intro k' rec' h
    obtain ⟨hlive', hne⟩ := hlive k' rec' h
    have hf : k'.family ≠ k.family := fun hf =>
      hne (hw.keys.one_per_family k' rec' k rec hlive' hk hf)
    simp only [Valkey.sremToken, Valkey.delToken, Function.update_of_ne hf]
    exact hw.keys.backed k' rec' hlive'
  · intro k' rec' h
    exact hw.keys.listed k' rec' (hlive k' rec' h).1
  · exact fun x => List.Sublist.refl _

/-- The consume script on a token it takes for a replay. -/
theorem Inv.reuse (hw : Inv tenantOf w) (f : FamilyKey) :
    Inv tenantOf { w with valkey :=
      (w.valkey.delTokens f (w.valkey.smembers f)).delFamily f } ∧
      ∀ k rec, ((w.valkey.delTokens f (w.valkey.smembers f)).delFamily f).record k = some rec →
        k.family ≠ f := by
  have hother := delTokens_other (v := w.valkey) f (w.valkey.smembers f)
  have hdel : Inv tenantOf { w with valkey := w.valkey.delTokens f (w.valkey.smembers f) } :=
    hw.shrinkTokens (Int.le_of_eq hother.2.2.symm) (fun _ _ h => (tokens_delTokens h).1)
      hother.1 hother.2.1
  have hgone : ∀ k rec, (w.valkey.delTokens f (w.valkey.smembers f)).record k = some rec →
      k.family ≠ f := by
    intro k rec h hf
    rw [record_eq_some, hother.2.2] at h
    obtain ⟨htokens, hnot⟩ := tokens_delTokens h.1
    apply hnot hf
    rw [← hf]
    exact hw.mem_smembers (record_eq_some.2 ⟨htokens, h.2⟩)
  exact ⟨hdel.delFamily hgone, hgone⟩

theorem record_issue {k k' : TokenKey} {u : Int} {role : String} {ttlSec : Int}
    {rec : TokenRecord} (h : (issueRefreshToken v k u role ttlSec).record k' = some rec) :
    (k' = k ∧ rec = ⟨u, role, v.now + ttlSec⟩) ∨ (k' ≠ k ∧ v.record k' = some rec) := by
  rw [record_eq_some] at h
  unfold issueRefreshToken at h
  by_cases hk : k' = k
  · subst k'
    simp only [Function.update_self, Option.some.injEq] at h
    exact Or.inl ⟨rfl, h.1.symm⟩
  · simp only [Function.update_of_ne hk] at h
    exact Or.inr ⟨hk, record_eq_some.2 h⟩

theorem Stage.WillRead.willDelete {st : Stage} {k : TokenKey} (h : st.WillRead k.familyId) :
    st.WillDelete k := by
  cases st with
  | readUser u => trivial
  | families rest => exact h
  | tokens f hashes rest => exact Or.inr h

/-- What tells the live tokens apart tells them apart after a token is issued for which
it is new. -/
theorem record_issue_inj {β : Type} {g : TokenKey → β} {k : TokenKey} {u : Int} {role : String}
    {ttlSec : Int} (hinj : ∀ a ra b rb, v.record a = some ra → v.record b = some rb → g a = g b → a = b)
    (hnew : ∀ k' rec, v.record k' = some rec → g k' ≠ g k) (a : TokenKey) (ra : TokenRecord)
    (b : TokenKey) (rb : TokenRecord) (ha : (issueRefreshToken v k u role ttlSec).record a = some ra)
    (hb : (issueRefreshToken v k u role ttlSec).record b = some rb) (he : g a = g b) : a = b := by
  rcases record_issue ha with ⟨rfl, -⟩ | ⟨-, ha'⟩ <;>
    rcases record_issue hb with ⟨rfl, -⟩ | ⟨-, hb'⟩
  · rfl
  · exact absurd he.symm (hnew b rb hb')
  · exact absurd he (hnew a ra ha')
  · exact hinj a ra b rb ha' hb' he

/-- A token is issued into a family that has none. -/
theorem KeysOk.issue {created : Created} {drawn : List String} (hv : KeysOk tenantOf v created drawn)
    {k : TokenKey} {u : Int} (role : String) (ttlSec : Int) (howned : (k.family, u) ∈ created)
    (htenant : tenantOf u = k.tenantId) (hfresh : k.tokenHash ∉ drawn)
    (hnone : ∀ k' rec, v.record k' = some rec → k'.family ≠ k.family) :
    KeysOk tenantOf (issueRefreshToken v k u role ttlSec) created (k.tokenHash :: drawn) where
  backed := by
    intro k' rec h
    rcases record_issue h with ⟨rfl, rfl⟩ | ⟨-, hlive⟩
    · simp [issueRefreshToken]
    · simp only [issueRefreshToken, Function.update_of_ne (hnone k' rec hlive)]
      exact hv.backed k' rec hlive
  listed := by
    intro k' rec h
    rcases record_issue h with ⟨rfl, rfl⟩ | ⟨-, hlive⟩
    · simp [issueRefreshToken]
    · have hmem := hv.listed k' rec hlive
      by_cases hx : (⟨k'.tenantId, rec.userId⟩ : UserKey) = ⟨k.tenantId, u⟩
      · simp only [issueRefreshToken, hx, Function.update_self]
        rw [hx] at hmem
        exact List.mem_insert_of_mem hmem
      · simp only [issueRefreshToken, Function.update_of_ne hx]
        exact hmem
  users_created := by
    intro t u' f hf
    by_cases hx : (⟨t, u'⟩ : UserKey) = ⟨k.tenantId, u⟩
    · simp only [issueRefreshToken, hx, Function.update_self, List.mem_insert_iff] at hf
      rw [UserKey.mk.injEq] at hx
      obtain ⟨rfl, rfl⟩ := hx
      rcases hf with rfl | hf
      · exact howned
      · exact hv.users_created _ _ f hf
    · simp only [issueRefreshToken, Function.update_of_ne hx] at hf
      exact hv.users_created t u' f hf
  users_nodup := by
    intro x
    by_cases hx : x = ⟨k.tenantId, u⟩
    · subst x
      simp only [issueRefreshToken, Function.update_self]
      exact List.Nodup.insert (hv.users_nodup _)
    · simp only [issueRefreshToken, Function.update_of_ne hx]
      exact hv.users_nodup x
  created_once := hv.created_once
  owned := by
    intro k' rec h
    rcases record_issue h with ⟨rfl, rfl⟩ | ⟨-, hlive⟩
    · exact ⟨howned, htenant⟩
    · exact hv.owned k' rec hlive
  drawn := by
    intro k' rec h
    rcases record_issue h with ⟨rfl, -⟩ | ⟨-, hlive⟩
    · exact List.mem_cons_self
    · exact List.mem_cons_of_mem _ (hv.drawn k' rec hlive)
  one_per_family := record_issue_inj hv.one_per_family hnone
  one_per_hash := record_issue_inj hv.one_per_hash
    fun k' rec hlive he => hfresh (he ▸ hv.drawn k' rec hlive)

/-- A token is issued into a family that has none, is not condemned, and is still
to be read by every revocation that is about it. -/
theorem Inv.issue (hw : Inv tenantOf w) {k : TokenKey} {u : Int} (role : String) (ttlSec : Int)
    (howned : (k.family, u) ∈ w.created) (htenant : tenantOf u = k.tenantId)
    (hfresh : k.tokenHash ∉ w.drawn)
    (hnone : ∀ k' rec, w.valkey.record k' = some rec → k'.family ≠ k.family)
    (hpending : ∀ p ∈ w.pending, p.family ≠ k.family) (hcondemned : k.family ∉ w.condemned)
    (hread : ∀ r ∈ w.revocations, r.About k.family u → r.stage.WillRead k.familyId) :
    Inv tenantOf { w with
      valkey := issueRefreshToken w.valkey k u role ttlSec
      drawn := k.tokenHash :: w.drawn } where
  keys := hw.keys.issue role ttlSec howned htenant hfresh hnone
  pending :=
    { owned := hw.pending.owned
      once := hw.pending.once
      alone := by
        intro p hp k' rec h
        rcases record_issue h with ⟨rfl, -⟩ | ⟨-, hlive⟩
        · exact (hpending p hp).symm
        · exact hw.pending.alone p hp k' rec hlive }
  accepted :=
    { created := hw.accepted.created
      drawn := fun a ha => List.mem_cons_of_mem _ (hw.accepted.drawn a ha)
      gone := by
        intro a ha k' rec h
        rcases record_issue h with ⟨rfl, -⟩ | ⟨-, hlive⟩
        · intro he
          exact hfresh (he ▸ hw.accepted.drawn a ha)
        · exact hw.accepted.gone a ha k' rec hlive }
  condemned :=
    { created := hw.condemned.created
      gone := by
        intro f hf k' rec h
        rcases record_issue h with ⟨rfl, -⟩ | ⟨-, hlive⟩
        · intro he
          exact hcondemned (he ▸ hf)
        · exact hw.condemned.gone f hf k' rec hlive }
  revocations := by
    intro r hr
    have hok := hw.revocations r hr
    refine { hok with covers := ?_ }
    intro k' rec h habout
    rcases record_issue h with ⟨rfl, rfl⟩ | ⟨-, hlive⟩
    · exact (hread r hr habout).willDelete
    · exact hok.covers k' rec hlive habout

/-- A family is created under a new id. -/
theorem Inv.create (hw : Inv tenantOf w) {f : FamilyKey} {u : Int}
    (hnew : ∀ c ∈ w.created, c.1.familyId ≠ f.familyId)
    (hnames : ∀ r ∈ w.revocations, r.scope.names f.familyId = false) :
    Inv tenantOf { w with created := (f, u) :: w.created } where
  keys :=
    { hw.keys with
      users_created := fun t u f hf => List.mem_cons_of_mem _ (hw.keys.users_created t u f hf)
      owned := fun k rec h => (hw.keys.owned k rec h).imp_left (List.mem_cons_of_mem _)
      created_once := by
        intro g a b ha hb
        rcases List.mem_cons.1 ha with ha | ha <;> rcases List.mem_cons.1 hb with hb | hb
        · rw [Prod.mk.injEq] at ha hb
          rw [ha.2, hb.2]
        · rw [Prod.mk.injEq] at ha
          exact absurd (congrArg FamilyKey.familyId ha.1) (hnew _ hb)
        · rw [Prod.mk.injEq] at hb
          exact absurd (congrArg FamilyKey.familyId hb.1) (hnew _ ha)
        · exact hw.keys.created_once g a b ha hb }
  pending :=
    { hw.pending with
      owned := fun p hp => (hw.pending.owned p hp).imp_left (List.mem_cons_of_mem _) }
  accepted :=
    { hw.accepted with
      created := fun a ha => (hw.accepted.created a ha).imp fun _ h => List.mem_cons_of_mem _ h }
  condemned :=
    { hw.condemned with
      created := fun g hg => (hw.condemned.created g hg).imp fun _ h => List.mem_cons_of_mem _ h }
  revocations := by
    intro r hr
    have hok := hw.revocations r hr
    refine { hok with ahead_about := ?_, ahead_known := ?_ }
    · intro g hg u' hmem
      rcases List.mem_cons.1 hmem with he | hmem
      · rw [Prod.mk.injEq] at he
        have hgf : g = f.familyId := congrArg FamilyKey.familyId he.1
        rcases hok.ahead_known g hg with hnamed | ⟨u'', hu''⟩
        · rw [hgf, hnames r hr] at hnamed
          cases hnamed
        · exact absurd hgf (hnew _ hu'')
      · exact hok.ahead_about g hg u' hmem
    · intro g hg
      exact (hok.ahead_known g hg).imp_right fun ⟨u', h⟩ => ⟨u', List.mem_cons_of_mem _ h⟩

theorem Inv.erasePending (hw : Inv tenantOf w) (i : Nat) :
    Inv tenantOf { w with pending := w.pending.eraseIdx i } :=
  { hw with
    pending :=
      { owned := fun p hp => hw.pending.owned p (List.mem_of_mem_eraseIdx hp)
        alone := fun p hp => hw.pending.alone p (List.mem_of_mem_eraseIdx hp)
        once := hw.pending.once.sublist ((List.eraseIdx_sublist _ i).map _) } }

theorem Inv.setRevocations (hw : Inv tenantOf w) {rs : List Revocation}
    (hrs : ∀ r ∈ rs, RevocationOk w.valkey w.created r) :
    Inv tenantOf { w with revocations := rs } :=
  { hw with revocations := hrs }

theorem Inv.condemn (hw : Inv tenantOf w) {fs : List FamilyKey}
    (hcreated : ∀ f ∈ fs, ∃ u, (f, u) ∈ w.created)
    (hgone : ∀ f ∈ fs, ∀ k rec, w.valkey.record k = some rec → k.family ≠ f) :
    Inv tenantOf { w with condemned := fs ++ w.condemned } :=
  { hw with
    condemned :=
      { created := fun f hf =>
          (List.mem_append.1 hf).elim (hcreated f) (hw.condemned.created f)
        gone := fun f hf => (List.mem_append.1 hf).elim (hgone f) (hw.condemned.gone f) } }

theorem PendingOk.append {created : Created} {pending : List PendingRefresh}
    (hp : PendingOk tenantOf v created pending) {p : PendingRefresh}
    (howned : (p.family, p.userId) ∈ created ∧ tenantOf p.userId = p.family.tenantId)
    (halone : ∀ k rec, v.record k = some rec → k.family ≠ p.family)
    (honce : ∀ q ∈ pending, q.family ≠ p.family) :
    PendingOk tenantOf v created (pending ++ [p]) where
  owned := by
    intro q hq
    rcases List.mem_append.1 hq with hq | hq
    · exact hp.owned q hq
    · obtain rfl := List.mem_singleton.1 hq
      exact howned
  alone := by
    intro q hq
    rcases List.mem_append.1 hq with hq | hq
    · exact hp.alone q hq
    · obtain rfl := List.mem_singleton.1 hq
      exact halone
  once := by
    rw [List.map_append, List.nodup_append]
    refine ⟨hp.once, by simp, ?_⟩
    intro f hf g hg
    obtain ⟨q, hq, rfl⟩ := List.mem_map.1 hf
    obtain rfl := List.mem_singleton.1 hg
    exact honce q hq

theorem AcceptedOk.cons {created : Created} {drawn : List String} {accepted : List TokenKey}
    (ha : AcceptedOk v created drawn accepted) {k : TokenKey} {u : Int}
    (hcreated : (k.family, u) ∈ created) (hdrawn : k.tokenHash ∈ drawn)
    (hgone : ∀ k' rec, v.record k' = some rec → k.tokenHash ≠ k'.tokenHash) :
    AcceptedOk v created drawn (k :: accepted) where
  created := by
    intro a h
    rcases List.mem_cons.1 h with rfl | h
    · exact ⟨u, hcreated⟩
    · exact ha.created a h
  drawn := by
    intro a h
    rcases List.mem_cons.1 h with rfl | h
    · exact hdrawn
    · exact ha.drawn a h
  gone := by
    intro a h
    rcases List.mem_cons.1 h with rfl | h
    · exact hgone
    · exact ha.gone a h

/-- A presented token that Valkey has: it goes, the request waits for its issue. -/
theorem Inv.request_found (hw : Inv tenantOf w) {k : TokenKey} {rec : TokenRecord}
    (hk : w.valkey.record k = some rec) : Inv tenantOf (step tenantOf w (.request k)) := by
  obtain ⟨hconsume, hlive⟩ := hw.consume hk
  have hnew : k ∉ w.accepted := fun ha => hw.accepted.gone k ha k rec hk rfl
  have haccepts : accepts w k := by
    unfold accepts
    rw [hk]
    rfl
  have howned := hw.keys.owned k rec hk
  have hhash : ∀ k' rec', ((w.valkey.delToken k).sremToken k).record k' = some rec' →
      k.tokenHash ≠ k'.tokenHash := by
    intro k' rec' h he
    obtain ⟨hlive', hne⟩ := hlive k' rec' h
    exact hne (hw.keys.one_per_hash k' rec' k rec hlive' hk he.symm)
  have hfamily : ∀ k' rec', ((w.valkey.delToken k).sremToken k).record k' = some rec' →
      k'.family ≠ k.family := by
    intro k' rec' h he
    obtain ⟨hlive', hne⟩ := hlive k' rec' h
    exact hne (hw.keys.one_per_family k' rec' k rec hlive' hk he)
  have haccepted := hconsume.accepted.cons howned.1 (hw.keys.drawn k rec hk) hhash
  simp only [step, consumeRefreshToken, hk, if_pos haccepts, if_neg hnew, consumed]
  split_ifs
  · rw [Option.toList_none, List.append_nil]
    exact { hconsume with accepted := haccepted }
  · have hpending := hconsume.pending.append (p := ⟨k.family, rec.userId⟩) howned hfamily
      (fun q hq he => hw.pending.alone q hq k rec hk he.symm)
    exact { hconsume with accepted := haccepted, pending := hpending }

/-- A presented token that Valkey does not have: afterwards its family has none. -/
theorem Inv.request_missing (hw : Inv tenantOf w) {k : TokenKey} (hk : w.valkey.record k = none) :
    Inv tenantOf (step tenantOf w (.request k)) := by
  have hrefused : ¬ accepts w k := by
    unfold accepts
    rw [hk]
    simp
  have hcondemn : ∀ v', Inv tenantOf { w with valkey := v' } →
      (∀ k' rec, v'.record k' = some rec → k'.family ≠ k.family) →
      Inv tenantOf { w with
        valkey := v'
        condemned := if k ∈ w.accepted then k.family :: w.condemned else w.condemned } := by
    intro v' hv' hgone
    split_ifs with ha
    · show Inv tenantOf { w with valkey := v', condemned := [k.family] ++ w.condemned }
      apply hv'.condemn
      · intro f hf
        obtain rfl := List.mem_singleton.1 hf
        exact hw.accepted.created k ha
      · intro f hf
        obtain rfl := List.mem_singleton.1 hf
        exact hgone
    · exact hv'
  by_cases hmembers : w.valkey.smembers k.family = []
  · simp only [step, consumeRefreshToken, hk, if_neg hrefused, hmembers, ne_eq, not_true_eq_false,
      if_false, consumed, Option.toList_none, List.append_nil]
    apply hcondemn w.valkey hw
    intro k' rec h he
    have hmem := hw.mem_smembers h
    rw [he, hmembers] at hmem
    cases hmem
  · simp only [step, consumeRefreshToken, hk, if_neg hrefused, ne_eq, hmembers, not_false_eq_true,
      if_true, consumed, Option.toList_none, List.append_nil]
    obtain ⟨hreuse, hgone⟩ := hw.reuse k.family
    exact hcondemn _ hreuse hgone

theorem RevocationOk.revokeFamily (v : Valkey) (created : Created) (tenantId : Int)
    (familyId : String) (userId : Option Int) :
    RevocationOk v created (revokeFamily tenantId familyId userId) where
  covers := fun k rec _ habout => List.mem_singleton.2 habout.2.symm
  reader := fun u h => by cases h
  ahead_nodup := List.nodup_singleton _
  ahead_about := fun f hf u _ => ⟨rfl, (List.mem_singleton.1 hf).symm⟩
  ahead_known := fun f hf => Or.inl (decide_eq_true (List.mem_singleton.1 hf).symm)

theorem RevocationOk.revokeAllForUser (v : Valkey) (created : Created) (tenantId userId : Int) :
    RevocationOk v created (revokeAllForUser tenantId userId) where
  covers := fun _ _ _ _ => trivial
  reader := fun u h => by
    cases h
    rfl
  ahead_nodup := List.nodup_nil
  ahead_about := fun f hf => by cases hf
  ahead_known := fun f hf => by cases hf

section Advance

variable {r : Revocation}

theorem Inv.readUser (hw : Inv tenantOf w) (hr : RevocationOk w.valkey w.created r) {u : Int}
    (hstage : r.stage = .readUser u) (order : List String) :
    RevocationOk w.valkey w.created
      { r with stage := .families (readOrder order (w.valkey.users ⟨r.tenantId, u⟩)) } := by
  have hscope := hr.reader u hstage
  refine ⟨?_, (fun u' h => by cases h), nodup_readOrder (hw.keys.users_nodup _), ?_, ?_⟩
  · intro k rec h habout
    obtain ⟨htenant, hincludes⟩ := habout
    simp only [hscope, Scope.Includes] at hincludes
    have hmem := hw.keys.listed k rec h
    apply mem_readOrder.2
    rw [hincludes]
    exact htenant ▸ hmem
  · intro f hf u' hcreated
    have hmem := hw.keys.users_created _ _ f (mem_readOrder.1 hf)
    refine ⟨rfl, ?_⟩
    simp only [hscope, Scope.Includes]
    exact hw.keys.created_once _ _ _ hmem hcreated
  · intro f hf
    exact Or.inr ⟨u, hw.keys.users_created _ _ f (mem_readOrder.1 hf)⟩

theorem Inv.readFamily (hw : Inv tenantOf w) (hr : RevocationOk w.valkey w.created r) {f : String}
    {rest : List String} (hstage : r.stage = .families (f :: rest)) (order : List String) :
    RevocationOk w.valkey w.created
      { r with stage := .tokens f (readOrder order (w.valkey.smembers ⟨r.tenantId, f⟩)) rest } := by
  have hnodup := hr.ahead_nodup
  have habouts := hr.ahead_about
  have hknown := hr.ahead_known
  rw [hstage] at hnodup habouts hknown
  refine ⟨?_, (fun u' h => by cases h), hnodup, habouts, hknown⟩
  intro k rec h habout
  have hcovers := hr.covers k rec h habout
  rw [hstage] at hcovers
  rcases List.mem_cons.1 hcovers with hf | hrest
  · left
    refine ⟨hf, mem_readOrder.2 ?_⟩
    have hfamily : k.family = ⟨r.tenantId, f⟩ := by
      rw [← hf, habout.1]
      rfl
    rw [← hfamily]
    exact hw.mem_smembers h
  · exact Or.inr hrest

theorem RevocationOk.deleteToken {created : Created} (hr : RevocationOk v created r)
    {f h : String} {hashes rest : List String} (hstage : r.stage = .tokens f (h :: hashes) rest) :
    RevocationOk (v.delToken ⟨r.tenantId, f, h⟩) created
      { r with stage := .tokens f hashes rest } := by
  have hnodup := hr.ahead_nodup
  have habouts := hr.ahead_about
  have hknown := hr.ahead_known
  rw [hstage] at hnodup habouts hknown
  refine ⟨?_, (fun u' h => by cases h), hnodup, habouts, hknown⟩
  intro k rec hk habout
  rw [record_eq_some] at hk
  obtain ⟨hne, htokens⟩ := tokens_delToken hk.1
  have hcovers := hr.covers k rec (record_eq_some.2 ⟨htokens, hk.2⟩) habout
  rw [hstage] at hcovers
  rcases hcovers with ⟨hf, hmem⟩ | hrest
  · rcases List.mem_cons.1 hmem with hh | hmem
    · exfalso
      apply hne
      subst hf hh
      rw [habout.1]
      rfl
    · exact Or.inl ⟨hf, hmem⟩
  · exact Or.inr hrest

/-- When the tokens it has read are deleted, the family has none. -/
theorem Inv.family_gone (hw : Inv tenantOf w) (hr : RevocationOk w.valkey w.created r) {f : String}
    {rest : List String} (hstage : r.stage = .tokens f [] rest) :
    ∀ k rec, w.valkey.record k = some rec → k.family ≠ ⟨r.tenantId, f⟩ := by
  intro k rec h hf
  have howned := (hw.keys.owned k rec h).1
  rw [hf] at howned
  have hahead : f ∈ r.stage.ahead := by
    rw [hstage]
    exact List.mem_cons_self
  have habout := hr.ahead_about f hahead rec.userId howned
  rw [← hf] at habout
  have hcovers := hr.covers k rec h habout
  have hnodup := hr.ahead_nodup
  rw [hstage] at hcovers hnodup
  rcases hcovers with ⟨-, hmem⟩ | hrest
  · cases hmem
  · have hid : k.familyId = f := congrArg FamilyKey.familyId hf
    rw [hid] at hrest
    exact (List.nodup_cons.1 hnodup).1 hrest

theorem RevocationOk.dropFamily {created : Created} (hr : RevocationOk v created r) {f : String}
    {rest : List String} (hstage : r.stage = .tokens f [] rest) :
    RevocationOk v created { r with stage := .families rest } := by
  have hnodup := hr.ahead_nodup
  have habouts := hr.ahead_about
  have hknown := hr.ahead_known
  rw [hstage] at hnodup habouts hknown
  refine ⟨?_, (fun u' h => by cases h), (List.nodup_cons.1 hnodup).2,
    fun g hg => habouts g (List.mem_cons_of_mem _ hg),
    fun g hg => hknown g (List.mem_cons_of_mem _ hg)⟩
  intro k rec h habout
  have hcovers := hr.covers k rec h habout
  rw [hstage] at hcovers
  rcases hcovers with ⟨-, hmem⟩ | hrest
  · cases hmem
  · exact hrest

/-- One command of a revocation. When it was the last, no token is left that the
revocation is about. -/
theorem Inv.advance (hw : Inv tenantOf w) (hr : r ∈ w.revocations) (order : List String) :
    Inv tenantOf { w with valkey := (r.advance w.valkey order).1 } ∧
      match (r.advance w.valkey order).2 with
      | some stage =>
        RevocationOk (r.advance w.valkey order).1 w.created { r with stage := stage }
      | none => ∀ k rec, (r.advance w.valkey order).1.record k = some rec →
          ¬ r.About k.family rec.userId := by
  have hok := hw.revocations r hr
  unfold Revocation.advance
  split
  · next u hstage => exact ⟨hw, hw.readUser hok hstage order⟩
  · next f rest hstage => exact ⟨hw, hw.readFamily hok hstage order⟩
  · next f h hashes rest hstage => exact ⟨hw.delToken _, hok.deleteToken hstage⟩
  · next f rest hstage =>
    have hfamily := hw.delFamily (hw.family_gone hok hstage)
    refine ⟨hfamily, ?_⟩
    split
    · next stage hnext =>
      have hstage' : stage = .families rest := by
        split_ifs at hnext
        exact (Option.some.inj hnext).symm
      rw [hstage']
      exact (hfamily.revocations r hr).dropFamily hstage
    · next hnext =>
      have hrest : rest = [] := by
        split_ifs at hnext with hend
        exact hend.1
      intro k rec h habout
      have hcovers := hok.covers k rec h habout
      rw [hstage, hrest] at hcovers
      rcases hcovers with ⟨-, hmem⟩ | hmem <;> cases hmem
  · next hstage =>
    have hdone : ∀ k rec, w.valkey.record k = some rec → ¬ r.About k.family rec.userId := by
      intro k rec h habout
      have hcovers := hok.covers k rec h habout
      rw [hstage] at hcovers
      cases hcovers
    split
    · next u hscope =>
      refine ⟨hw.delUser ?_, hdone⟩
      intro k rec h hx
      rw [UserKey.mk.injEq] at hx
      apply hdone k rec h
      refine ⟨hx.1.symm, ?_⟩
      rw [hscope]
      exact hx.2.symm
    · next f u hscope =>
      refine ⟨hw.sremFamily ?_, hdone⟩
      intro k rec h hf
      apply hdone k rec h
      rw [hf]
      refine ⟨rfl, ?_⟩
      rw [hscope]
      rfl
    · exact ⟨hw, hdone⟩

end Advance

theorem KeysOk.condemns {created : Created} {drawn : List String}
    (hv : KeysOk tenantOf v created drawn) {r : Revocation} {f : FamilyKey}
    (hf : f ∈ r.condemns created) :
    (∃ u, (f, u) ∈ created) ∧
      ∀ k rec, v.record k = some rec → k.family = f → r.About k.family rec.userId := by
  unfold Revocation.condemns at hf
  split at hf
  · next familyId userId hscope =>
    rw [List.mem_filter] at hf
    obtain ⟨⟨g, u⟩, hmem, rfl⟩ := List.mem_map.1 hf.1
    have hg := of_decide_eq_true hf.2
    refine ⟨⟨u, hmem⟩, ?_⟩
    intro k rec _ hk
    rw [hk, hg]
    refine ⟨rfl, ?_⟩
    rw [hscope]
    rfl
  · next userId hscope =>
    obtain ⟨⟨g, u⟩, hmem, rfl⟩ := List.mem_map.1 hf
    obtain ⟨hmem, hg⟩ := List.mem_filter.1 hmem
    have hu := of_decide_eq_true hg
    refine ⟨⟨u, hmem⟩, ?_⟩
    intro k rec h hk
    have howned := (hv.owned k rec h).1
    rw [hk] at howned ⊢
    refine ⟨hu.1.symm, ?_⟩
    rw [hscope]
    exact (hv.created_once _ _ _ howned hmem).trans hu.2 |>.symm

theorem Inv.advance_step (hw : Inv tenantOf w) (i : Nat) (order : List String) :
    Inv tenantOf (step tenantOf w (.advance i order)) := by
  simp only [step]
  split
  · exact hw
  · next r hi =>
    have hr : r ∈ w.revocations := List.mem_of_getElem? hi
    obtain ⟨hvalkey, hstage⟩ := hw.advance hr order
    split
    · next v' stage hadvance =>
      rw [hadvance] at hvalkey hstage
      apply hvalkey.setRevocations
      intro q hq
      rcases List.mem_or_eq_of_mem_set hq with hq | rfl
      · exact hvalkey.revocations q hq
      · exact hstage
    · next v' hadvance =>
      rw [hadvance] at hvalkey hstage
      have herase : Inv tenantOf
          { w with valkey := v', revocations := w.revocations.eraseIdx i } :=
        hvalkey.setRevocations fun q hq => hvalkey.revocations q (List.mem_of_mem_eraseIdx hq)
      apply herase.condemn
      · exact fun f hf => (hvalkey.keys.condemns hf).1
      · intro f hf k rec h hk
        exact hstage k rec h ((hvalkey.keys.condemns hf).2 k rec h hk)

theorem Inv.login (hw : Inv tenantOf w) {userId : Int} {role : String} {ttlSec : Int}
    {familyId tokenHash : String} (hfresh : Fresh w (.login userId role ttlSec familyId tokenHash))
    (htime : InTime tenantOf w (.login userId role ttlSec familyId tokenHash)) :
    Inv tenantOf (step tenantOf w (.login userId role ttlSec familyId tokenHash)) := by
  obtain ⟨hhash, hfamily, hnames⟩ := hfresh
  have hcreated := hw.create (f := ⟨tenantOf userId, familyId⟩) (u := userId) hfamily hnames
  have hnew : ∀ f u, (f, u) ∈ w.created → f ≠ ⟨tenantOf userId, familyId⟩ := fun f u hf he =>
    hfamily _ hf (congrArg FamilyKey.familyId he)
  apply hcreated.issue (k := ⟨tenantOf userId, familyId, tokenHash⟩) role ttlSec
    List.mem_cons_self rfl hhash
  · exact fun k rec h => hnew _ _ (hw.keys.owned k rec h).1
  · exact fun p hp => hnew _ _ (hw.pending.owned p hp).1
  · intro hcondemned
    obtain ⟨u, hu⟩ := hw.condemned.created _ hcondemned
    exact hnew _ _ hu rfl
  · intro r hr habout
    rw [htime r hr habout]
    trivial

theorem Inv.reissue (hw : Inv tenantOf w) {i : Nat} {role : String} {ttlSec : Int}
    {tokenHash : String} (hfresh : Fresh w (.reissue i role ttlSec tokenHash))
    (htime : InTime tenantOf w (.reissue i role ttlSec tokenHash)) :
    Inv tenantOf (step tenantOf w (.reissue i role ttlSec tokenHash)) := by
  simp only [step]
  split
  · exact hw
  · next p hi =>
    have hp : p ∈ w.pending := List.mem_of_getElem? hi
    obtain ⟨hcreated, htenant⟩ := hw.pending.owned p hp
    obtain ⟨hcondemned, hread⟩ := htime p hi
    have hfamily : TokenKey.family ⟨tenantOf p.userId, p.family.familyId, tokenHash⟩ = p.family := by
      rw [htenant]
      rfl
    have hothers : ∀ q ∈ w.pending.eraseIdx i, q.family ≠ p.family := by
      intro q hq he
      obtain ⟨j, hne, hj⟩ := List.mem_eraseIdx_iff_getElem?.1 hq
      have hlt : i < (w.pending.map PendingRefresh.family).length := by
        rw [List.length_map]
        exact (List.getElem?_eq_some_iff.1 hi).1
      have hsame : (w.pending.map PendingRefresh.family)[i]? =
          (w.pending.map PendingRefresh.family)[j]? := by
        rw [List.getElem?_map, List.getElem?_map, hi, hj, Option.map_some, Option.map_some, he]
      exact hne ((List.getElem?_inj hlt hw.pending.once).1 hsame).symm
    apply (hw.erasePending i).issue
      (k := ⟨tenantOf p.userId, p.family.familyId, tokenHash⟩) role ttlSec _ rfl hfresh
    · intro k rec h
      rw [hfamily]
      exact hw.pending.alone p hp k rec h
    · intro q hq
      rw [hfamily]
      exact hothers q hq
    · rw [hfamily]
      exact hcondemned
    · intro r hr habout
      rw [hfamily] at habout
      exact hread r hr habout
    · rw [hfamily]
      exact hcreated

theorem Inv.step (hw : Inv tenantOf w) {a : Action} (hfresh : Fresh w a)
    (htime : InTime tenantOf w a) : Inv tenantOf (step tenantOf w a) := by
  cases a with
  | login userId role ttlSec familyId tokenHash => exact hw.login hfresh htime
  | request k =>
    cases hk : w.valkey.record k with
    | some rec => exact hw.request_found hk
    | none => exact hw.request_missing hk
  | reissue i role ttlSec tokenHash => exact hw.reissue hfresh htime
  | giveUp i => exact hw.erasePending i
  | revokeFamily tenantId familyId userId =>
    apply hw.setRevocations
    intro r hr
    rcases List.mem_append.1 hr with hr | hr
    · exact hw.revocations r hr
    · obtain rfl := List.mem_singleton.1 hr
      exact RevocationOk.revokeFamily _ _ tenantId familyId userId
  | revokeAllForUser tenantId userId =>
    apply hw.setRevocations
    intro r hr
    rcases List.mem_append.1 hr with hr | hr
    · exact hw.revocations r hr
    · obtain rfl := List.mem_singleton.1 hr
      exact RevocationOk.revokeAllForUser _ _ tenantId userId
  | advance i order => exact hw.advance_step i order
  | abandon i =>
    exact hw.setRevocations fun r hr => hw.revocations r (List.mem_of_mem_eraseIdx hr)
  | tick seconds => exact hw.tick seconds

theorem Inv.sound (hw : Inv tenantOf w) (a : Action) : Sound w a := by
  cases a with
  | request k =>
    intro haccepts
    obtain ⟨rec, hk⟩ := Option.isSome_iff_exists.1 haccepts
    exact ⟨fun a ha => hw.accepted.gone a ha k rec hk,
      fun hf => hw.condemned.gone _ hf k rec hk rfl⟩
  | login => trivial
  | reissue => trivial
  | giveUp => trivial
  | revokeFamily => trivial
  | revokeAllForUser => trivial
  | advance => trivial
  | abandon => trivial
  | tick => trivial

theorem Inv.empty (tenantOf : Int → Int) : Inv tenantOf World.empty := by
  have hnone : ∀ k, Valkey.empty.record k = none := fun _ => rfl
  constructor
  · constructor <;> intros <;> simp_all [World.empty, Valkey.empty, Valkey.record]
  · exact ⟨fun p hp => (by cases hp), fun p hp => (by cases hp), List.nodup_nil⟩
  · exact ⟨fun a ha => (by cases ha), fun a ha => (by cases ha), fun a ha => (by cases ha)⟩
  · exact ⟨fun f hf => (by cases hf), fun f hf => (by cases hf)⟩
  · exact fun r hr => (by cases hr)

theorem tokens_accepted_once_while_family_stands (tenantOf : Int → Int) (l : List Action)
    (hfresh : EachStep (step tenantOf) Fresh World.empty l)
    (htime : EachStep (step tenantOf) (InTime tenantOf) World.empty l) :
    EachStep (step tenantOf) Sound World.empty l :=
  eachStep_of_invariant (fun _ _ hw ha => hw.step ha.1 ha.2) (fun _ a hw _ => hw.sound a)
    (Inv.empty tenantOf) (hfresh.and htime)

/-- User 7 logs in twice and refreshes the first family; its first token is
replayed, and both families are presented again after the user is revoked. -/
def replayAndLogout : List Action :=
  [.login 7 "agent" 3600 "f1" "t1", .request ⟨1, "f1", "t1"⟩, .reissue 0 "agent" 3600 "t2",
    .login 7 "agent" 3600 "f2" "t3", .request ⟨1, "f1", "t1"⟩, .request ⟨1, "f1", "t2"⟩,
    .revokeAllForUser 1 7, .advance 0 [], .advance 0 [], .tick 60, .advance 0 [], .advance 0 [],
    .advance 0 [], .advance 0 [], .advance 0 [], .advance 0 [], .request ⟨1, "f2", "t3"⟩]

theorem replay_and_logout_sound :
    (EachStep (step fun _ => 1) Fresh World.empty replayAndLogout ∧
      EachStep (step fun _ => 1) (InTime fun _ => 1) World.empty replayAndLogout) ∧
      EachStep (step fun _ => 1) Sound World.empty replayAndLogout :=
  ⟨⟨by decide, by decide⟩,
    tokens_accepted_once_while_family_stands (fun _ => 1) replayAndLogout (by decide) (by decide)⟩

/-- The replay falls between the consume of the first token and the issue of the
second. -/
theorem replay_before_reissue_accepts :
    ¬ ∀ l, EachStep (step fun _ => 1) Fresh World.empty l →
      EachStep (step fun _ => 1) Sound World.empty l := by
  intro h
  have hrun := h [.login 7 "agent" 3600 "f1" "t1", .request ⟨1, "f1", "t1"⟩,
    .request ⟨1, "f1", "t1"⟩, .reissue 0 "agent" 3600 "t2", .request ⟨1, "f1", "t2"⟩] (by decide)
  exact absurd hrun (by decide)

end Refresh

end Vici2
