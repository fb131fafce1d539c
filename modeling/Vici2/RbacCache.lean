import Vici2.Delimited
import Vici2.Rbac
import Vici2.Runs

/-! The two tiers in front of the table of users, from which a permission check learns the role
and the campaigns of its caller. Calls of several processes interleave with invalidations, and a
tier is written some time after the row was read. -/

namespace Vici2

namespace Rbac

open Delimited

abbrev Text := List Char

structure ScopeInputs where
  role : Role
  userGroupId : Option Int
  allowedCampaigns : Campaigns
  active : Bool
  cacheVersion : Option Text
  deriving DecidableEq, Repr

structure Fields where
  role : Text
  userGroupId : Text
  allowedCampaigns : Text
  active : Text
  cacheVersion : Text
  deriving DecidableEq, Repr

def l1TtlMs : Nat := 30000

def l2TtlMs : Nat := 300 * 1000

def intText (n : Int) : Text := (toString n).toList

def l1Key (tenantId uid : Int) : Text := intText tenantId ++ ':' :: intText uid

def l2Key (tenantId uid : Int) : Text :=
  't' :: ':' :: (intText tenantId ++ ':' :: ("rbac:effective:".toList ++ intText uid))

def Role.text : Role → Text
  | .superAdmin => "super_admin".toList
  | .admin => "admin".toList
  | .supervisor => "supervisor".toList
  | .agent => "agent".toList
  | .viewer => "viewer".toList
  | .integrator => "integrator".toList

def roles : List Role := [.superAdmin, .admin, .supervisor, .agent, .viewer, .integrator]

def Role.ofText (t : Text) : Option Role := roles.find? fun r => r.text = t

/-- `BigInt` of a decimal text; the empty text is zero. -/
def bigInt : Text → Option Int
  | '-' :: l =>
    if l ≠ [] ∧ l.all Char.isDigit then some (-(Nat.ofDigitChars 10 l 0 : Nat)) else none
  | l => if l.all Char.isDigit then some (Nat.ofDigitChars 10 l 0 : Nat) else none

def serialize (matrixVersion : Text) (inputs : ScopeInputs) : Fields where
  role := inputs.role.text
  userGroupId := (inputs.userGroupId.map intText).getD []
  allowedCampaigns :=
    match inputs.allowedCampaigns with
    | .all => ['*']
    | .list ids => [','].intercalate (ids.map intText)
  active := if inputs.active then ['1'] else ['0']
  cacheVersion := matrixVersion

def groupOf (t : Text) : Option (Option Int) :=
  if t = [] then some none else (bigInt t).map some

def campaignsOf (t : Text) : Option Campaigns :=
  if t = ['*'] then some .all
  else (((t.splitOn ',').filter (· ≠ [])).mapM bigInt).map .list

def deserialize (raw : Fields) : Option ScopeInputs := do
  let role ← Role.ofText raw.role
  let userGroupId ← groupOf raw.userGroupId
  let allowedCampaigns ← campaignsOf raw.allowedCampaigns
  some ⟨role, userGroupId, allowedCampaigns, raw.active = ['1'], some raw.cacheVersion⟩

/-- An entry of another version of the matrix is passed over. -/
def accept (matrixVersion : Text) (raw : Fields) : Option ScopeInputs :=
  (deserialize raw).filter fun v => v.cacheVersion.all fun c => c = [] ∨ c = matrixVersion

section RoundTrip

theorem toList_intText (n : Int) : intText n =
    if n < 0 then '-' :: Nat.toDigits 10 n.natAbs else Nat.toDigits 10 n.natAbs :=
  toList_toString_int n

theorem all_isDigit_toDigits (n : Nat) : (Nat.toDigits 10 n).all Char.isDigit = true :=
  List.all_eq_true.2 fun _ hc => Nat.isDigit_of_mem_toDigits (by decide) (by decide) hc

theorem bigInt_intText (n : Int) : bigInt (intText n) = some n := by
  have hdigits := all_isDigit_toDigits n.natAbs
  rw [toList_intText]
  by_cases hneg : n < 0
  · rw [if_pos hneg]
    have hne : Nat.toDigits 10 n.natAbs ≠ [] := Nat.toDigits_ne_nil
    simp only [bigInt]
    rw [if_pos ⟨hne, hdigits⟩, Nat.ofDigitChars_ten_toDigits]
    congr 1
    omega
  · rw [if_neg hneg]
    have hvalue : ((n.natAbs : Nat) : Int) = n := by omega
    unfold bigInt
    split
    · next l heq =>
      rw [heq] at hdigits
      simp at hdigits
    · rw [if_pos hdigits, Nat.ofDigitChars_ten_toDigits, hvalue]

theorem intText_ne_nil (n : Int) : intText n ≠ [] := by
  rw [toList_intText]
  split_ifs
  · exact List.cons_ne_nil _ _
  · exact Nat.toDigits_ne_nil

theorem not_mem_intText {c : Char} (hminus : c ≠ '-') (hdigit : c.isDigit = false) (n : Int) :
    c ∉ intText n := by
  intro hmem
  rcases mem_toString_int hmem with hsign | hd
  · exact hminus hsign
  · rw [hdigit] at hd
    cases hd

theorem intText_inj {m n : Int} (h : intText m = intText n) : m = n := by
  have hread := bigInt_intText m
  rw [h, bigInt_intText] at hread
  exact (Option.some.inj hread).symm

theorem l1Key_inj {t u t' u' : Int} (h : l1Key t u = l1Key t' u') : t = t' ∧ u = u' := by
  obtain ⟨htenant, huid⟩ := append_sep_inj (colon_not_mem_toString_int t)
    (colon_not_mem_toString_int t') h
  exact ⟨intText_inj htenant, intText_inj huid⟩

theorem l2Key_inj {t u t' u' : Int} (h : l2Key t u = l2Key t' u') : t = t' ∧ u = u' := by
  have hrest := (List.cons.inj (List.cons.inj h).2).2
  obtain ⟨htenant, hsuffix⟩ := append_sep_inj (colon_not_mem_toString_int t)
    (colon_not_mem_toString_int t') hrest
  exact ⟨intText_inj htenant, intText_inj (List.append_cancel_left hsuffix)⟩

theorem ofText_text (r : Role) : Role.ofText r.text = some r := by
  cases r <;> decide

theorem mapM_bigInt (ids : List Int) : (ids.map intText).mapM bigInt = some ids := by
  induction ids with
  | nil => rfl
  | cons n ids ih =>
    rw [List.map_cons, List.mapM_cons, bigInt_intText, ih]
    rfl

theorem splitOn_idsText (ids : List Int) :
    ((([','].intercalate (ids.map intText)).splitOn ',').filter (· ≠ [])) = ids.map intText := by
  cases hids : ids with
  | nil => rfl
  | cons n rest =>
    have hne : (n :: rest).map intText ≠ [] := List.cons_ne_nil _ _
    have hpiece : ∀ t ∈ (n :: rest).map intText, t.splitOn ',' = [t] := by
      intro t ht
      obtain ⟨m, -, rfl⟩ := List.mem_map.1 ht
      exact List.splitOn_eq_singleton (not_mem_intText (by decide) (by decide) m)
    have hflat : ∀ l : List Text, (∀ t ∈ l, t.splitOn ',' = [t]) →
        (l.flatMap fun t => t.splitOn ',') = l := by
      intro l hl
      induction l with
      | nil => rfl
      | cons t l ih =>
        rw [List.flatMap_cons, hl t List.mem_cons_self,
          ih fun v hv => hl v (List.mem_cons_of_mem _ hv)]
        rfl
    rw [splitOn_intercalate_eq_flatMap hne, hflat _ hpiece, List.filter_eq_self]
    intro t ht
    obtain ⟨m, -, rfl⟩ := List.mem_map.1 ht
    exact decide_eq_true (intText_ne_nil m)

theorem idsText_ne_star (ids : List Int) : [','].intercalate (ids.map intText) ≠ ['*'] := by
  intro heq
  have hmem : '*' ∈ [','].intercalate (ids.map intText) := by
    rw [heq]
    exact List.mem_cons_self
  obtain ⟨t, ht, hstar⟩ := (mem_intercalate_iff (by decide)).1 hmem
  obtain ⟨m, -, rfl⟩ := List.mem_map.1 ht
  exact not_mem_intText (by decide) (by decide) m hstar

theorem groupOf_text (group : Option Int) : groupOf ((group.map intText).getD []) = some group := by
  cases group with
  | none => rfl
  | some n =>
    show groupOf (intText n) = some (some n)
    unfold groupOf
    rw [if_neg (intText_ne_nil n), bigInt_intText]
    rfl

theorem campaignsOf_idsText (ids : List Int) :
    campaignsOf ([','].intercalate (ids.map intText)) = some (.list ids) := by
  unfold campaignsOf
  rw [if_neg (idsText_ne_star ids), splitOn_idsText, mapM_bigInt]
  rfl

theorem deserialize_serialize (version : Text) (inputs : ScopeInputs) :
    deserialize (serialize version inputs) =
      some { inputs with cacheVersion := some version } := by
  obtain ⟨role, group, campaigns, active, cached⟩ := inputs
  have hactive : decide ((if active then ['1'] else ['0']) = ['1']) = active := by
    cases active <;> decide
  unfold deserialize serialize
  dsimp only
  rw [ofText_text, groupOf_text, hactive]
  cases campaigns with
  | all => rfl
  | list ids =>
    dsimp only
    rw [campaignsOf_idsText]
    rfl

end RoundTrip

structure Cached where
  inputs : ScopeInputs
  start : Nat
  deriving DecidableEq, Repr

structure Entry where
  raw : Fields
  expiresAt : Option Nat
  deriving DecidableEq, Repr

/-- Where a call of `loadEffective` stands: what it waits for, or what it was answered. -/
inductive Stage
  | asked
  | replied (raw : Option Fields)
  | loading
  | loaded (fresh : ScopeInputs)
  | saved (fresh : ScopeInputs)
  | settled (fresh : ScopeInputs)
  deriving DecidableEq, Repr

structure Call (π : Type) where
  process : π
  tenantId : Int
  uid : Int
  started : Nat
  stage : Stage

structure Answer where
  time : Nat
  tenantId : Int
  uid : Int
  inputs : ScopeInputs
  deriving DecidableEq, Repr

structure Tiers (π ι : Type) where
  now : Nat
  l1 : π → Text → Option Cached
  l2 : Text → Option Entry
  calls : ι → Option (Call π)
  answers : List Answer

inductive Op (π ι : Type)
  | tick (n : Nat)
  | loadEffective (i : ι) (p : π) (tenantId uid : Int)
  | hgetall (i : ι)
  | hgetallFails (i : ι)
  | resume (i : ι)
  | load (i : ι)
  | loadFails (i : ι)
  | hset (i : ι)
  | hsetFails (i : ι)
  | expire (i : ι)
  | expireFails (i : ι)
  | settle (i : ι)
  | drop (p : π) (tenantId uid : Int)
  | del (tenantId uid : Int)

namespace Tiers

variable {π ι : Type} [DecidableEq π] [DecidableEq ι]

def start : Tiers π ι where
  now := 0
  l1 _ _ := none
  l2 _ := none
  calls _ := none
  answers := []

variable (s : Tiers π ι)

def l1Get (p : π) (key : Text) : Option ScopeInputs :=
  ((s.l1 p key).filter fun c => s.now - c.start ≤ l1TtlMs).map Cached.inputs

def l2Get (key : Text) : Option Entry :=
  (s.l2 key).filter fun e => e.expiresAt.all fun x => s.now ≤ x

def setCall (i : ι) (c : Option (Call π)) : Tiers π ι :=
  { s with calls := Function.update s.calls i c }

def setL1 (p : π) (key : Text) (c : Option Cached) : Tiers π ι :=
  { s with l1 := Function.update s.l1 p (Function.update (s.l1 p) key c) }

def setL2 (key : Text) (e : Option Entry) : Tiers π ι :=
  { s with l2 := Function.update s.l2 key e }

def answer (tenantId uid : Int) (inputs : ScopeInputs) : Tiers π ι :=
  { s with answers := ⟨s.now, tenantId, uid, inputs⟩ :: s.answers }

def finish (i : ι) (c : Call π) (inputs : ScopeInputs) : Tiers π ι :=
  ((s.setL1 c.process (l1Key c.tenantId c.uid) (some ⟨inputs, s.now⟩)).answer
    c.tenantId c.uid inputs).setCall i none

/-- `db` is the table of users as it stands at each moment, and `version` the matrix version of
each process. -/
def step (db : Nat → Int → Int → Option ScopeInputs) (version : π → Text) (s : Tiers π ι) :
    Op π ι → Tiers π ι
  | .tick n => { s with now := s.now + n }
  | .loadEffective i p t u =>
    match s.calls i with
    | some _ => s
    | none =>
      match s.l1Get p (l1Key t u) with
      | some v => s.answer t u v
      | none => s.setCall i (some ⟨p, t, u, s.now, .asked⟩)
  | .hgetall i =>
    match s.calls i with
    | some ⟨p, t, u, b, .asked⟩ =>
      s.setCall i (some ⟨p, t, u, b, .replied ((s.l2Get (l2Key t u)).map Entry.raw)⟩)
    | _ => s
  | .hgetallFails i =>
    match s.calls i with
    | some ⟨p, t, u, b, .asked⟩ => s.setCall i (some ⟨p, t, u, b, .loading⟩)
    | _ => s
  | .resume i =>
    match s.calls i with
    | some ⟨p, t, u, b, .replied raw⟩ =>
      match raw.bind (accept (version p)) with
      | some v => s.finish i ⟨p, t, u, b, .replied raw⟩ v
      | none => s.setCall i (some ⟨p, t, u, b, .loading⟩)
    | _ => s
  | .load i =>
    match s.calls i with
    | some ⟨p, t, u, b, .loading⟩ =>
      match db s.now t u with
      | some fresh => s.setCall i (some ⟨p, t, u, b, .loaded fresh⟩)
      | none => s.setCall i none
    | _ => s
  | .loadFails i =>
    match s.calls i with
    | some ⟨_, _, _, _, .loading⟩ => s.setCall i none
    | _ => s
  | .hset i =>
    match s.calls i with
    | some ⟨p, t, u, b, .loaded fresh⟩ =>
      (s.setL2 (l2Key t u)
        (some ⟨serialize (version p) fresh, (s.l2Get (l2Key t u)).bind Entry.expiresAt⟩)).setCall i
          (some ⟨p, t, u, b, .saved fresh⟩)
    | _ => s
  | .hsetFails i =>
    match s.calls i with
    | some ⟨p, t, u, b, .loaded fresh⟩ => s.setCall i (some ⟨p, t, u, b, .settled fresh⟩)
    | _ => s
  | .expire i =>
    match s.calls i with
    | some ⟨p, t, u, b, .saved fresh⟩ =>
      match s.l2Get (l2Key t u) with
      | some e =>
        (s.setL2 (l2Key t u) (some { e with expiresAt := some (s.now + l2TtlMs) })).setCall i
          (some ⟨p, t, u, b, .settled fresh⟩)
      | none => s.setCall i (some ⟨p, t, u, b, .settled fresh⟩)
    | _ => s
  | .expireFails i =>
    match s.calls i with
    | some ⟨p, t, u, b, .saved fresh⟩ => s.setCall i (some ⟨p, t, u, b, .settled fresh⟩)
    | _ => s
  | .settle i =>
    match s.calls i with
    | some ⟨p, t, u, b, .settled fresh⟩ => s.finish i ⟨p, t, u, b, .settled fresh⟩ fresh
    | _ => s
  | .drop p t u => s.setL1 p (l1Key t u) none
  | .del t u => s.setL2 (l2Key t u) none

/-- No call is under way for longer than `d`, and no `EXPIRE` is lost. -/
def Timely (d : Nat) (s : Tiers π ι) : Op π ι → Prop
  | .tick n => ∀ i c, s.calls i = some c → s.now + n ≤ c.started + d
  | .expireFails _ => False
  | _ => True

end Tiers

def SameInputs (v row : ScopeInputs) : Prop :=
  { v with cacheVersion := none } = { row with cacheVersion := none }

def Written (db : Nat → Int → Int → Option ScopeInputs) (t u : Int) (m : Nat) (raw : Fields) :
    Prop :=
  ∃ row version, db m t u = some row ∧ raw = serialize version row

/-- The inputs are those of the user's row at the moment `m`. -/
def ReadAt (db : Nat → Int → Int → Option ScopeInputs) (t u : Int) (m : Nat) (v : ScopeInputs) :
    Prop :=
  ∃ row, db m t u = some row ∧ SameInputs v row

def Call.Saved {π : Type} (c : Call π) : Prop := ∃ fresh, c.stage = .saved fresh

def CallOk {π : Type} (db : Nat → Int → Int → Option ScopeInputs) (d now : Nat) (c : Call π) :
    Prop :=
  c.started ≤ now ∧ now ≤ c.started + d ∧
    match c.stage with
    | .asked | .loading => True
    | .replied raw => ∀ f, raw = some f →
        ∃ m ≤ now, Written db c.tenantId c.uid m f ∧ c.started ≤ m + l2TtlMs + 2 * d
    | .loaded fresh | .saved fresh | .settled fresh =>
        ∃ m, c.started ≤ m ∧ m ≤ now ∧ db m c.tenantId c.uid = some fresh

namespace Tiers

variable {π ι : Type}

/-- An entry of the hash was read from the table when its writer had begun. It runs out in time,
or a call that will see to that is still under way. -/
def EntryOk (db : Nat → Int → Int → Option ScopeInputs) (d : Nat) (s : Tiers π ι) (t u : Int)
    (e : Entry) : Prop :=
  ∃ m ≤ s.now, Written db t u m e.raw ∧
    (∀ i c, s.calls i = some c → c.tenantId = t → c.uid = u → c.Saved → c.started ≤ m + d) ∧
    (∀ x, e.expiresAt = some x → x ≤ m + l2TtlMs + 2 * d ∧ x ≤ s.now + l2TtlMs) ∧
    (e.expiresAt = none →
      ∃ i c, s.calls i = some c ∧ c.tenantId = t ∧ c.uid = u ∧ c.Saved ∧ c.started ≤ m)

structure Inv (db : Nat → Int → Int → Option ScopeInputs) (d : Nat) (s : Tiers π ι) : Prop where
  calls : ∀ i c, s.calls i = some c → CallOk db d s.now c
  l2 : ∀ t u e, s.l2 (l2Key t u) = some e → EntryOk db d s t u e
  l1 : ∀ p t u c, s.l1 p (l1Key t u) = some c →
    ∃ m, ReadAt db t u m c.inputs ∧ m ≤ c.start ∧ c.start ≤ s.now ∧
      c.start ≤ m + l2TtlMs + 3 * d
  answers : ∀ a ∈ s.answers,
    ∃ m, ReadAt db a.tenantId a.uid m a.inputs ∧ m ≤ a.time ∧
      a.time ≤ m + (l1TtlMs + l2TtlMs + 3 * d)

section Steps

variable {db : Nat → Int → Int → Option ScopeInputs} {version : π → Text} {d : Nat}

theorem readAt_of_row {t u : Int} {m : Nat} {fresh : ScopeInputs} (h : db m t u = some fresh) :
    ReadAt db t u m fresh := ⟨fresh, h, rfl⟩

theorem readAt_of_accept {t u : Int} {m : Nat} {raw : Fields} {v : ScopeInputs}
    {matrixVersion : Text} (h : Written db t u m raw) (ha : accept matrixVersion raw = some v) :
    ReadAt db t u m v := by
  obtain ⟨row, writer, hrow, rfl⟩ := h
  unfold accept at ha
  rw [deserialize_serialize] at ha
  obtain ⟨hv, -⟩ := Option.filter_eq_some_iff.1 ha
  refine ⟨row, hrow, ?_⟩
  rw [← Option.some.inj hv]
  rfl

theorem inv_start : (start : Tiers π ι).Inv db d where
  calls i c h := by cases h
  l2 t u e h := by cases h
  l1 p t u c h := by cases h
  answers a h := by cases h

variable {s : Tiers π ι}

theorem callOk_tick {c : Call π} {now n : Nat} (h : CallOk db d now c)
    (hn : now + n ≤ c.started + d) : CallOk db d (now + n) c := by
  obtain ⟨hstarted, -, hstage⟩ := h
  refine ⟨by omega, hn, ?_⟩
  cases hc : c.stage with
  | asked => trivial
  | loading => trivial
  | replied raw =>
    rw [hc] at hstage
    intro f hf
    obtain ⟨m, hm, hrest⟩ := hstage f hf
    exact ⟨m, by omega, hrest⟩
  | loaded fresh | saved fresh | settled fresh =>
    rw [hc] at hstage
    obtain ⟨m, hm, hnow, hrow⟩ := hstage
    exact ⟨m, hm, by omega, hrow⟩

theorem Inv.tick (h : s.Inv db d) {n : Nat}
    (hn : ∀ i c, s.calls i = some c → s.now + n ≤ c.started + d) :
    ({ s with now := s.now + n } : Tiers π ι).Inv db d where
  calls i c hc := callOk_tick (h.calls i c hc) (hn i c hc)
  l2 t u e he := by
    obtain ⟨m, hm, hraw, hsaved, hexp, hnone⟩ := h.l2 t u e he
    refine ⟨m, Nat.le_add_right_of_le hm, hraw, hsaved, fun x hx => ?_, hnone⟩
    have hx' := hexp x hx
    exact ⟨hx'.1, by show x ≤ s.now + n + l2TtlMs; omega⟩
  l1 p t u c hc := by
    obtain ⟨m, hread, hm, hnow, hage⟩ := h.l1 p t u c hc
    exact ⟨m, hread, hm, Nat.le_add_right_of_le hnow, hage⟩
  answers := h.answers

theorem Inv.l2Get (h : s.Inv db d) {t u : Int} {e : Entry} (he : s.l2Get (l2Key t u) = some e) :
    ∃ m ≤ s.now, Written db t u m e.raw ∧ s.now ≤ m + l2TtlMs + 2 * d := by
  obtain ⟨hmem, halive⟩ := Option.filter_eq_some_iff.1 he
  obtain ⟨m, hm, hraw, -, hexp, hnone⟩ := h.l2 t u e hmem
  refine ⟨m, hm, hraw, ?_⟩
  cases hx : e.expiresAt with
  | some x =>
    rw [hx] at halive
    have hlive : s.now ≤ x := by simpa using halive
    have hbound := (hexp x hx).1
    omega
  | none =>
    obtain ⟨i, c, hc, -, -, -, hstarted⟩ := hnone hx
    have hcall := (h.calls i c hc).2.1
    omega

theorem Inv.setCall [DecidableEq ι] (h : s.Inv db d) {i : ι} {c' : Option (Call π)}
    (hnew : ∀ c, c' = some c → CallOk db d s.now c ∧ ¬ c.Saved)
    (hold : ∀ c, s.calls i = some c → c.Saved →
      ∀ e, s.l2 (l2Key c.tenantId c.uid) = some e → e.expiresAt ≠ none) :
    (s.setCall i c').Inv db d where
  calls j c hc := by
    rcases update_some_cases hc with hb | hf
    · exact (hnew c hb).1
    · exact h.calls j c hf
  l2 t u e he := by
    obtain ⟨m, hm, hraw, hsaved, hexp, hnone⟩ := h.l2 t u e he
    refine ⟨m, hm, hraw, fun j c hc ht hu hs => ?_, hexp, fun hx => ?_⟩
    · rcases update_some_cases hc with hb | hf
      · exact absurd hs (hnew c hb).2
      · exact hsaved j c hf ht hu hs
    · obtain ⟨j, c, hc, ht, hu, hs, hstarted⟩ := hnone hx
      have hj : j ≠ i := by
        rintro rfl
        refine hold c hc hs e ?_ hx
        rw [ht, hu]
        exact he
      refine ⟨j, c, ?_, ht, hu, hs, hstarted⟩
      show Function.update s.calls i c' j = some c
      rw [Function.update_of_ne hj]
      exact hc
  l1 := h.l1
  answers := h.answers

theorem not_saved_of_stage {c : Call π} {stage : Stage} (hstage : c.stage = stage)
    (hne : ∀ fresh, stage ≠ .saved fresh) : ¬ c.Saved := by
  rintro ⟨fresh, hfresh⟩
  exact hne fresh (hstage.symm.trans hfresh)

theorem Inv.advance [DecidableEq ι] (h : s.Inv db d) {i : ι} {c : Call π} {c' : Option (Call π)}
    (hc : s.calls i = some c) (hns : ∀ fresh, c.stage ≠ .saved fresh)
    (hnew : ∀ c, c' = some c → CallOk db d s.now c ∧ ¬ c.Saved) : (s.setCall i c').Inv db d := by
  refine h.setCall hnew fun c₁ hc₁ hs => ?_
  rw [hc] at hc₁
  rw [← Option.some.inj hc₁] at hs
  exact absurd hs (not_saved_of_stage rfl hns)

theorem Inv.answer (h : s.Inv db d) {t u : Int} {v : ScopeInputs} {m : Nat}
    (hread : ReadAt db t u m v) (hm : m ≤ s.now)
    (hage : s.now ≤ m + (l1TtlMs + l2TtlMs + 3 * d)) : (s.answer t u v).Inv db d where
  calls := h.calls
  l2 := h.l2
  l1 := h.l1
  answers a ha := by
    rcases List.mem_cons.1 ha with rfl | ha
    · exact ⟨m, hread, hm, hage⟩
    · exact h.answers a ha

theorem Inv.setL1 [DecidableEq π] (h : s.Inv db d) {p : π} {t u : Int} {c' : Option Cached}
    (hnew : ∀ c, c' = some c → c.start = s.now ∧
      ∃ m, ReadAt db t u m c.inputs ∧ m ≤ s.now ∧ s.now ≤ m + l2TtlMs + 3 * d) :
    (s.setL1 p (l1Key t u) c').Inv db d where
  calls := h.calls
  l2 := h.l2
  l1 q t' u' c hc := by
    rcases update_cases (fun f : Text → Option Cached => f (l1Key t' u') = some c) hc with ⟨rfl, hp⟩ | ⟨-, hq⟩
    · rcases update_cases (fun b => b = some c) hp with ⟨hkey, hb⟩ | ⟨-, hf⟩
      · obtain ⟨rfl, rfl⟩ := l1Key_inj hkey
        obtain ⟨hstart, m, hread, hm, hage⟩ := hnew c hb
        exact ⟨m, hread, by rw [hstart]; exact hm, by rw [hstart]; exact le_refl _,
          by rw [hstart]; exact hage⟩
      · exact h.l1 _ t' u' c hf
    · exact h.l1 q t' u' c hq
  answers := h.answers

theorem Inv.finish [DecidableEq π] [DecidableEq ι] (h : s.Inv db d) {i : ι} {c : Call π} {v : ScopeInputs} {m : Nat}
    (hc : s.calls i = some c) (hns : ∀ fresh, c.stage ≠ .saved fresh)
    (hread : ReadAt db c.tenantId c.uid m v) (hm : m ≤ s.now)
    (hage : s.now ≤ m + l2TtlMs + 3 * d) : (s.finish i c v).Inv db d := by
  have hl1 : (s.setL1 c.process (l1Key c.tenantId c.uid) (some ⟨v, s.now⟩)).Inv db d := by
    refine h.setL1 fun c' hc' => ?_
    rw [← Option.some.inj hc']
    exact ⟨rfl, m, hread, hm, hage⟩
  have hanswer := hl1.answer hread hm (by show s.now ≤ _; omega)
  exact hanswer.advance hc hns fun c' hc' => by cases hc'

theorem Inv.expire [DecidableEq ι] (h : s.Inv db d) {i : ι} {c : Call π} {fresh : ScopeInputs}
    (hc : s.calls i = some c) (hstage : c.stage = .saved fresh) {e : Entry}
    (he : s.l2 (l2Key c.tenantId c.uid) = some e) :
    (s.setL2 (l2Key c.tenantId c.uid)
      (some { e with expiresAt := some (s.now + l2TtlMs) })).Inv db d where
  calls := h.calls
  l2 t u e' he' := by
    rcases update_cases (fun b => b = some e') he' with ⟨hkey, hb⟩ | ⟨-, hf⟩
    · obtain ⟨rfl, rfl⟩ := l2Key_inj hkey
      obtain ⟨m, hm, hraw, hsaved, -, -⟩ := h.l2 _ _ e he
      rw [← Option.some.inj hb]
      refine ⟨m, hm, hraw, hsaved, fun x hx => ?_, fun hx => by cases hx⟩
      have hbegun := hsaved i c hc rfl rfl ⟨fresh, hstage⟩
      have htime := (h.calls i c hc).2.1
      have hx' : s.now + l2TtlMs = x := Option.some.inj hx
      refine ⟨by omega, ?_⟩
      show x ≤ s.now + l2TtlMs
      omega
    · exact h.l2 t u e' hf
  l1 := h.l1
  answers := h.answers

theorem Inv.hset [DecidableEq ι] (h : s.Inv db d) {i : ι} {c : Call π} {fresh : ScopeInputs}
    (hc : s.calls i = some c) (hstage : c.stage = .loaded fresh) (matrixVersion : Text) :
    ((s.setL2 (l2Key c.tenantId c.uid) (some ⟨serialize matrixVersion fresh,
        (s.l2Get (l2Key c.tenantId c.uid)).bind Entry.expiresAt⟩)).setCall i
      (some { c with stage := .saved fresh })).Inv db d where
  calls j c' hc' := by
    rcases update_some_cases hc' with hb | hf
    · obtain ⟨hstarted, htime, hrow⟩ := h.calls i c hc
      rw [hstage] at hrow
      rw [← Option.some.inj hb]
      exact ⟨hstarted, htime, hrow⟩
    · exact h.calls j c' hf
  l2 t u e he := by
    obtain ⟨hstarted, htime, hrow⟩ := h.calls i c hc
    rw [hstage] at hrow
    obtain ⟨m, hm, hnow, hdb⟩ := hrow
    rcases update_cases (fun b => b = some e) he with ⟨hkey, hb⟩ | ⟨hkey, hf⟩
    · obtain ⟨rfl, rfl⟩ := l2Key_inj hkey
      rw [← Option.some.inj hb]
      refine ⟨m, hnow, ⟨fresh, matrixVersion, hdb, rfl⟩, fun j c' hc' _ _ _ => ?_, fun x hx => ?_,
        fun _ => ⟨i, { c with stage := .saved fresh }, ?_, rfl, rfl, ⟨fresh, rfl⟩, hm⟩⟩
      · rcases update_some_cases hc' with hb' | hf'
        · rw [← Option.some.inj hb']
          show c.started ≤ m + d
          omega
        · have hbegun := (h.calls j c' hf').1
          omega
      · obtain ⟨e₀, he₀, hx₀⟩ := Option.bind_eq_some_iff.1 hx
        obtain ⟨m₀, -, -, -, hexp, -⟩ := h.l2 _ _ e₀ (Option.filter_eq_some_iff.1 he₀).1
        have hbound := (hexp x hx₀).2
        refine ⟨by omega, hbound⟩
      · exact Function.update_self i _ s.calls
    · obtain ⟨m', hm', hraw, hsaved, hexp, hnone⟩ := h.l2 t u e hf
      refine ⟨m', hm', hraw, fun j c' hc' ht hu hs => ?_, hexp, fun hx => ?_⟩
      · rcases update_some_cases hc' with hb' | hf'
        · rw [← Option.some.inj hb'] at ht hu
          exact absurd (by rw [← ht, ← hu]) hkey
        · exact hsaved j c' hf' ht hu hs
      · obtain ⟨j, c', hc', ht, hu, hs, hbegun⟩ := hnone hx
        have hj : j ≠ i := by
          rintro rfl
          rw [hc] at hc'
          rw [← Option.some.inj hc'] at hs
          exact absurd hs (not_saved_of_stage hstage fun _ => by simp)
        refine ⟨j, c', ?_, ht, hu, hs, hbegun⟩
        show Function.update s.calls i _ j = some c'
        rw [Function.update_of_ne hj]
        exact hc'
  l1 := h.l1
  answers := h.answers

theorem Inv.step [DecidableEq π] [DecidableEq ι] (h : s.Inv db d) (op : Op π ι)
    (hop : s.Timely d op) : (s.step db version op).Inv db d := by
  cases op with
  | tick n => exact h.tick hop
  | loadEffective i p t u =>
    unfold Tiers.step
    dsimp only
    split
    · exact h
    · next hc =>
      split
      · next v hv =>
        obtain ⟨c, hget, rfl⟩ := Option.map_eq_some_iff.1 hv
        obtain ⟨hl1, halive⟩ := Option.filter_eq_some_iff.1 hget
        obtain ⟨m, hread, hm, hnow, hage⟩ := h.l1 p t u c hl1
        have hlive : s.now - c.start ≤ l1TtlMs := of_decide_eq_true halive
        exact h.answer hread (by omega) (by omega)
      · refine h.setCall (fun c' hc' => ?_) fun c' hc' => by rw [hc] at hc'; cases hc'
        rw [← Option.some.inj hc']
        exact ⟨⟨le_refl _, Nat.le_add_right _ _, trivial⟩, not_saved_of_stage rfl fun _ => by simp⟩
  | hgetall i =>
    unfold Tiers.step
    dsimp only
    split
    · next p t u b hc =>
      have hcall := h.calls i _ hc
      refine h.advance hc (fun _ => by simp) fun c' hc' => ?_
      rw [← Option.some.inj hc']
      refine ⟨⟨hcall.1, hcall.2.1, fun f hf => ?_⟩, not_saved_of_stage rfl fun _ => by simp⟩
      obtain ⟨e, he, rfl⟩ := Option.map_eq_some_iff.1 hf
      obtain ⟨m, hm, hraw, hage⟩ := h.l2Get he
      have hbegun : b ≤ s.now := hcall.1
      exact ⟨m, hm, hraw, by show b ≤ _; omega⟩
    · exact h
  | hgetallFails i =>
    unfold Tiers.step
    dsimp only
    split
    · next p t u b hc =>
      have hcall := h.calls i _ hc
      refine h.advance hc (fun _ => by simp) fun c' hc' => ?_
      rw [← Option.some.inj hc']
      exact ⟨⟨hcall.1, hcall.2.1, trivial⟩, not_saved_of_stage rfl fun _ => by simp⟩
    · exact h
  | resume i =>
    unfold Tiers.step
    dsimp only
    split
    · next p t u b raw hc =>
      obtain ⟨hbegun, htime, hstage⟩ := h.calls i _ hc
      split
      · next v hv =>
        obtain ⟨f, hraw, haccept⟩ := Option.bind_eq_some_iff.1 hv
        obtain ⟨m, hm, hwritten, hage⟩ := hstage f hraw
        have hage' : b ≤ m + l2TtlMs + 2 * d := hage
        have htime' : s.now ≤ b + d := htime
        exact h.finish hc (fun _ => by simp) (readAt_of_accept hwritten haccept) hm (by omega)
      · refine h.advance hc (fun _ => by simp) fun c' hc' => ?_
        rw [← Option.some.inj hc']
        exact ⟨⟨hbegun, htime, trivial⟩, not_saved_of_stage rfl fun _ => by simp⟩
    · exact h
  | load i =>
    unfold Tiers.step
    dsimp only
    split
    · next p t u b hc =>
      have hcall := h.calls i _ hc
      split
      · next fresh hrow =>
        refine h.advance hc (fun _ => by simp) fun c' hc' => ?_
        rw [← Option.some.inj hc']
        exact ⟨⟨hcall.1, hcall.2.1, s.now, hcall.1, le_refl _, hrow⟩,
          not_saved_of_stage rfl fun _ => by simp⟩
      · exact h.advance hc (fun _ => by simp) fun c' hc' => by cases hc'
    · exact h
  | loadFails i =>
    unfold Tiers.step
    dsimp only
    split
    · next p t u b hc => exact h.advance hc (fun _ => by simp) fun c' hc' => by cases hc'
    · exact h
  | hset i =>
    unfold Tiers.step
    dsimp only
    split
    · next p t u b fresh hc => exact h.hset hc rfl (version p)
    · exact h
  | hsetFails i =>
    unfold Tiers.step
    dsimp only
    split
    · next p t u b fresh hc =>
      have hcall := h.calls i _ hc
      refine h.advance hc (fun _ => by simp) fun c' hc' => ?_
      rw [← Option.some.inj hc']
      exact ⟨hcall, not_saved_of_stage rfl fun _ => by simp⟩
    · exact h
  | expire i =>
    unfold Tiers.step
    dsimp only
    split
    · next p t u b fresh hc =>
      have hcall := h.calls i _ hc
      have hnew : ∀ c', some (⟨p, t, u, b, .settled fresh⟩ : Call π) = some c' →
          CallOk db d s.now c' ∧ ¬ c'.Saved := by
        intro c' hc'
        rw [← Option.some.inj hc']
        exact ⟨hcall, not_saved_of_stage rfl fun _ => by simp⟩
      split
      · next e he =>
        have hset := h.expire hc rfl (Option.filter_eq_some_iff.1 he).1
        refine hset.setCall hnew fun c₁ hc₁ _ e₁ he₁ => ?_
        have hsame : (⟨p, t, u, b, .saved fresh⟩ : Call π) = c₁ :=
          Option.some.inj (hc.symm.trans hc₁)
        rw [← hsame] at he₁
        have hat : some { e with expiresAt := some (s.now + l2TtlMs) } = some e₁ := by
          rw [← he₁]
          exact (Function.update_self (l2Key t u) _ s.l2).symm
        rw [← Option.some.inj hat]
        exact Option.some_ne_none _
      · next hnone =>
        refine h.setCall hnew fun c₁ hc₁ _ e₁ he₁ hx => ?_
        have hsame : (⟨p, t, u, b, .saved fresh⟩ : Call π) = c₁ :=
          Option.some.inj (hc.symm.trans hc₁)
        rw [← hsame] at he₁
        have halive : s.l2Get (l2Key t u) = some e₁ :=
          Option.filter_eq_some_iff.2 ⟨he₁, by rw [hx]; rfl⟩
        rw [hnone] at halive
        cases halive
    · exact h
  | expireFails i => exact absurd hop id
  | settle i =>
    unfold Tiers.step
    dsimp only
    split
    · next p t u b fresh hc =>
      obtain ⟨-, htime, m, hbegun, hm, hrow⟩ := h.calls i _ hc
      have htime' : s.now ≤ b + d := htime
      have hbegun' : b ≤ m := hbegun
      exact h.finish hc (fun _ => by simp) (readAt_of_row hrow) hm (by omega)
    · exact h
  | drop p t u => exact h.setL1 fun c hc => by cases hc
  | del t u =>
    refine ⟨h.calls, fun t' u' e he => ?_, h.l1, h.answers⟩
    rcases update_cases (fun b => b = some e) he with ⟨-, hb⟩ | ⟨-, hf⟩
    · cases hb
    · exact h.l2 t' u' e hf

/-- Whatever calls, invalidations and failures interleave, an answer is about the user that was
asked for, as their row stood at most the two times to live and three calls before. -/
theorem answers_recent [DecidableEq π] [DecidableEq ι] (l : List (Op π ι))
    (hl : EachStep (Tiers.step db version) (fun s op => s.Timely d op) start l) :
    ∀ a ∈ (l.foldl (Tiers.step db version) start).answers,
      ∃ m ≤ a.time, ReadAt db a.tenantId a.uid m a.inputs ∧
        a.time ≤ m + (l1TtlMs + l2TtlMs + 3 * d) := by
  have hinv : (l.foldl (Tiers.step db version) start).Inv db d :=
    (always_of_eachStep (I := fun s : Tiers π ι => s.Inv db d)
      (fun s op hs hop => hs.step op hop) inv_start hl).last
  intro a ha
  obtain ⟨m, hread, hm, hage⟩ := hinv.answers a ha
  exact ⟨m, hm, hread, hage⟩

end Steps

section LostExpire

def demoted (m : Nat) (_ _ : Int) : Option ScopeInputs :=
  some ⟨if m = 0 then .admin else .agent, none, .all, true, none⟩

def firstLoad : List (Op Unit Unit) :=
  [.loadEffective () () 1 7, .hgetall (), .resume (), .load (), .hset (), .expire (), .settle (),
    .tick 5, .loadEffective () () 1 7]

theorem firstLoad_answers :
    (firstLoad.foldl (Tiers.step demoted fun _ => []) start).answers =
      [⟨0 + 5, 1, 7, ⟨.admin, none, .all, true, none⟩⟩,
        ⟨0, 1, 7, ⟨.admin, none, .all, true, none⟩⟩] := rfl

theorem firstLoad_recent :
    ∃ m ≤ 0 + 5, ReadAt demoted 1 7 m ⟨.admin, none, .all, true, none⟩ ∧
      0 + 5 ≤ m + (l1TtlMs + l2TtlMs + 3 * 0) := by
  have htick : ∀ i c,
      ((firstLoad.take 7).foldl (Tiers.step demoted fun _ => []) start).calls i = some c →
        0 + 5 ≤ c.started + 0 := by
    intro i c hc
    have hnone : ((firstLoad.take 7).foldl (Tiers.step demoted fun _ => []) start).calls i =
        none := rfl
    rw [hnone] at hc
    cases hc
  have hrecent : ∀ a ∈ (firstLoad.foldl (Tiers.step demoted fun _ => []) start).answers,
      ∃ m ≤ a.time, ReadAt demoted a.tenantId a.uid m a.inputs ∧
        a.time ≤ m + (l1TtlMs + l2TtlMs + 3 * 0) :=
    answers_recent firstLoad ⟨trivial, trivial, trivial, trivial, trivial, trivial, trivial,
      htick, trivial, trivial⟩
  rw [firstLoad_answers] at hrecent
  exact hrecent _ List.mem_cons_self

/-- An administrator is loaded, the `EXPIRE` of the entry is lost, and the user comes back when
they have long been demoted. -/
def lostExpire (n : Nat) : List (Op Unit Unit) :=
  [.loadEffective () () 1 7, .hgetall (), .resume (), .load (), .hset (), .expireFails (),
    .settle (), .drop () 1 7, .tick (n + 1), .loadEffective () () 1 7, .hgetall (), .resume ()]

theorem lostExpire_answers (n : Nat) :
    ((lostExpire n).foldl (Tiers.step demoted fun _ => []) start).answers =
      [⟨0 + (n + 1), 1, 7, ⟨.admin, none, .all, true, some []⟩⟩,
        ⟨0, 1, 7, ⟨.admin, none, .all, true, none⟩⟩] := rfl

/-- Without the condition on `EXPIRE` an answer is as old as one likes, even if every call ends at
the moment it begins. -/
theorem stale_after_lost_expire (n : Nat) :
    EachStep (Tiers.step demoted fun _ => [])
        (fun s op => s.Timely 0 op ∨ op = .expireFails ()) start (lostExpire n) ∧
      ∃ a ∈ ((lostExpire n).foldl (Tiers.step demoted fun _ => []) start).answers,
        ∀ m, ReadAt demoted a.tenantId a.uid m a.inputs → m + n < a.time := by
  constructor
  · have htick : ∀ i c,
        (((lostExpire n).take 8).foldl (Tiers.step demoted fun _ => []) start).calls i = some c →
          0 + (n + 1) ≤ c.started + 0 := by
      intro i c hc
      have hnone : (((lostExpire n).take 8).foldl (Tiers.step demoted fun _ => []) start).calls i =
          none := rfl
      rw [hnone] at hc
      cases hc
    exact ⟨.inl trivial, .inl trivial, .inl trivial, .inl trivial, .inl trivial, .inr rfl,
      .inl trivial, .inl trivial, .inl htick, .inl trivial, .inl trivial, .inl trivial, trivial⟩
  · rw [lostExpire_answers]
    refine ⟨_, List.mem_cons_self, fun m hread => ?_⟩
    obtain ⟨row, hrow, hsame⟩ := hread
    have hrole : Role.admin = if m = 0 then .admin else .agent := by
      have hr := congrArg ScopeInputs.role hsame
      rw [← Option.some.inj hrow] at hr
      exact hr
    split_ifs at hrole with hm
    show m + n < 0 + (n + 1)
    omega

end LostExpire

end Tiers

end Rbac

end Vici2
