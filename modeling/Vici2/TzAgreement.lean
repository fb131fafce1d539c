import Vici2.TzCascade

/-! When the two timezone resolvers agree: tier by tier, in terms of the request and of the
rows of the tables. -/

namespace Vici2

namespace Tz

section Zip

open Audit (utf8 utf16)

theorem bytes_eq_flatMap (s : String) :
    Go.bytes s = s.toList.flatMap fun c => (String.utf8EncodeChar c).map UInt8.toNat := by
  rw [Go.bytes, utf8, ← String.utf8Encode_toList, List.utf8Encode]
  simp [List.map_flatMap]

theorem encode_ascii {c : Char} (h : c.toNat < 128) :
    (String.utf8EncodeChar c).map UInt8.toNat = [c.toNat] := by
  have hval : c.val.toNat ≤ 127 := by
    have heq : c.val.toNat = c.toNat := rfl
    omega
  have hmod : c.toNat % 256 = c.toNat := Nat.mod_eq_of_lt (by omega)
  rw [String.utf8EncodeChar]
  simp only [hval, if_true, List.map_cons, List.map_nil]
  exact congrArg (fun n => [n]) hmod

/-- In ASCII the bytes of a text are its UTF-16 units. -/
theorem bytes_eq_utf16 {s : String} (h : ∀ u ∈ utf16 s, u < 128) : Go.bytes s = utf16 s := by
  have hascii : ∀ c ∈ s.toList, c.toNat < 128 := by
    intro c hc
    by_cases hsmall : c.toNat < 0x10000
    · exact h _ (List.mem_flatMap.2 ⟨c, hc, by simp [hsmall]⟩)
    · have hunit := h (0xd800 + (c.toNat - 0x10000) / 1024)
        (List.mem_flatMap.2 ⟨c, hc, by simp [hsmall]⟩)
      omega
  rw [bytes_eq_flatMap, utf16]
  refine List.flatMap_congr ?_
  intro c hc
  have hc' := hascii c hc
  rw [encode_ascii hc', if_pos (by omega)]

theorem isDigitCode_lt {n : Nat} (h : isDigitCode n = true) : n < 128 := by
  simp only [isDigitCode, Bool.and_eq_true, decide_eq_true_eq] at h
  omega

/-- A ZIP code that the API takes is one to the dialer. -/
theorem Go.isValidUSZip_of_ts {zip : String} (h : Ts.isValidUSZip zip = true) :
    Go.isValidUSZip zip = true := by
  rw [Ts.isValidUSZip] at h
  split at h
  · next hfive =>
    have hbytes := bytes_eq_utf16 fun u hu => isDigitCode_lt (List.all_eq_true.1 h u hu)
    simp only [Go.isValidUSZip, hbytes, hfive, if_true, h]
  · next hfive =>
    split at h
    · next hten =>
      simp only [Bool.and_eq_true, decide_eq_true_eq] at h
      obtain ⟨⟨hfirst, hdash⟩, hlast⟩ := h
      have hsplit : utf16 zip = (utf16 zip).take 5 ++ 45 :: (utf16 zip).drop 6 := by
        obtain ⟨hlt, hget⟩ := List.getElem?_eq_some_iff.1 hdash
        rw [← hget, ← List.drop_eq_getElem_cons hlt, List.take_append_drop]
      have hascii : ∀ u ∈ utf16 zip, u < 128 := by
        intro u hu
        rw [hsplit] at hu
        rcases List.mem_append.1 hu with hu | hu
        · exact isDigitCode_lt (List.all_eq_true.1 hfirst u hu)
        · rcases List.mem_cons.1 hu with rfl | hu
          · omega
          · exact isDigitCode_lt (List.all_eq_true.1 hlast u hu)
      have hbytes := bytes_eq_utf16 hascii
      rw [Go.isValidUSZip, hbytes, if_neg hfive, if_pos ⟨hten, hdash⟩]
      exact hfirst
    · simp at h

end Zip

section Main

variable {loc : Type} (P : Platform loc) (tables : Tables)
  (tsCampaigns goCampaigns : String → Option CampaignEntry) (tsNow goNow : Int)
  (req : ResolveRequest)

/-- What makes a tier say the same in both resolvers: the two runtimes know the same
zones there, and the rows that the API files by their spelling are those that the dialer
files by their value. -/
def Same : Tier → Prop
  | .known => req.knownTimezone ≠ "" →
      (P.intlAccepts req.knownTimezone = true ↔ Loads P req.knownTimezone)
  | .zip =>
    if Ts.isValidUSZip req.zip = true then
      spelledZip tables.zipCodes req.zip = numericZip P tables.zipCodes req.zip
    else Go.isValidUSZip req.zip = true → numericZip P tables.zipCodes req.zip = none
  | .override => ∀ n ∈ number P req,
      spelledZone tables.overrides n = numericZone P tables.overrides n
  | .nxx => ∀ n ∈ number P req,
      spelledZone tables.phoneCodes n = numericZone P tables.phoneCodes n
  | .npa => ∀ n ∈ number P req,
      ∀ row ∈ tables.phoneCodes.find? fun row => decide (row.areaCode = n.npa),
        Loads P row.tzIana
  | .library => ∀ n ∈ number P req, ∀ zone ∈ n.zones.head?,
      (P.intlAccepts zone = true ↔ Loads P zone)
  | .state => req.state ∉ Ts.objectPrototype ∧
      ∀ zone ∈ singleTzStateMap.lookup req.state, Loads P zone
  | .campaign => req.campaignId ≠ "" →
      liveTs tsCampaigns tsNow req.campaignId =
        (liveGo goCampaigns goNow req.campaignId).filter fun zone =>
          decide (zone ≠ "") && decide (Loads P zone)

theorem map_text_inj {o o' : Option String} :
    o.map Ts.Iana.text = o'.map Ts.Iana.text ↔ o = o' := by
  refine ⟨fun h => ?_, fun h => by rw [h]⟩
  exact Option.map_injective (fun a b hab => by injection hab) h

theorem find_loads_iff (rows : List CodeRow) (p : CodeRow → Bool) :
    (rows.find? p).map (·.tzIana) =
        (rows.find? fun row => decide (Loads P row.tzIana) && p row).map (·.tzIana) ↔
      ∀ row ∈ rows.find? p, Loads P row.tzIana := by
  induction rows with
  | nil => simp
  | cons row rows ih =>
    by_cases hp : p row = true
    · by_cases hload : Loads P row.tzIana
      · simp [hp, hload]
      · simp only [List.find?_cons, hp, hload, decide_false, Bool.false_and, Option.map_some]
        constructor
        · intro h
          obtain ⟨found, hfound, htz⟩ := Option.map_eq_some_iff.1 h.symm
          have hf := List.find?_some hfound
          rw [Bool.and_eq_true, decide_eq_true_eq] at hf
          exact absurd (htz ▸ hf.1) hload
        · intro h
          exact absurd (h row rfl) hload
    · simpa [List.find?_cons, hp] using ih

theorem forall_number_iff {q : PhoneNumber → Prop} {f g : PhoneNumber → Option Ts.Iana}
    (hq : ∀ n, f n = g n ↔ q n) :
    (number P req).bind f = (number P req).bind g ↔ ∀ n ∈ number P req, q n := by
  cases number P req with
  | none => simp
  | some n => simp [hq]

theorem not_split_of_lookup {state zone : String} (h : singleTzStateMap.lookup state = some zone) :
    state ≠ "" ∧ state ∉ splitStates ∧ state ∉ Ts.objectPrototype := by
  have hmem : state ∈ singleTzStateMap.map Prod.fst := by
    obtain ⟨before, after, heq, -⟩ := List.lookup_eq_some_iff.1 h
    rw [heq]
    simp
  have hall : ∀ name ∈ singleTzStateMap.map Prod.fst,
      name ≠ "" ∧ name ∉ splitStates ∧ name ∉ Ts.objectPrototype := by decide
  exact hall state hmem

theorem same_state_iff :
    Ts.answer P tables tsCampaigns tsNow req .state = Go.said P tables goCampaigns goNow req .state ↔
      Same P tables tsCampaigns goCampaigns tsNow goNow req .state := by
  rw [Ts.answer, Go.said, Go.answer, Same]
  cases hlookup : singleTzStateMap.lookup req.state with
  | some zone =>
    obtain ⟨hempty, hsplit, hproto⟩ := not_split_of_lookup hlookup
    rw [if_neg (not_or.2 ⟨hempty, hsplit⟩), if_neg hempty, Ts.stateIana, hlookup]
    by_cases hload : Loads P zone
    · simp [Option.filter, hload, hproto]
    · simp [Option.filter, hload]
  | none =>
    by_cases hskip : req.state = "" ∨ req.state ∈ splitStates
    · have hproto : req.state ∉ Ts.objectPrototype := by
        have hsplit : ∀ name ∈ splitStates, name ∉ Ts.objectPrototype := by decide
        rcases hskip with hempty | hmem
        · rw [hempty]
          decide
        · exact hsplit _ hmem
      simp [hskip, hproto]
    · rw [if_neg hskip, if_neg (fun h => hskip (.inl h)), Ts.stateIana, hlookup]
      by_cases hproto : req.state ∈ Ts.objectPrototype
      · simp [hproto]
      · simp [hproto]

theorem same_iff (t : Tier) :
    Ts.answer P tables tsCampaigns tsNow req t = Go.said P tables goCampaigns goNow req t ↔
      Same P tables tsCampaigns goCampaigns tsNow goNow req t := by
  cases t with
  | known =>
    rw [Ts.answer, Go.said, Go.answer, Same]
    by_cases hempty : req.knownTimezone = ""
    · simp [hempty]
    · by_cases hintl : P.intlAccepts req.knownTimezone = true <;>
        by_cases hload : Loads P req.knownTimezone <;> simp [hempty, hintl, hload]
  | zip =>
    rw [Ts.answer, Go.said, Go.answer, Same]
    by_cases hts : Ts.isValidUSZip req.zip = true
    · rw [if_pos hts, if_pos hts, if_pos (Go.isValidUSZip_of_ts hts)]
      exact map_text_inj
    · rw [if_neg hts, if_neg hts]
      by_cases hgo : Go.isValidUSZip req.zip = true
      · simp [hgo, eq_comm]
      · simp [hgo]
  | override =>
    rw [Ts.answer, Go.said, Go.answer, Same, Option.map_bind]
    exact forall_number_iff P req fun n => map_text_inj
  | nxx =>
    rw [Ts.answer, Go.said, Go.answer, Same, Option.map_bind]
    exact forall_number_iff P req fun n => map_text_inj
  | npa =>
    rw [Ts.answer, Go.said, Go.answer, Same, Option.map_bind]
    refine forall_number_iff P req fun n => ?_
    rw [← find_loads_iff P, ← map_text_inj, Option.map_map]
    rfl
  | library =>
    rw [Ts.answer, Go.said, Go.answer, Same, Option.map_bind]
    refine forall_number_iff P req fun n => map_text_inj.trans ?_
    cases hzones : n.zones.head? with
    | none => simp [hzones]
    | some zone =>
      by_cases hintl : P.intlAccepts zone = true <;> by_cases hload : Loads P zone <;>
        simp [Option.filter, hzones, hintl, hload]
  | state => exact same_state_iff P tables tsCampaigns goCampaigns tsNow goNow req
  | campaign =>
    rw [Ts.answer, Go.said, Go.answer, Same]
    by_cases hid : req.campaignId = ""
    · simp [hid]
    · rw [if_neg hid, if_neg hid]
      exact map_text_inj.trans (by simp [hid])

/-- The resolvers agree exactly when every tier up to the first answer is the same in
both. -/
theorem resolvers_agree_iff {r : Go.Resolver loc}
    (h : Go.preload P tables goCampaigns = some r) :
    Agree (Ts.doResolve P (Ts.preload tables tsCampaigns) tsNow req) (Go.resolve P r goNow req) ↔
      WhileSilent (fun t => Ts.answer P tables tsCampaigns tsNow req t = none)
        (Same P tables tsCampaigns goCampaigns tsNow goNow req) Tier.order := by
  rw [agree_iff_verdict, Ts.doResolve_verdict, Go.resolve_verdict P h]
  rw [← WhileSilent.congr (same_iff P tables tsCampaigns goCampaigns tsNow goNow req)]
  rw [← firstAnswer_eq_iff (by decide)]
  exact ⟨fun heq => verdictOf_inj P heq, fun heq => by rw [heq]⟩

end Main

/-- A number of Atlanta, and the two zones that matter. -/
def atlanta : Platform Unit where
  parse phone :=
    if phone = "+14045551212" then
      some ⟨"4045551212".toList, by decide, .fixedOrMobile, ["America/New_York"]⟩
    else none
  intlAccepts zone := zone == "America/New_York" || zone == "America/Denver"
  loadLocation zone :=
    if zone = "America/New_York" ∨ zone = "America/Denver" then some () else none

def denverZip : Tables := ⟨[], [], [⟨"80202", "America/Denver"⟩]⟩

def movedLead (zip : String) : ResolveRequest := ⟨"+14045551212", "", zip, "", ""⟩

theorem movedLead_agree :
    ∃ r, Go.preload atlanta denverZip (fun _ => none) = some r ∧
      Agree (Ts.doResolve atlanta (Ts.preload denverZip fun _ => none) 0 (movedLead "80202"))
        (Go.resolve atlanta r 0 (movedLead "80202")) := by
  have hzip : Same atlanta denverZip (fun _ => none) (fun _ => none) 0 0 (movedLead "80202")
      .zip := by
    rw [Same, if_pos (by decide)]
    decide
  refine ⟨_, rfl, (resolvers_agree_iff atlanta denverZip (fun _ => none) _ 0 0 _ rfl).2 ?_⟩
  refine ⟨fun hknown => absurd rfl hknown, fun _ => ⟨hzip, fun hsilent => ?_⟩⟩
  exact absurd hsilent (by decide)

/-- A ZIP code with letters after the dash: the dialer reads the five digits before it,
the API takes it for no ZIP code. -/
theorem letters_after_dash_disagree :
    ∃ r, Go.preload atlanta denverZip (fun _ => none) = some r ∧
      ¬ Agree
        (Ts.doResolve atlanta (Ts.preload denverZip fun _ => none) 0 (movedLead "80202-abcd"))
        (Go.resolve atlanta r 0 (movedLead "80202-abcd")) := by
  refine ⟨_, rfl, ?_⟩
  intro h
  have hconf := h.2.1
  revert hconf
  decide

end Tz

end Vici2
