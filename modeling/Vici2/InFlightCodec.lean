import Vici2.ParseInt

/-! The in-flight entry of a claim, an instance and a time joined by a colon: which entries the
janitor reads back as they were written, and what it makes of the others. -/

namespace Vici2

namespace Picker

open Hopper (HopperStore)

/-- What `claim_lead_from_hopper.v1.lua` stores. -/
def inFlightEntry (instanceID : String) (nowMs : Int) : String :=
  instanceID ++ ":" ++ toString nowMs

/-- The millisecond of the zero time, which stands for an entry that cannot be read. -/
def zeroTimeMs : Int := -62135596800000

/-- The entry gives back its time, and the sweep leaves it alone while it is no older than the
threshold. -/
def ReadsBack (instanceID : String) (nowMs : Int) : Prop :=
  parseInFlightEntry (inFlightEntry instanceID nowMs) = unixMilli nowMs ∧
    ∀ (s : HopperStore) (leadID : Int) (now : Instant),
      s.inFlight leadID = some (inFlightEntry instanceID nowMs) →
        now.sub (unixMilli nowMs) ≤ orphanAgeThreshold → sweepEntry now s leadID = s

theorem claim_stores_entry {s s' : HopperStore} {ttlSec leadID nowMs : Int} {instanceID : String}
    (h : Hopper.claimLeadFromHopper s ttlSec instanceID nowMs = (some leadID, s')) :
    s'.inFlight leadID = some (inFlightEntry instanceID nowMs) := by
  rcases Hopper.claimLeadFromHopper_cases s ttlSec instanceID nowMs with hnone | hsome
  · rw [h] at hnone
    exact absurd hnone.1 (by simp)
  · obtain ⟨lead, rest, -, -, -, hclaim⟩ := hsome
    rw [h] at hclaim
    obtain ⟨hlead, rfl⟩ := Prod.mk.inj hclaim
    obtain rfl := Option.some.inj hlead
    exact Function.update_self _ _ _

theorem unixMilli_eq_zero {nowMs : Int} : unixMilli nowMs = 0 ↔ nowMs = zeroTimeMs := by
  constructor
  · intro h
    have hsum : (62135596800 * 1000000000 + nowMs * 1000000 : Int) = 0 := h
    unfold zeroTimeMs
    omega
  · rintro rfl
    rfl

theorem dropWhile_separator {l : List Char} {sep : Char} (h : sep ∉ l) (rest : List Char) :
    (l ++ sep :: rest).dropWhile (· ≠ sep) = sep :: rest := by
  have hl : ∀ c ∈ l, decide (c ≠ sep) = true := by
    intro c hc
    apply decide_eq_true
    rintro rfl
    exact h hc
  rw [List.dropWhile_append_of_pos hl]
  simp

theorem inFlightEntry_toList (instanceID : String) (nowMs : Int) :
    (inFlightEntry instanceID nowMs).toList =
      instanceID.toList ++ ':' :: (toString nowMs).toList := by
  simp [inFlightEntry]

/-- Without a colon in the instance, what follows the first colon is the time. -/
theorem parse_of_plain {instanceID : String} (h : ':' ∉ instanceID.toList) (nowMs : Int) :
    parseInFlightEntry (inFlightEntry instanceID nowMs) =
      if InInt64 nowMs then unixMilli nowMs else 0 := by
  unfold parseInFlightEntry
  rw [inFlightEntry_toList, dropWhile_separator h]
  dsimp only
  rw [parseInt64_text, Option.filter_some]
  by_cases hn : InInt64 nowMs
  · rw [if_pos (decide_eq_true hn), if_pos hn]
  · rw [if_neg (by simpa using hn), if_neg hn]

/-- A colon in the instance leaves another one in what is taken for the time. -/
theorem parse_of_colon {instanceID : String} (h : ':' ∈ instanceID.toList) (nowMs : Int) :
    parseInFlightEntry (inFlightEntry instanceID nowMs) = 0 := by
  obtain ⟨before, after, hid, hbefore⟩ := List.eq_append_cons_of_mem h
  have htext : (inFlightEntry instanceID nowMs).toList =
      before ++ ':' :: (after ++ ':' :: (toString nowMs).toList) := by
    rw [inFlightEntry_toList, hid, List.append_assoc, List.cons_append]
  have hcolon : ':' ∈ after ++ ':' :: (toString nowMs).toList :=
    List.mem_append_right after List.mem_cons_self
  unfold parseInFlightEntry
  rw [htext, dropWhile_separator hbefore]
  dsimp only
  rw [parseInt64_eq_none (by decide) (by decide) (by decide) hcolon]

theorem parse_eq_iff (instanceID : String) (nowMs : Int) :
    parseInFlightEntry (inFlightEntry instanceID nowMs) = unixMilli nowMs ↔
      (':' ∉ instanceID.toList ∧ InInt64 nowMs) ∨ nowMs = zeroTimeMs := by
  by_cases hcolon : ':' ∈ instanceID.toList
  · rw [parse_of_colon hcolon, eq_comm, unixMilli_eq_zero]
    exact ⟨Or.inr, fun h => h.resolve_left fun hplain => hplain.1 hcolon⟩
  · rw [parse_of_plain hcolon]
    by_cases hn : InInt64 nowMs
    · rw [if_pos hn]
      exact iff_of_true rfl (Or.inl ⟨hcolon, hn⟩)
    · rw [if_neg hn, eq_comm, unixMilli_eq_zero]
      exact ⟨Or.inr, fun h => h.resolve_left fun hplain => hn hplain.2⟩

theorem sweepEntry_of_read {instanceID : String} {nowMs : Int}
    (h : parseInFlightEntry (inFlightEntry instanceID nowMs) = unixMilli nowMs) {s : HopperStore}
    {leadID : Int} {now : Instant}
    (hflight : s.inFlight leadID = some (inFlightEntry instanceID nowMs))
    (hage : now.sub (unixMilli nowMs) ≤ orphanAgeThreshold) : sweepEntry now s leadID = s := by
  have hover : overdue now (inFlightEntry instanceID nowMs) = false := by
    unfold overdue
    rw [h]
    exact decide_eq_false (not_lt.2 hage)
  unfold sweepEntry
  rw [hflight]
  simp [hover]

/-- A claim stores its entry, and exactly the entries whose instance has no colon, and whose time
fits in 64 bits, are read back; the zero time is what any other is read as. -/
theorem inFlightEntry_reads_back_iff (instanceID : String) (nowMs : Int) :
    (∀ (s s' : HopperStore) (ttlSec leadID : Int),
      Hopper.claimLeadFromHopper s ttlSec instanceID nowMs = (some leadID, s') →
        s'.inFlight leadID = some (inFlightEntry instanceID nowMs)) ∧
    (ReadsBack instanceID nowMs ↔
      (':' ∉ instanceID.toList ∧ InInt64 nowMs) ∨ nowMs = zeroTimeMs) := by
  refine ⟨fun s s' ttlSec leadID h => claim_stores_entry h, ?_⟩
  rw [← parse_eq_iff]
  exact ⟨fun h => h.1, fun h => ⟨h, fun s leadID now hf hage => sweepEntry_of_read h hf hage⟩⟩

/-- A claim one second old by `10.0.0.1:8080` is taken for an orphan. -/
theorem colon_in_instance_orphans : ¬ ∀ (instanceID : String) (nowMs : Int), InInt64 nowMs →
    ReadsBack instanceID nowMs := by
  intro h
  have hparse := (h "10.0.0.1:8080" 1000 (by decide)).1
  revert hparse
  decide +kernel

end Picker

end Vici2
