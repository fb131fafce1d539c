import Vici2.Runs
import Vici2.ScriptTokens

/-! The kept versions of a script. An update reads the script, and a transaction stores a copy of
what was read, drops all but the last ten copies and writes the script; updates of several
administrators interleave between the two. -/

namespace Vici2.Scripts

structure Script where
  name : String
  body : List Char
  campaignId : Option String
  active : Bool
  version : Nat
  vars : List String
  deriving DecidableEq, Repr

structure ScriptVersion where
  id : Nat
  version : Nat
  name : String
  body : List Char
  vars : List String
  deriving DecidableEq, Repr

structure ScriptUpdateInput where
  name : Option String
  body : Option (List Char)
  campaignId : Option (Option String)
  active : Option Bool
  deriving DecidableEq, Repr

structure Rows where
  script : Script
  versions : List ScriptVersion
  nextId : Nat
  deriving DecidableEq, Repr

def maxVersions : Nat := 10

def maxSmallInt : Nat := 32767

def bumpVersion (existing : Script) (input : ScriptUpdateInput) : Bool :=
  input.body.any (· ≠ existing.body) || input.name.any (· ≠ existing.name)

def byVersionDesc (versions : List ScriptVersion) : List ScriptVersion :=
  versions.mergeSort fun a b => b.version ≤ a.version

def saveVersion (existing : Script) (r : Rows) : Rows :=
  let versions :=
    ⟨r.nextId, existing.version, existing.name, existing.body, existing.vars⟩ :: r.versions
  let sorted := byVersionDesc versions
  let toDelete := (sorted.drop maxVersions).map ScriptVersion.id
  { r with
    versions :=
      if sorted.length > maxVersions then versions.filter fun v => v.id ∉ toDelete else versions
    nextId := r.nextId + 1 }

/-- The transaction of an update that has read `existing`. A second copy of one version and a
version that is out of range are errors, which roll it back. -/
def commit (sanitizeBody : List Char → List Char) (r : Rows) (existing : Script)
    (input : ScriptUpdateInput) : Option Rows :=
  let bump := bumpVersion existing input
  let safeBody :=
    match input.body with
    | some b => sanitizeBody b
    | none => existing.body
  let newVersion := if bump then existing.version + 1 else existing.version
  if bump ∧ existing.version ∈ r.versions.map ScriptVersion.version then none
  else if newVersion > maxSmallInt then none
  else
    some { (if bump then saveVersion existing r else r) with
      script :=
        { name := input.name.getD existing.name
          body := safeBody
          campaignId := input.campaignId.getD existing.campaignId
          active := input.active.getD existing.active
          version := newVersion
          vars := extractVariables safeBody } }

def createScript (sanitizeBody : List Char → List Char) (name : String) (body : List Char)
    (campaignId : Option String) (active : Bool) : Rows where
  script := ⟨name, sanitizeBody body, campaignId, active, 1, extractVariables (sanitizeBody body)⟩
  versions := []
  nextId := 1

def deleteScript (r : Rows) : Rows := { r with script := { r.script with active := false } }

def listScriptVersions (r : Rows) : List ScriptVersion :=
  (byVersionDesc r.versions).take maxVersions

/-- The rows, the updates between their read and their transaction, and everything that was
ever replaced under a new version, the latest first. -/
structure Desk (ι : Type) where
  rows : Rows
  pending : ι → Option (Script × ScriptUpdateInput)
  past : List (String × List Char)

inductive Op (ι : Type)
  | read (i : ι) (input : ScriptUpdateInput)
  | commit (i : ι)
  | delete

namespace Desk

variable {ι : Type} [DecidableEq ι] (sanitizeBody : List Char → List Char)

def step (s : Desk ι) : Op ι → Desk ι
  | .read i input => { s with pending := Function.update s.pending i (some (s.rows.script, input)) }
  | .commit i =>
    match s.pending i with
    | none => s
    | some (existing, input) =>
      match Scripts.commit sanitizeBody s.rows existing input with
      | none => { s with pending := Function.update s.pending i none }
      | some rows =>
        { rows := rows
          pending := Function.update s.pending i none
          past :=
            if bumpVersion existing input then
              (s.rows.script.name, s.rows.script.body) :: s.past
            else s.past }
  | .delete => { s with rows := deleteScript s.rows }

def start (r : Rows) : Desk ι := ⟨r, fun _ => none, []⟩

end Desk

/-- The members of a list, the latest first, with their positions from the other end. -/
def numbered {α : Type*} : List α → List (Nat × α)
  | [] => []
  | a :: l => (l.length + 1, a) :: numbered l

def ScriptVersion.content (v : ScriptVersion) : Nat × String × List Char :=
  (v.version, v.name, v.body)

/-- The version counts the replacements, and the listing is the last ten of what was replaced. -/
def Desk.History {ι : Type} (s : Desk ι) : Prop :=
  s.rows.script.version = s.past.length + 1 ∧
    (listScriptVersions s.rows).map ScriptVersion.content = (numbered s.past).take maxVersions

/-- The transaction is of an update that no other has passed since its read, or one that is
refused because the copy of the version it read is still kept. -/
def Desk.Unpassed {ι : Type} (s : Desk ι) : Op ι → Prop
  | .commit i => ∀ p ∈ s.pending i,
      p.1.version = s.rows.script.version ∨
        (bumpVersion p.1 p.2 = true ∧ s.rows.script.version ≤ p.1.version + maxVersions)
  | _ => True

instance {ι : Type} (s : Desk ι) : ∀ op, Decidable (s.Unpassed op)
  | .commit i => inferInstanceAs (Decidable (∀ p ∈ s.pending i, _ ∨ _))
  | .read _ _ => inferInstanceAs (Decidable True)
  | .delete => inferInstanceAs (Decidable True)

section Numbered

variable {α : Type*}

theorem mem_take_numbered {l : List α} {k n : Nat} :
    n ∈ ((numbered l).take k).map Prod.fst ↔ 1 ≤ n ∧ n ≤ l.length ∧ l.length < n + k := by
  induction l generalizing k with
  | nil =>
    simp [numbered]
    omega
  | cons a l ih =>
    cases k with
    | zero => simp
    | succ k =>
      rw [numbered, List.take_succ_cons, List.map_cons, List.mem_cons, ih, List.length_cons]
      omega

theorem le_of_mem_numbered {l : List α} {x : Nat × α} (h : x ∈ numbered l) : x.1 ≤ l.length := by
  induction l with
  | nil => cases h
  | cons a l ih =>
    rcases List.mem_cons.1 h with rfl | h
    · exact le_refl _
    · exact (ih h).trans (Nat.le_succ _)

theorem pairwise_numbered (l : List α) : (numbered l).Pairwise fun x y => y.1 < x.1 := by
  induction l with
  | nil => exact List.Pairwise.nil
  | cons a l ih =>
    exact List.pairwise_cons.2 ⟨fun y hy => Nat.lt_succ_of_le (le_of_mem_numbered hy), ih⟩

end Numbered

namespace Desk

variable {ι : Type} {sanitizeBody : List Char → List Char} {s : Desk ι}

structure Inv (sanitizeBody : List Char → List Char) (s : Desk ι) : Prop where
  version : s.rows.script.version = s.past.length + 1
  range : s.rows.script.version ≤ maxSmallInt
  versions : s.rows.versions.map ScriptVersion.content = (numbered s.past).take maxVersions
  ids : (s.rows.versions.map ScriptVersion.id).Nodup
  fresh : ∀ v ∈ s.rows.versions, v.id < s.rows.nextId
  clean : sanitizeBody s.rows.script.body = s.rows.script.body
  pending : ∀ i existing input, s.pending i = some (existing, input) →
    sanitizeBody existing.body = existing.body ∧ 1 ≤ existing.version ∧
      existing.version ≤ s.rows.script.version ∧
      (existing.version = s.rows.script.version →
        existing.name = s.rows.script.name ∧ existing.body = s.rows.script.body)

theorem sorted_of_content {versions : List ScriptVersion} {past : List (String × List Char)}
    (h : versions.map ScriptVersion.content = (numbered past).take maxVersions) :
    byVersionDesc versions = versions := by
  have hpair : (versions.map ScriptVersion.content).Pairwise fun x y => y.1 < x.1 := by
    rw [h]
    exact (pairwise_numbered past).sublist (List.take_sublist _ _)
  refine List.mergeSort_of_pairwise ((List.pairwise_map.1 hpair).imp fun hlt => ?_)
  exact decide_eq_true (le_of_lt hlt)

theorem length_le_of_content {versions : List ScriptVersion} {past : List (String × List Char)}
    (h : versions.map ScriptVersion.content = (numbered past).take maxVersions) :
    versions.length ≤ maxVersions := by
  have hlen := congrArg List.length h
  rw [List.length_map, List.length_take] at hlen
  omega

theorem Inv.history (h : s.Inv sanitizeBody) : s.History := by
  refine ⟨h.version, ?_⟩
  unfold listScriptVersions
  rw [sorted_of_content h.versions, List.take_of_length_le (length_le_of_content h.versions),
    h.versions]

theorem Inv.mem_versions_iff (h : s.Inv sanitizeBody) {n : Nat} :
    n ∈ s.rows.versions.map ScriptVersion.version ↔
      1 ≤ n ∧ n < s.rows.script.version ∧ s.rows.script.version ≤ n + maxVersions := by
  have hfst : s.rows.versions.map ScriptVersion.version =
      ((numbered s.past).take maxVersions).map Prod.fst := by
    rw [← h.versions, List.map_map]
    rfl
  rw [hfst, mem_take_numbered, h.version]
  omega

theorem filter_append_not_mem {kept gone : List ScriptVersion}
    (h : (kept.map ScriptVersion.id ++ gone.map ScriptVersion.id).Nodup) :
    (kept ++ gone).filter (fun v => v.id ∉ gone.map ScriptVersion.id) = kept := by
  have hdisjoint := List.disjoint_of_nodup_append h
  have hkept : kept.filter (fun v => v.id ∉ gone.map ScriptVersion.id) = kept := by
    refine List.filter_eq_self.2 fun v hv => decide_eq_true ?_
    exact List.disjoint_left.1 hdisjoint (List.mem_map_of_mem hv)
  have hgone : gone.filter (fun v => v.id ∉ gone.map ScriptVersion.id) = [] := by
    refine List.filter_eq_nil_iff.2 fun v hv => ?_
    simpa using ⟨v, hv, rfl⟩
  rw [List.filter_append, hkept, hgone, List.append_nil]

theorem filter_not_mem_drop {versions : List ScriptVersion}
    (h : (versions.map ScriptVersion.id).Nodup) (k : Nat) :
    versions.filter (fun v => v.id ∉ (versions.drop k).map ScriptVersion.id) =
      versions.take k := by
  have hsplit : (versions.take k).map ScriptVersion.id ++ (versions.drop k).map ScriptVersion.id =
      versions.map ScriptVersion.id := by
    rw [← List.map_append, List.take_append_drop]
  have hfilter := @filter_append_not_mem (versions.take k) (versions.drop k)
    (by rw [hsplit]; exact h)
  rw [List.take_append_drop] at hfilter
  exact hfilter

theorem Inv.saveVersion (h : s.Inv sanitizeBody) {existing : Script}
    (hv : existing.version = s.rows.script.version) :
    (saveVersion existing s.rows).versions =
      (⟨s.rows.nextId, existing.version, existing.name, existing.body, existing.vars⟩ ::
        s.rows.versions).take maxVersions := by
  let row : ScriptVersion :=
    ⟨s.rows.nextId, existing.version, existing.name, existing.body, existing.vars⟩
  have hsorted : byVersionDesc (row :: s.rows.versions) = row :: s.rows.versions := by
    have hpair : (s.rows.versions.map ScriptVersion.content).Pairwise fun x y => y.1 < x.1 := by
      rw [h.versions]
      exact (pairwise_numbered s.past).sublist (List.take_sublist _ _)
    refine List.mergeSort_of_pairwise (List.pairwise_cons.2 ⟨fun v hm => decide_eq_true ?_,
      (List.pairwise_map.1 hpair).imp fun hlt => decide_eq_true (le_of_lt hlt)⟩)
    have hlt := (h.mem_versions_iff.1 (List.mem_map_of_mem hm)).2.1
    show v.version ≤ existing.version
    omega
  have hids : ((row :: s.rows.versions).map ScriptVersion.id).Nodup := by
    refine List.nodup_cons.2 ⟨fun hm => ?_, h.ids⟩
    obtain ⟨v, hv, heq⟩ := List.mem_map.1 hm
    have hlt := h.fresh v hv
    have hid : v.id = s.rows.nextId := heq
    omega
  show (if (byVersionDesc (row :: s.rows.versions)).length > maxVersions then
      (row :: s.rows.versions).filter (fun v => v.id ∉
        ((byVersionDesc (row :: s.rows.versions)).drop maxVersions).map ScriptVersion.id)
    else row :: s.rows.versions) = _
  rw [hsorted]
  split_ifs with hlen
  · exact filter_not_mem_drop hids maxVersions
  · exact (List.take_of_length_le (Nat.not_lt.1 hlen)).symm

def safeBody (sanitizeBody : List Char → List Char) (existing : Script)
    (input : ScriptUpdateInput) : List Char :=
  match input.body with
  | some b => sanitizeBody b
  | none => existing.body

theorem commit_eq_some {r rows : Rows} {existing : Script} {input : ScriptUpdateInput}
    (h : Scripts.commit sanitizeBody r existing input = some rows) :
    rows.script.name = input.name.getD existing.name ∧
      rows.script.body = safeBody sanitizeBody existing input ∧
      rows.script.version =
        (if bumpVersion existing input then existing.version + 1 else existing.version) ∧
      rows.script.version ≤ maxSmallInt ∧
      rows.versions =
        (if bumpVersion existing input then (Scripts.saveVersion existing r).versions
          else r.versions) ∧
      rows.nextId = if bumpVersion existing input then r.nextId + 1 else r.nextId := by
  unfold Scripts.commit at h
  dsimp only at h
  cases hbump : bumpVersion existing input with
  | true =>
    simp only [hbump, if_true] at h
    split_ifs at h with hdup hrange
    rw [← Option.some.inj h]
    exact ⟨rfl, rfl, rfl, Nat.not_lt.1 hrange, rfl, rfl⟩
  | false =>
    simp only [hbump, Bool.false_eq_true, false_and, if_false] at h
    split_ifs at h with hrange
    rw [← Option.some.inj h]
    exact ⟨rfl, rfl, rfl, Nat.not_lt.1 hrange, rfl, rfl⟩

theorem kept_of_not_bump {r rows : Rows} {existing : Script} {input : ScriptUpdateInput}
    {name : String} {body : List Char} (hbump : bumpVersion existing input = false)
    (hename : existing.name = name) (hebody : existing.body = body)
    (hclean : sanitizeBody body = body)
    (hsome : Scripts.commit sanitizeBody r existing input = some rows) :
    rows.script.name = name ∧ rows.script.body = body ∧
      rows.script.version = existing.version ∧ rows.versions = r.versions := by
  obtain ⟨hname, hbody, hversion, -, hversions, -⟩ := commit_eq_some hsome
  rw [hbump, if_neg Bool.false_ne_true] at hversion hversions
  refine ⟨?_, ?_, hversion, hversions⟩
  · rw [hname]
    cases hn : input.name with
    | none => exact hename
    | some n =>
      have hsame : n = existing.name := by
        simpa [bumpVersion, hn] using (Bool.or_eq_false_iff.1 hbump).2
      show n = name
      rw [hsame, hename]
  · rw [hbody]
    unfold safeBody
    cases hb : input.body with
    | none => exact hebody
    | some b =>
      have hsame : b = existing.body := by
        simpa [bumpVersion, hb] using (Bool.or_eq_false_iff.1 hbump).1
      show sanitizeBody b = body
      rw [hsame, hebody]
      exact hclean

theorem commit_eq_none_iff {r : Rows} {existing : Script} {input : ScriptUpdateInput} :
    Scripts.commit sanitizeBody r existing input = none ↔
      (bumpVersion existing input = true ∧
        existing.version ∈ r.versions.map ScriptVersion.version) ∨
      (if bumpVersion existing input then existing.version + 1 else existing.version) >
        maxSmallInt := by
  unfold Scripts.commit
  dsimp only
  by_cases hdup : bumpVersion existing input = true ∧
      existing.version ∈ r.versions.map ScriptVersion.version
  · rw [if_pos hdup]
    exact iff_of_true rfl (Or.inl hdup)
  · rw [if_neg hdup, or_iff_right hdup]
    by_cases hrange : (if bumpVersion existing input = true then existing.version + 1
        else existing.version) > maxSmallInt
    · rw [if_pos hrange]
      exact iff_of_true rfl hrange
    · rw [if_neg hrange]
      exact iff_of_false (Option.some_ne_none _) hrange

theorem Inv.refused [DecidableEq ι] (h : s.Inv sanitizeBody) {i : ι} {existing : Script}
    {input : ScriptUpdateInput} (hp : s.pending i = some (existing, input))
    (hnone : Scripts.commit sanitizeBody s.rows existing input = none) :
    (s.step sanitizeBody (.commit i)).Inv sanitizeBody := by
  have hstep : s.step sanitizeBody (.commit i) =
      { s with pending := Function.update s.pending i none } := by
    simp only [step, hp, hnone]
  rw [hstep]
  refine ⟨h.version, h.range, h.versions, h.ids, h.fresh, h.clean, fun j e inp hj => ?_⟩
  rcases update_some_cases hj with hb | hf
  · cases hb
  · exact h.pending j e inp hf

theorem Inv.committed [DecidableEq ι] (hidem : ∀ b, sanitizeBody (sanitizeBody b) = sanitizeBody b)
    (h : s.Inv sanitizeBody) {i : ι} {existing : Script} {input : ScriptUpdateInput} {rows : Rows}
    (hp : s.pending i = some (existing, input)) (hv : existing.version = s.rows.script.version)
    (hsome : Scripts.commit sanitizeBody s.rows existing input = some rows) :
    (s.step sanitizeBody (.commit i)).Inv sanitizeBody := by
  have hstep : s.step sanitizeBody (.commit i) =
      { rows := rows
        pending := Function.update s.pending i none
        past :=
          if bumpVersion existing input then
            (s.rows.script.name, s.rows.script.body) :: s.past
          else s.past } := by
    simp only [step, hp, hsome]
  obtain ⟨hname, hbody, hversion, hrange, hversions, hnext⟩ := commit_eq_some hsome
  obtain ⟨-, -, -, hsame⟩ := h.pending i existing input hp
  obtain ⟨hename, hebody⟩ := hsame hv
  have hclean : sanitizeBody rows.script.body = rows.script.body := by
    rw [hbody]
    unfold safeBody
    cases input.body with
    | none =>
      dsimp only
      rw [hebody]
      exact h.clean
    | some b => exact hidem b
  rw [hstep]
  cases hbump : bumpVersion existing input with
  | true =>
    rw [hbump] at hversion hversions hnext
    rw [if_pos rfl] at hversion hversions hnext
    rw [h.saveVersion hv] at hversions
    refine ⟨?_, hrange, ?_, ?_, ?_, hclean, fun j e inp hj => ?_⟩
    · show rows.script.version = (_ :: s.past).length + 1
      rw [hversion, hv, h.version, List.length_cons]
    · show rows.versions.map _ = (numbered (_ :: s.past)).take maxVersions
      rw [hversions, List.map_take, List.map_cons, h.versions, numbered]
      have hcontent : ScriptVersion.content ⟨s.rows.nextId, existing.version, existing.name,
          existing.body, existing.vars⟩ =
          (s.past.length + 1, s.rows.script.name, s.rows.script.body) := by
        show (existing.version, existing.name, existing.body) = _
        rw [hv, h.version, hename, hebody]
      rw [hcontent]
      show _ :: ((numbered s.past).take 10).take 9 = _ :: (numbered s.past).take 9
      rw [List.take_take]
      rfl
    · show (rows.versions.map ScriptVersion.id).Nodup
      rw [hversions]
      refine List.Nodup.sublist ((List.take_sublist _ _).map _)
        (List.nodup_cons.2 ⟨fun hm => ?_, h.ids⟩)
      obtain ⟨v, hvm, heq⟩ := List.mem_map.1 hm
      have hlt := h.fresh v hvm
      have hid : v.id = s.rows.nextId := heq
      omega
    · intro v hvm
      rw [hnext]
      rw [hversions] at hvm
      rcases List.mem_cons.1 (List.mem_of_mem_take hvm) with rfl | hvm
      · exact Nat.lt_succ_self _
      · exact (h.fresh v hvm).trans (Nat.lt_succ_self _)
    · rcases update_some_cases hj with hb | hf
      · cases hb
      · obtain ⟨heclean, hone, hle, -⟩ := h.pending j e inp hf
        have hnew : rows.script.version = s.rows.script.version + 1 := by rw [hversion, hv]
        have hle' : e.version ≤ rows.script.version := by omega
        exact ⟨heclean, hone, hle', fun heq => by
          have heq' : e.version = rows.script.version := heq
          omega⟩
  | false =>
    obtain ⟨hname', hbody', -, -⟩ := kept_of_not_bump hbump hename hebody h.clean hsome
    rw [hbump] at hversion hversions hnext
    rw [if_neg Bool.false_ne_true] at hversion hversions hnext
    have hversion' : rows.script.version = s.rows.script.version := by rw [hversion, hv]
    refine ⟨?_, hrange, ?_, ?_, ?_, hclean, fun j e inp hj => ?_⟩
    · show rows.script.version = s.past.length + 1
      rw [hversion', h.version]
    · show rows.versions.map _ = (numbered s.past).take maxVersions
      rw [hversions, h.versions]
    · show (rows.versions.map ScriptVersion.id).Nodup
      rw [hversions]
      exact h.ids
    · show ∀ v ∈ rows.versions, v.id < rows.nextId
      rw [hversions, hnext]
      exact h.fresh
    · rcases update_some_cases hj with hb | hf
      · cases hb
      · show sanitizeBody e.body = e.body ∧ 1 ≤ e.version ∧
          e.version ≤ rows.script.version ∧ (e.version = rows.script.version →
            e.name = rows.script.name ∧ e.body = rows.script.body)
        rw [hversion', hname', hbody']
        exact h.pending j e inp hf

section Runs

variable [DecidableEq ι]

theorem Inv.read (h : s.Inv sanitizeBody) (i : ι) (input : ScriptUpdateInput) :
    (s.step sanitizeBody (.read i input)).Inv sanitizeBody := by
  refine ⟨h.version, h.range, h.versions, h.ids, h.fresh, h.clean, fun j e inp hj => ?_⟩
  rcases update_some_cases hj with hb | hf
  · have he : s.rows.script = e := congrArg Prod.fst (Option.some.inj hb)
    rw [← he]
    exact ⟨h.clean, by rw [h.version]; exact Nat.le_add_left 1 _, le_refl _, fun _ => ⟨rfl, rfl⟩⟩
  · exact h.pending j e inp hf

/-- An update that was passed, and whose copy is not kept any more or was not to be made, takes
the version back. -/
theorem Inv.passed (h : s.Inv sanitizeBody) {i : ι} {existing : Script}
    {input : ScriptUpdateInput} (hp : s.pending i = some (existing, input))
    (hlt : existing.version < s.rows.script.version)
    (hkept : ¬ (bumpVersion existing input = true ∧
      s.rows.script.version ≤ existing.version + maxVersions)) :
    ∃ rows, Scripts.commit sanitizeBody s.rows existing input = some rows ∧
      rows.script.version ≤ s.rows.script.version ∧
      (s.step sanitizeBody (.commit i)).rows = rows ∧
      (s.step sanitizeBody (.commit i)).past =
        if bumpVersion existing input then (s.rows.script.name, s.rows.script.body) :: s.past
        else s.past := by
  have hrange := h.range
  cases hcommit : Scripts.commit sanitizeBody s.rows existing input with
  | none =>
    rcases commit_eq_none_iff.1 hcommit with ⟨hbump, hdup⟩ | hover
    · exact absurd ⟨hbump, (h.mem_versions_iff.1 hdup).2.2⟩ hkept
    · split_ifs at hover <;> omega
  | some rows =>
    obtain ⟨-, -, hversion, -⟩ := commit_eq_some hcommit
    refine ⟨rows, rfl, ?_, ?_, ?_⟩
    · split_ifs at hversion <;> omega
    · simp only [step, hp, hcommit]
    · simp only [step, hp, hcommit]

theorem Inv.step (hidem : ∀ b, sanitizeBody (sanitizeBody b) = sanitizeBody b)
    (h : s.Inv sanitizeBody) {op : Op ι} (hop : s.Unpassed op) :
    (s.step sanitizeBody op).Inv sanitizeBody := by
  cases op with
  | read i input => exact h.read i input
  | delete => exact ⟨h.version, h.range, h.versions, h.ids, h.fresh, h.clean, h.pending⟩
  | commit i =>
    cases hp : s.pending i with
    | none =>
      have hstep : s.step sanitizeBody (.commit i) = s := by simp only [Desk.step, hp]
      rw [hstep]
      exact h
    | some p =>
      obtain ⟨existing, input⟩ := p
      cases hcommit : Scripts.commit sanitizeBody s.rows existing input with
      | none => exact h.refused hp hcommit
      | some rows =>
        rcases hop _ hp with hv | ⟨hbump, hle⟩
        · exact h.committed hidem hp hv hcommit
        · obtain ⟨-, hone, hold, -⟩ := h.pending i existing input hp
          rcases hold.eq_or_lt with hv | hlt
          · exact h.committed hidem hp hv hcommit
          · have hdup := h.mem_versions_iff.2 ⟨hone, hlt, hle⟩
            have hnone := (@commit_eq_none_iff sanitizeBody s.rows existing input).2
              (Or.inl ⟨hbump, hdup⟩)
            rw [hnone] at hcommit
            cases hcommit

theorem history_step_iff (hidem : ∀ b, sanitizeBody (sanitizeBody b) = sanitizeBody b)
    (h : s.Inv sanitizeBody) (op : Op ι) :
    (s.step sanitizeBody op).History ↔ s.Unpassed op := by
  refine ⟨fun hhist => ?_, fun hop => (h.step hidem hop).history⟩
  cases op with
  | read i input => trivial
  | delete => trivial
  | commit i =>
    rintro ⟨existing, input⟩ hp
    by_contra hnot
    rw [not_or] at hnot
    obtain ⟨hne, hkept⟩ := hnot
    have hlt := lt_of_le_of_ne (h.pending i existing input hp).2.2.1 hne
    obtain ⟨rows, hcommit, hle, hrows, hpast⟩ := h.passed hp hlt hkept
    obtain ⟨-, -, hversion, -⟩ := commit_eq_some hcommit
    have hhist' := hhist.1
    rw [hrows, hpast] at hhist'
    have hcount := h.version
    split_ifs at hhist' hversion
    · rw [List.length_cons] at hhist'
      omega
    · omega

omit [DecidableEq ι] in
theorem inv_start (hidem : ∀ b, sanitizeBody (sanitizeBody b) = sanitizeBody b) (name : String)
    (body : List Char) (campaignId : Option String) (active : Bool) :
    (start (createScript sanitizeBody name body campaignId active) : Desk ι).Inv sanitizeBody where
  version := rfl
  range := by show 1 ≤ maxSmallInt; decide
  versions := rfl
  ids := List.nodup_nil
  fresh v hv := by cases hv
  clean := hidem body
  pending i e inp h := by cases h

/-- The kept versions are the last ten replaced ones throughout a run exactly when no update that
keeps name and body, and none that is more than ten versions late, was passed between its read and
its transaction by another that replaced the version. -/
theorem history_iff (hidem : ∀ b, sanitizeBody (sanitizeBody b) = sanitizeBody b) (name : String)
    (body : List Char) (campaignId : Option String) (active : Bool) (l : List (Op ι)) :
    Always (Desk.step sanitizeBody) History
        (start (createScript sanitizeBody name body campaignId active)) l ↔
      EachStep (Desk.step sanitizeBody) Unpassed
        (start (createScript sanitizeBody name body campaignId active)) l :=
  have hstart := @inv_start ι sanitizeBody hidem name body campaignId active
  always_iff_eachStep (I := fun s : Desk ι => s.Inv sanitizeBody)
    (fun _ op h _ hhist => h.step hidem ((history_step_iff hidem h op).1 hhist))
    (fun _ op h _ => history_step_iff hidem h op) l hstart hstart.history

def passedToggle : List (Op Bool) :=
  [.read true ⟨none, none, none, some false⟩, .read false ⟨none, some ['b'], none, none⟩,
    .commit false, .commit true]

theorem passedToggle_history :
    ¬ Always (Desk.step id) History
      (start (createScript id "intro" ['a'] none true)) passedToggle := by
  intro hhist
  have hrun := (history_iff (fun _ => rfl) "intro" ['a'] none true passedToggle).1 hhist
  revert hrun
  decide

/-- A copy of the version that the script has now is kept already. -/
structure Jammed (sanitizeBody : List Char → List Char) (s : Desk ι) : Prop where
  kept : s.rows.script.version ∈ s.rows.versions.map ScriptVersion.version
  clean : sanitizeBody s.rows.script.body = s.rows.script.body

def shown (s : Desk ι) : String × List Char × Nat :=
  (s.rows.script.name, s.rows.script.body, s.rows.script.version)

/-- The transaction is of an update that read the script as it is. -/
def Serial (s : Desk ι) : Op ι → Prop
  | .commit i => ∀ p ∈ s.pending i, (p.1.name, p.1.body, p.1.version) = s.shown
  | _ => True

instance (s : Desk ι) : ∀ op, Decidable (s.Serial op)
  | .commit i => inferInstanceAs (Decidable (∀ p ∈ s.pending i, _))
  | .read _ _ => inferInstanceAs (Decidable True)
  | .delete => inferInstanceAs (Decidable True)

theorem Jammed.step (h : s.Jammed sanitizeBody) {op : Op ι} (hop : s.Serial op) :
    (s.step sanitizeBody op).Jammed sanitizeBody ∧ (s.step sanitizeBody op).shown = s.shown := by
  cases op with
  | read i input => exact ⟨⟨h.kept, h.clean⟩, rfl⟩
  | delete => exact ⟨⟨h.kept, h.clean⟩, rfl⟩
  | commit i =>
    cases hp : s.pending i with
    | none =>
      have hstep : s.step sanitizeBody (.commit i) = s := by simp only [Desk.step, hp]
      rw [hstep]
      exact ⟨h, rfl⟩
    | some p =>
      obtain ⟨existing, input⟩ := p
      have hread := hop _ hp
      have hename : existing.name = s.rows.script.name := congrArg Prod.fst hread
      have hebody : existing.body = s.rows.script.body := congrArg (fun q => q.2.1) hread
      have heversion : existing.version = s.rows.script.version := congrArg (fun q => q.2.2) hread
      cases hcommit : Scripts.commit sanitizeBody s.rows existing input with
      | none =>
        have hrows : (s.step sanitizeBody (.commit i)).rows = s.rows := by
          simp only [Desk.step, hp, hcommit]
        unfold shown
        rw [hrows]
        exact ⟨⟨by rw [hrows]; exact h.kept, by rw [hrows]; exact h.clean⟩, rfl⟩
      | some rows =>
        have hbump : bumpVersion existing input = false := by
          rw [← Bool.not_eq_true]
          intro hbump
          have hnone := (@commit_eq_none_iff sanitizeBody s.rows existing input).2
            (Or.inl ⟨hbump, by rw [heversion]; exact h.kept⟩)
          rw [hnone] at hcommit
          cases hcommit
        obtain ⟨hname, hbody, hversion, hversions⟩ :=
          kept_of_not_bump hbump hename hebody h.clean hcommit
        rw [heversion] at hversion
        have hrows : (s.step sanitizeBody (.commit i)).rows = rows := by
          simp only [Desk.step, hp, hcommit]
        unfold shown
        rw [hrows, hname, hbody, hversion]
        refine ⟨⟨?_, ?_⟩, rfl⟩
        · rw [hrows, hversions, hversion]
          exact h.kept
        · rw [hrows, hbody]
          exact h.clean

theorem Inv.jammed_of_passed (h : s.Inv sanitizeBody) {i : ι} {existing : Script}
    {input : ScriptUpdateInput} (hp : s.pending i = some (existing, input))
    (hbump : bumpVersion existing input = false)
    (hlt : existing.version < s.rows.script.version)
    (hle : s.rows.script.version ≤ existing.version + maxVersions) :
    (s.step sanitizeBody (.commit i)).Jammed sanitizeBody ∧
      (s.step sanitizeBody (.commit i)).shown =
        (existing.name, existing.body, existing.version) := by
  obtain ⟨rows, hcommit, -, hrows, -⟩ := h.passed hp hlt fun hb => by
    rw [hbump] at hb
    cases hb.1
  obtain ⟨heclean, hone, -, -⟩ := h.pending i existing input hp
  obtain ⟨hname, hbody, hversion, hversions⟩ :=
    kept_of_not_bump hbump rfl rfl heclean hcommit
  unfold shown
  rw [hrows, hname, hbody, hversion]
  refine ⟨⟨?_, ?_⟩, rfl⟩
  · rw [hrows, hversions, hversion]
    exact h.mem_versions_iff.2 ⟨hone, hlt, hle⟩
  · rw [hrows, hbody]
    exact heclean

/-- A switch that was passed by up to ten edits takes the script back, and no edit after it, one
at a time, ever changes its name, body or version again. -/
theorem stuck_after_passed (hidem : ∀ b, sanitizeBody (sanitizeBody b) = sanitizeBody b)
    (name : String) (body : List Char) (campaignId : Option String) (active : Bool)
    (l : List (Op ι)) (hl : EachStep (Desk.step sanitizeBody) Unpassed
      (start (createScript sanitizeBody name body campaignId active)) l)
    {i : ι} {existing : Script} {input : ScriptUpdateInput} {s : Desk ι}
    (hs : s = l.foldl (Desk.step sanitizeBody)
      (start (createScript sanitizeBody name body campaignId active)))
    (hp : s.pending i = some (existing, input)) (hbump : bumpVersion existing input = false)
    (hlt : existing.version < s.rows.script.version)
    (hle : s.rows.script.version ≤ existing.version + maxVersions) (l' : List (Op ι))
    (hl' : EachStep (Desk.step sanitizeBody) Serial (s.step sanitizeBody (.commit i)) l') :
    (l'.foldl (Desk.step sanitizeBody) (s.step sanitizeBody (.commit i))).shown =
      (existing.name, existing.body, existing.version) := by
  have hinv : s.Inv sanitizeBody := by
    rw [hs]
    exact (always_of_eachStep (I := fun s : Desk ι => s.Inv sanitizeBody)
      (fun s op h hop => h.step hidem hop) (inv_start hidem name body campaignId active) hl).last
  obtain ⟨hjam, hshown⟩ := hinv.jammed_of_passed hp hbump hlt hle
  have hrun := (always_of_eachStep
    (I := fun t : Desk ι => t.Jammed sanitizeBody ∧
      t.shown = (existing.name, existing.body, existing.version))
    (fun t op ht hop => ⟨(ht.1.step hop).1, (ht.1.step hop).2.trans ht.2⟩) ⟨hjam, hshown⟩ hl').last
  exact hrun.2

theorem passedToggle_stuck :
    ([Op.read false ⟨some "new", some ['c'], none, none⟩, .commit false].foldl (Desk.step id)
      ((((passedToggle.take 3).foldl (Desk.step id)
        (start (createScript id "intro" ['a'] none true))).step id (.commit true)))).shown =
      ("intro", ['a'], 1) :=
  @stuck_after_passed Bool id _ (fun _ => rfl) "intro" ['a'] none true (passedToggle.take 3)
    (by decide) true ⟨"intro", ['a'], none, true, 1, extractVariables ['a']⟩
    ⟨none, none, none, some false⟩ _ rfl rfl rfl (by decide) (by decide) _ (by decide)

end Runs

end Desk

end Vici2.Scripts
