import Mathlib.Data.List.TakeWhile
import Mathlib.Tactic.IntervalCases
import Vici2.FederalDelta
import Vici2.Runs

/-! Patching a lead under its version. The transaction of a PATCH reads the row, compares the
version and updates the row by its key alone; transactions of several writers interleave between
the read and the update. -/

namespace Vici2

namespace Leads

open Dnc (jsSpace)

/-- A key of a patch body, under the name of its column, and `modify_at`. -/
inductive Column
  | modifyAt | phoneE164 | phoneAlt | phoneAlt2 | countryCode | firstName | middleInitial
  | lastName | address1 | address2 | postalCode | dateOfBirth | ownerUserId | vendorLeadCode
  | sourceId | customData | title | city | state | email | gender | comments | rank
  deriving DecidableEq, Repr

/-- An object of JSON, its members in the order in which it shows them. -/
abbrev Members (J : Type) := List (String × J)

inductive Value (J : Type)
  | null
  | text (s : List Char)
  | int (n : Int)
  | bigint (n : Nat)
  | day (s : List Char)
  | instant (t : Nat)
  | object (o : Members J)
  deriving DecidableEq, Repr

namespace Value

variable {J : Type}

def members : Value J → Members J
  | object o => o
  | _ => []

def get (v : Value J) (key : String) : Option J := v.members.lookup key

end Value

/-- What `LeadPatchSchema` leaves under a key. -/
def accepts {J : Type} : Column → Value J → Bool
  | .modifyAt, _ => false
  | .phoneE164, .text _ => true
  | .countryCode, .text _ => true
  | .gender, .text _ => true
  | .rank, .int _ => true
  | .ownerUserId, .null => true
  | .ownerUserId, .bigint n => 0 < n
  | .customData, .object _ => true
  | .phoneE164, _ => false
  | .countryCode, _ => false
  | .gender, _ => false
  | .rank, _ => false
  | .ownerUserId, _ => false
  | .customData, _ => false
  | _, .null => true
  | _, .text _ => true
  | _, _ => false

structure LeadPatch (J : Type) where
  version : Option Nat
  fields : Column → Option (Value J)
  parsed : ∀ k, (fields k).all (accepts k) = true

/-- `deletedAt` is the time of a soft delete. The columns that no writer of a version touches
are left out. -/
structure LeadRow (J : Type) where
  version : Nat
  deletedAt : Option Nat
  column : Column → Value J

/-- What the transaction has from outside: the phone numbers that the library parses, and how
the JSON column hands back an object. -/
structure Outside (J : Type) where
  parsePhoneNumber : List Char → List Char → Option (List Char × Bool)
  column : Members J → Members J

section Version

def parseIntTen (s : List Char) : Option Int :=
  match s.dropWhile jsSpace with
  | '-' :: rest => (number rest).map fun n => -(n : Int)
  | '+' :: rest => (number rest).map fun n => (n : Int)
  | rest => (number rest).map fun n => (n : Int)
where
  number (rest : List Char) : Option Nat :=
    let ds := rest.takeWhile Char.isDigit
    if ds = [] then none else some (Nat.ofDigitChars 10 ds 0)

def parseVersion : Option (List Char) → Option Int
  | none => none
  | some [] => none
  | some raw =>
    let weak :=
      match raw with
      | 'W' :: '/' :: rest => rest
      | raw => raw
    parseIntTen (weak.filter (· ≠ '"'))

def etagText (version : Nat) : List Char := '"' :: (Nat.toDigits 10 version ++ ['"'])

theorem jsSpace_of_isDigit {c : Char} (h : c.isDigit = true) : jsSpace c = false := by
  obtain ⟨hlow, hhigh⟩ : 48 ≤ c.toNat ∧ c.toNat ≤ 57 := Char.isDigit_iff_toNat.1 h
  rw [← Char.ofNat_toNat c]
  generalize c.toNat = n at hlow hhigh
  interval_cases n <;> decide

theorem parseIntTen_digits (n : Nat) : parseIntTen (Nat.toDigits 10 n) = some (n : Int) := by
  have hdigit : ∀ c ∈ Nat.toDigits 10 n, c.isDigit = true :=
    fun c hc => Nat.isDigit_of_mem_toDigits (by decide) (by decide) hc
  have hnumber : parseIntTen.number (Nat.toDigits 10 n) = some n := by
    have htake : (Nat.toDigits 10 n).takeWhile Char.isDigit = Nat.toDigits 10 n :=
      List.takeWhile_eq_self_iff.2 hdigit
    rw [parseIntTen.number, htake, if_neg Nat.toDigits_ne_nil, Nat.ofDigitChars_ten_toDigits]
  cases hd : Nat.toDigits 10 n with
  | nil => exact absurd hd Nat.toDigits_ne_nil
  | cons c ds =>
    have hc : c.isDigit = true := hdigit c (by rw [hd]; exact List.mem_cons_self)
    have hspace : jsSpace c = false := jsSpace_of_isDigit hc
    rw [hd] at hnumber
    unfold parseIntTen
    rw [List.dropWhile_cons_of_neg (by simp [hspace])]
    split
    · next heq =>
      obtain rfl := (List.cons.inj heq).1
      cases hc
    · next heq =>
      obtain rfl := (List.cons.inj heq).1
      cases hc
    · rw [hnumber]
      rfl

/-- An answer's `ETag` names its version when it comes back as `If-Match`. -/
theorem parseVersion_etagText (n : Nat) : parseVersion (some (etagText n)) = some (n : Int) := by
  have hfilter : (Nat.toDigits 10 n).filter (· ≠ '"') = Nat.toDigits 10 n := by
    refine List.filter_eq_self.2 fun c hc => decide_eq_true ?_
    rintro rfl
    exact absurd (Nat.isDigit_of_mem_toDigits (by decide) (by decide) hc) (by decide)
  have hquote : (etagText n).filter (· ≠ '"') = Nat.toDigits 10 n := by
    rw [etagText, List.filter_cons_of_neg (by simp), List.filter_append, hfilter]
    simp
  rw [← parseIntTen_digits, ← hquote]
  rfl

end Version

structure PatchRequest (J : Type) where
  ifMatch : Option (List Char)
  body : LeadPatch J

def expectedVersion {J : Type} (req : PatchRequest J) : Option Int :=
  (parseVersion req.ifMatch).or (req.body.version.map fun v => (v : Int))

inductive PatchReply (J : Type)
  | ok (etag : Nat) (lead : LeadRow J)
  | invalidPhone (message : String)
  | notFound
  | stale (expected : Int) (actual : Nat)
  | error

section Patch

variable {J : Type} [DecidableEq J] (env : Outside J)

def invalidPhoneText (raw : List Char) : String :=
  "Invalid phone number: \"" ++ String.ofList raw ++ "\""

/-- `none` is an `InvalidPhoneError`. -/
def normalizePhone (raw country : List Char) : Option (List Char × Bool) :=
  if raw.all jsSpace then none else env.parsePhoneNumber raw country

def strictNormalizePhone (raw country : List Char) : Option (List Char) :=
  (normalizePhone env raw country).bind fun r => if r.2 then some r.1 else none

/-- The number that a request is refused for. Those under the other two keys never are. -/
def refusedPhone (patch : LeadPatch J) : Option (List Char) :=
  let country :=
    match patch.fields .countryCode with
    | some (.text c) => c
    | _ => ['U', 'S']
  match patch.fields .phoneE164 with
  | some (.text raw) =>
    if raw ≠ [] ∧ strictNormalizePhone env raw country = none then some raw else none
  | _ => none

def fieldMap : List Column :=
  [.phoneE164, .phoneAlt, .phoneAlt2, .countryCode, .firstName, .middleInitial, .lastName,
    .address1, .address2, .postalCode, .dateOfBirth, .ownerUserId, .vendorLeadCode, .sourceId,
    .customData]

def passthrough : List Column := [.title, .city, .state, .email, .gender, .comments, .rank]

/-- The object that a spread of two gives. -/
def spread (a b : Members J) : Members J :=
  a.map (fun p => (p.1, (b.lookup p.1).getD p.2)) ++ b.filter fun p => a.lookup p.1 = none

def mapped (before : LeadRow J) : Column → Value J → Value J
  | .dateOfBirth, .text (c :: s) => .day (c :: s)
  | .customData, v => .object (spread (before.column .customData).members v.members)
  | _, v => v

/-- The numbers go in as they came, not as they were normalised. -/
def mappedData (patch : LeadPatch J) (before : LeadRow J) (now : Nat) : List (Column × Value J) :=
  (.modifyAt, .instant now) :: (fieldMap ++ passthrough).filterMap fun k =>
    ((patch.fields k).map (mapped before k)).map fun v => (k, v)

def stored : Value J → Value J
  | .object o => .object (env.column o)
  | v => v

def LeadRow.update (lead : LeadRow J) (data : List (Column × Value J)) : LeadRow J where
  version := lead.version + 1
  deletedAt := lead.deletedAt
  column := data.foldl (fun column p => Function.update column p.1 (stored env p.2)) lead.column

/-- `JSON.stringify` throws on a BigInt. -/
def stringify : Value J → Option (Value J)
  | .bigint _ => none
  | v => some v

abbrev Changes (J : Type) := List (Column × Value J × Value J)

def diffLeadChanges (before after : LeadRow J) : List Column → Option (Changes J)
  | [] => some []
  | key :: keys => do
    let oldVal ← stringify (before.column key)
    let newVal ← stringify (after.column key)
    let rest ← diffLeadChanges before after keys
    return if oldVal = newVal then rest else (key, oldVal, newVal) :: rest

end Patch

/-- A request whose transaction has read the lead; `seen` counts the commits before it. -/
structure Attempt (J : Type) where
  req : PatchRequest J
  before : LeadRow J
  seen : Nat

inductive Phase (J : Type)
  | idle
  | checked (a : Attempt J)
  | answered (req : PatchRequest J) (r : PatchReply J)

/-- What the writers other than a PATCH put into a row. -/
structure OtherWrite (J : Type) where
  deletedAt : Option Nat
  column : Column → Value J

inductive Commit (ι J : Type)
  | patch (i : ι) (a : Attempt J) (now : Nat) (changes : Changes J)
  | other (w : OtherWrite J)

/-- The row of a lead, the requests on it and its commits, the first one first. -/
structure LeadDesk (ι J : Type) where
  lead : LeadRow J
  calls : ι → Phase J
  trail : List (Commit ι J)

inductive LeadEvent (ι J : Type)
  | read (i : ι) (req : PatchRequest J)
  | write (i : ι) (now : Nat)
  | fail (i : ι)
  | delete (now : Nat)
  | other (w : OtherWrite J)

def LeadEvent.otherWrite {ι J : Type} (lead : LeadRow J) : LeadEvent ι J → Option (OtherWrite J)
  | .delete now => some ⟨some now, Function.update lead.column .modifyAt (.instant now)⟩
  | .other w => some w
  | _ => none

def maxVersion : Nat := 32767

def LeadRow.written {J : Type} (lead : LeadRow J) (w : OtherWrite J) : LeadRow J where
  version := lead.version
  deletedAt := w.deletedAt
  column := Function.update w.column .customData (lead.column .customData)

namespace LeadDesk

variable {ι J : Type} [DecidableEq ι] [DecidableEq J] (env : Outside J)

def answer (s : LeadDesk ι J) (i : ι) (req : PatchRequest J) (r : PatchReply J) : LeadDesk ι J :=
  { s with calls := Function.update s.calls i (.answered req r) }

def check (s : LeadDesk ι J) (i : ι) (req : PatchRequest J) : LeadDesk ι J :=
  { s with calls := Function.update s.calls i (.checked ⟨req, s.lead, s.trail.length⟩) }

def read (s : LeadDesk ι J) (i : ι) (req : PatchRequest J) : LeadDesk ι J :=
  match refusedPhone env req.body with
  | some raw => s.answer i req (.invalidPhone (invalidPhoneText raw))
  | none =>
    if s.lead.deletedAt ≠ none then s.answer i req .notFound
    else
      match expectedVersion req with
      | none => s.check i req
      | some expected =>
        if (s.lead.version : Int) ≠ expected then s.answer i req (.stale expected s.lead.version)
        else s.check i req

/-- The update, the audit row and the commit. A version out of range and a value that the audit
cannot write roll it back. -/
def write (s : LeadDesk ι J) (i : ι) (a : Attempt J) (now : Nat) : LeadDesk ι J :=
  let data := mappedData a.req.body a.before now
  let updated := s.lead.update env data
  if updated.version > maxVersion then s.answer i a.req .error
  else
    match diffLeadChanges a.before updated (data.map Prod.fst) with
    | none => s.answer i a.req .error
    | some changes =>
      { lead := updated
        calls := Function.update s.calls i (.answered a.req (.ok updated.version updated))
        trail := s.trail ++ [.patch i a now changes] }

def put (s : LeadDesk ι J) (w : OtherWrite J) : LeadDesk ι J :=
  { s with lead := s.lead.written w, trail := s.trail ++ [.other w] }

/-- `delete` is the update of a DELETE that has found the lead alive. -/
def step (s : LeadDesk ι J) : LeadEvent ι J → LeadDesk ι J
  | .read i req =>
    match s.calls i with
    | .idle => read env s i req
    | _ => s
  | .write i now =>
    match s.calls i with
    | .checked a => write env s i a now
    | _ => s
  | .fail i =>
    match s.calls i with
    | .checked a => s.answer i a.req .error
    | _ => s
  | .delete now =>
    s.put ⟨some now, Function.update s.lead.column .modifyAt (.instant now)⟩
  | .other w => s.put w

def start (lead : LeadRow J) : LeadDesk ι J := ⟨lead, fun _ => .idle, []⟩

end LeadDesk

section Data

variable {J : Type} {env : Outside J}

theorem lookup_cons_of_ne {α β : Type*} [BEq α] [LawfulBEq α] {k a : α} (h : k ≠ a) (b : β)
    (l : List (α × β)) : ((a, b) :: l).lookup k = l.lookup k := by
  rw [List.lookup_cons, beq_eq_false_iff_ne.2 h]

theorem lookup_map_getD (b : Members J) (key : String) (l : Members J) :
    (l.map fun p => (p.1, (b.lookup p.1).getD p.2)).lookup key =
      (l.lookup key).map fun v => (b.lookup key).getD v := by
  induction l with
  | nil => rfl
  | cons p l ih =>
    obtain ⟨k, v⟩ := p
    by_cases h : key = k
    · subst h
      simp
    · rw [List.map_cons, lookup_cons_of_ne h, lookup_cons_of_ne h, ih]

theorem lookup_filter {a : Members J} {key : String} (hnone : a.lookup key = none)
    (l : Members J) : (l.filter fun p => a.lookup p.1 = none).lookup key = l.lookup key := by
  induction l with
  | nil => rfl
  | cons p l ih =>
    obtain ⟨k, v⟩ := p
    by_cases h : key = k
    · subst h
      rw [List.filter_cons_of_pos (by simpa using hnone)]
      simp
    · rw [lookup_cons_of_ne h, ← ih, List.filter_cons]
      split
      · exact lookup_cons_of_ne h ..
      · rfl

theorem lookup_spread (a b : Members J) (key : String) :
    (spread a b).lookup key = (b.lookup key).or (a.lookup key) := by
  unfold spread
  rw [List.lookup_append, lookup_map_getD]
  cases ha : a.lookup key with
  | none => simp [lookup_filter ha]
  | some v => cases b.lookup key <;> simp

theorem foldl_update_eq {data : List (Column × Value J)} (h : (data.map Prod.fst).Nodup)
    (f : Value J → Value J) (column : Column → Value J) (k : Column) :
    data.foldl (fun c p => Function.update c p.1 (f p.2)) column k =
      ((data.lookup k).map f).getD (column k) := by
  induction data generalizing column with
  | nil => rfl
  | cons p data ih =>
    obtain ⟨k', v⟩ := p
    obtain ⟨hmem, hdata⟩ := List.nodup_cons.1 h
    rw [List.foldl_cons, ih hdata]
    by_cases hk : k = k'
    · subst hk
      have hnone : data.lookup k = none := by
        refine List.lookup_eq_none_iff.2 fun q hq => bne_iff_ne.2 fun heq => hmem ?_
        exact List.mem_map.2 ⟨q, hq, heq.symm⟩
      simp [hnone]
    · rw [lookup_cons_of_ne hk, Function.update_of_ne hk]

theorem lookup_filterMap {α : Type*} (keys : List Column) (f : Column → Option α) (k : Column) :
    (keys.filterMap fun k => (f k).map fun v => (k, v)).lookup k =
      if k ∈ keys then f k else none := by
  induction keys with
  | nil => rfl
  | cons k' keys ih =>
    by_cases hk : k = k'
    · subst hk
      cases hf : f k with
      | none => simp [hf, ih]
      | some v => simp [hf]
    · cases hf : f k' with
      | none => simp [hf, ih, hk]
      | some v =>
        rw [List.filterMap_cons_some (by rw [hf]; rfl), lookup_cons_of_ne hk, ih]
        simp [hk]

theorem keys_filterMap_sublist {α : Type*} (keys : List Column) (f : Column → Option α) :
    ((keys.filterMap fun k => (f k).map fun v => (k, v)).map Prod.fst).Sublist keys := by
  induction keys with
  | nil => exact List.Sublist.slnil
  | cons k keys ih =>
    cases hf : f k with
    | none =>
      rw [List.filterMap_cons_none (by rw [hf]; rfl)]
      exact ih.cons k
    | some v =>
      rw [List.filterMap_cons_some (by rw [hf]; rfl)]
      exact ih.cons_cons k

def assigned (patch : LeadPatch J) (before : LeadRow J) (now : Nat) (k : Column) :
    Option (Value J) :=
  if k = .modifyAt then some (.instant now) else (patch.fields k).map (mapped before k)

theorem lookup_mappedData (patch : LeadPatch J) (before : LeadRow J) (now : Nat) (k : Column) :
    (mappedData patch before now).lookup k = assigned patch before now k := by
  have hall : k ≠ .modifyAt → k ∈ fieldMap ++ passthrough := by
    intro hk
    cases k with
    | modifyAt => exact absurd rfl hk
    | _ => decide
  unfold mappedData assigned
  by_cases hk : k = .modifyAt
  · subst hk
    rfl
  · rw [lookup_cons_of_ne hk, if_neg hk,
      lookup_filterMap _ fun k => (patch.fields k).map (mapped before k), if_pos (hall hk)]

theorem mappedData_keys_nodup (patch : LeadPatch J) (before : LeadRow J) (now : Nat) :
    ((mappedData patch before now).map Prod.fst).Nodup := by
  have hnodup : (Column.modifyAt :: (fieldMap ++ passthrough)).Nodup := by decide
  have hsub := keys_filterMap_sublist (fieldMap ++ passthrough)
    fun k => (patch.fields k).map (mapped before k)
  exact hnodup.sublist (hsub.cons_cons _)

theorem update_column (lead : LeadRow J) (patch : LeadPatch J) (before : LeadRow J) (now : Nat)
    (k : Column) :
    (lead.update env (mappedData patch before now)).column k =
      ((assigned patch before now k).map (stored env)).getD (lead.column k) := by
  rw [← lookup_mappedData]
  exact foldl_update_eq (mappedData_keys_nodup patch before now) (stored env) lead.column k

end Data

section Diff

variable {J : Type} [DecidableEq J]

theorem not_bigint_of_diff {before after : LeadRow J} {keys : List Column} {changes : Changes J}
    (h : diffLeadChanges before after keys = some changes) {key : Column} (hkey : key ∈ keys)
    (n : Nat) : before.column key ≠ .bigint n ∧ after.column key ≠ .bigint n := by
  induction keys generalizing changes with
  | nil => cases hkey
  | cons k keys ih =>
    cases hold : stringify (before.column k) with
    | none => simp [diffLeadChanges, hold] at h
    | some old =>
      cases hnew : stringify (after.column k) with
      | none => simp [diffLeadChanges, hold, hnew] at h
      | some new =>
        cases hrest : diffLeadChanges before after keys with
        | none => simp [diffLeadChanges, hold, hnew, hrest] at h
        | some rest =>
          rcases List.mem_cons.1 hkey with rfl | hkey
          · constructor
            · intro heq
              rw [heq] at hold
              cases hold
            · intro heq
              rw [heq] at hnew
              cases hnew
          · exact ih hrest hkey

end Diff

def Commit.isPatch {ι J : Type} : Commit ι J → Bool
  | .patch _ _ _ _ => true
  | .other _ => false

def patches {ι J : Type} (trail : List (Commit ι J)) : Nat := trail.countP Commit.isPatch

section Patches

variable {ι J : Type}

theorem patches_append (l r : List (Commit ι J)) : patches (l ++ r) = patches l + patches r :=
  List.countP_append

theorem patches_singleton (i : ι) (a : Attempt J) (now : Nat) (changes : Changes J) :
    patches [Commit.patch i a now changes] = 1 := rfl

theorem patches_other (w : OtherWrite J) : patches [(Commit.other w : Commit ι J)] = 0 := rfl

end Patches

end Leads

end Vici2
