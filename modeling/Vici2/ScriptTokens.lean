import Mathlib.Data.List.Dedup
import Mathlib.Data.List.TakeWhile
import Vici2.JsonText

/-! Tokens in the bodies of scripts. Interpolation replaces them by values of a context, and
the extraction of variables lists them; both scan the body with one regular expression. -/

namespace Vici2.Scripts

inductive Mode
  | render
  | preview
  deriving DecidableEq, Repr

structure LeadContext (ν : Type) where
  firstName : Option String := none
  lastName : Option String := none
  phoneE164 : Option String := none
  email : Option String := none
  city : Option String := none
  state : Option String := none
  customData : Option (List (String × Json ν)) := none

/-- A `Date`, which may be invalid, or a text. -/
inductive StartedAt
  | date (time : Option Int)
  | text (s : String)
  deriving DecidableEq, Repr

structure Context (ν : Type) where
  lead : LeadContext ν := {}
  agentName : String := ""
  campaignName : String := ""
  startedAt : Option StartedAt := none

/-- How numbers read as texts, dates are parsed and phone numbers are formatted. -/
structure Formats (ν : Type) where
  number : ν → List Char
  parseDate : String → Option Int
  formatPhone : String → String

def replaceAll (c : Char) (entity s : List Char) : List Char :=
  s.flatMap fun x => if x = c then entity else [x]

def escapeHtml (v : List Char) : List Char :=
  replaceAll '\'' "&#39;".toList
    (replaceAll '"' "&quot;".toList
      (replaceAll '>' "&gt;".toList
        (replaceAll '<' "&lt;".toList
          (replaceAll '&' "&amp;".toList v))))

def errPrimitive : String := "Cannot convert object to primitive value"

mutual

/-- `String(val)`. An object takes its text from its `toString`, which no value of JSON is fit
for; its `valueOf` gives no primitive value either. -/
def toText {ν : Type} (F : Formats ν) : Json ν → Except String (List Char)
  | .null => .ok "null".toList
  | .bool b => .ok (if b then "true".toList else "false".toList)
  | .num x => .ok (F.number x)
  | .str s => .ok s.toList
  | .arr l => do return Json.joinWith [','] (← elementTexts F l)
  | .obj l =>
    if l.any fun p => p.1 = "toString" then .error errPrimitive else .ok "[object Object]".toList

/-- The elements of an array as `join` reads them. -/
def elementTexts {ν : Type} (F : Formats ν) : List (Json ν) → Except String (List (List Char))
  | [] => .ok []
  | .null :: l => do return [] :: (← elementTexts F l)
  | v :: l => do
    let text ← toText F v
    return text :: (← elementTexts F l)

end

def padStart2 (s : List Char) : List Char := List.replicate (2 - s.length) '0' ++ s

def formatDuration {ν : Type} (F : Formats ν) (now : Int) (startedAt : Option StartedAt) :
    List Char :=
  let start := match startedAt with
    | none => none
    | some (.text s) => if s = "" then none else F.parseDate s
    | some (.date t) => t
  match start with
  | none => "00:00".toList
  | some t =>
    let elapsed := max 0 ((now - t) / 1000)
    padStart2 (toString (elapsed / 60)).toList ++ ':' :: padStart2 (toString (elapsed % 60)).toList

def isLetter (c : Char) : Bool := ('a' ≤ c ∧ c ≤ 'z') ∨ ('A' ≤ c ∧ c ≤ 'Z')

def isTokenChar (c : Char) : Bool := isLetter c ∨ ('0' ≤ c ∧ c ≤ '9') ∨ c = '_' ∨ c = '.'

/-- The match of the regular expression at the head of a text: the token, and what is left. -/
def tokenAt : List Char → Option (List Char × List Char)
  | '{' :: c :: rest =>
    if isLetter c then
      match rest.dropWhile isTokenChar with
      | '}' :: after => some (c :: rest.takeWhile isTokenChar, after)
      | _ => none
    else none
  | _ => none

inductive Segment
  | text (c : Char)
  | token (t : List Char)
  deriving DecidableEq, Repr

/-- The matches from left to right, with what lies between them. -/
def scan : Nat → List Char → List Segment
  | 0, _ => []
  | _ + 1, [] => []
  | n + 1, c :: rest =>
    match tokenAt (c :: rest) with
    | some (t, after) => .token t :: scan n after
    | none => .text c :: scan n rest

def segments (body : List Char) : List Segment := scan body.length body

def matchAll (body : List Char) : List (List Char) :=
  (segments body).filterMap fun
    | .token t => some t
    | .text _ => none

/-- `body.replace`, with a function for the matches that may throw. -/
def replaceTokens (f : List Char → Except String (List Char)) :
    List Segment → Except String (List Char)
  | [] => .ok []
  | .text c :: rest => do return c :: (← replaceTokens f rest)
  | .token t :: rest => do
    let value ← f t
    return value ++ (← replaceTokens f rest)

def toLowerCase (t : List Char) : List Char := t.map Char.toLower

section Interpolate

variable {ν : Type} (F : Formats ν) (now : Int) (ctx : Context ν)

def phoneText : List Char :=
  match ctx.lead.phoneE164 with
  | none => []
  | some e164 => if e164 = "" then [] else (F.formatPhone e164).toList

def known : List (String × List Char) :=
  [("lead.first_name", escapeHtml (ctx.lead.firstName.getD "").toList),
    ("lead.last_name", escapeHtml (ctx.lead.lastName.getD "").toList),
    ("lead.phone_formatted", escapeHtml (phoneText F ctx)),
    ("lead.email", escapeHtml (ctx.lead.email.getD "").toList),
    ("lead.city", escapeHtml (ctx.lead.city.getD "").toList),
    ("lead.state", escapeHtml (ctx.lead.state.getD "").toList),
    ("agent.name", escapeHtml ctx.agentName.toList),
    ("campaign.name", escapeHtml ctx.campaignName.toList),
    ("call.duration", escapeHtml (formatDuration F now ctx.startedAt))]

def customPrefix : List Char := "lead.custom.".toList

def ownProperty (key : List Char) : Option (Json ν) :=
  ((ctx.lead.customData.getD []).find? fun p => p.1.toList = key).map Prod.snd

/-- What an object inherits under a name without capital letters, as a text. -/
def inherited (key : List Char) : Option (List Char) :=
  if key = "constructor".toList then some "function Object() \x7b [native code] \x7d".toList
  else if key = "__proto__".toList then some "[object Object]".toList
  else none

/-- `String(val)` of a property, if it is neither `undefined` nor `null`. -/
def propertyText (key : List Char) : Except String (Option (List Char)) :=
  match ownProperty ctx key with
  | none => .ok (inherited key)
  | some .null => .ok none
  | some v => do return some (← toText F v)

def unresolved (mode : Mode) (token : List Char) : List Char :=
  if mode = .render then [] else '{' :: (token ++ ['}'])

/-- The function that `interpolate` replaces matches with. -/
def replacer (mode : Mode) (token : List Char) : Except String (List Char) :=
  let lower := toLowerCase token
  match (known F now ctx).find? fun p => p.1.toList = lower with
  | some (_, value) => .ok value
  | none =>
    if customPrefix <+: lower then do
      match ← propertyText F ctx (lower.drop customPrefix.length) with
      | some text => return escapeHtml text
      | none => return unresolved mode token
    else .ok (unresolved mode token)

def interpolate (body : List Char) (mode : Mode) : Except String (List Char) :=
  replaceTokens (replacer F now ctx mode) (segments body)

end Interpolate

/-- The names in lower case, without repetitions and in order. -/
def extractVariables (body : List Char) : List String :=
  (((matchAll body).map fun t => String.ofList (toLowerCase t)).dedup).mergeSort fun a b => a ≤ b

def Segment.source : Segment → List Char
  | .text c => [c]
  | .token t => '{' :: (t ++ ['}'])

/-- What the regular expression has between the braces. -/
def IsToken (t : List Char) : Prop :=
  ∃ c rest, t = c :: rest ∧ isLetter c = true ∧ ∀ x ∈ rest, isTokenChar x = true

theorem isTokenChar_of_isLetter {c : Char} (h : isLetter c = true) : isTokenChar c = true := by
  simp [isTokenChar, h]

theorem IsToken.chars {t : List Char} (h : IsToken t) : ∀ x ∈ t, isTokenChar x = true := by
  obtain ⟨c, rest, rfl, hc, hrest⟩ := h
  intro x hx
  rcases List.mem_cons.1 hx with rfl | hx
  · exact isTokenChar_of_isLetter hc
  · exact hrest x hx

theorem IsToken.no_brace {t : List Char} (h : IsToken t) : '{' ∉ t ∧ '}' ∉ t := by
  constructor
  · exact fun hmem => absurd (h.chars _ hmem) (by decide)
  · exact fun hmem => absurd (h.chars _ hmem) (by decide)

theorem tokenAt_eq_some_iff {l t after : List Char} :
    tokenAt l = some (t, after) ↔ IsToken t ∧ l = '{' :: (t ++ '}' :: after) := by
  constructor
  · intro h
    unfold tokenAt at h
    split at h
    · next c rest =>
      split_ifs at h with hc
      split at h
      · next after' hdrop =>
        obtain ⟨rfl, rfl⟩ := Prod.mk.inj (Option.some.inj h)
        have hsplit := List.takeWhile_append_dropWhile (p := isTokenChar) (l := rest)
        rw [hdrop] at hsplit
        refine ⟨⟨c, _, rfl, hc, fun x hx => List.mem_takeWhile_imp hx⟩, ?_⟩
        rw [List.cons_append, hsplit]
      · cases h
    · cases h
  · rintro ⟨⟨c, rest, rfl, hc, hrest⟩, rfl⟩
    have hclose : isTokenChar '}' = false := by decide
    have htake : (rest ++ '}' :: after).takeWhile isTokenChar = rest := by
      rw [List.takeWhile_append_of_pos hrest, List.takeWhile_cons_of_neg (by simp [hclose]),
        List.append_nil]
    have hdrop : (rest ++ '}' :: after).dropWhile isTokenChar = '}' :: after := by
      rw [List.dropWhile_append_of_pos hrest, List.dropWhile_cons_of_neg (by simp [hclose])]
    simp only [List.cons_append, tokenAt, hc, if_true, htake, hdrop]

theorem scan_of_none {n : Nat} {c : Char} {rest : List Char} (h : tokenAt (c :: rest) = none) :
    scan (n + 1) (c :: rest) = .text c :: scan n rest := by
  simp only [scan, h]

theorem scan_of_some {n : Nat} {c : Char} {rest t after : List Char}
    (h : tokenAt (c :: rest) = some (t, after)) :
    scan (n + 1) (c :: rest) = .token t :: scan n after := by
  simp only [scan, h]

theorem length_after_le {n : Nat} {l t after : List Char} (h : tokenAt l = some (t, after))
    (hl : l.length ≤ n + 1) : after.length ≤ n := by
  have hlength := congrArg List.length (tokenAt_eq_some_iff.1 h).2
  simp only [List.length_cons, List.length_append] at hlength
  omega

theorem scan_source {n : Nat} {l : List Char} (h : l.length ≤ n) :
    (scan n l).flatMap Segment.source = l := by
  induction n generalizing l with
  | zero =>
    have hnil : l = [] := List.length_eq_zero_iff.1 (Nat.le_zero.1 h)
    rw [hnil]
    rfl
  | succ n ih =>
    cases l with
    | nil => rfl
    | cons c rest =>
      cases htoken : tokenAt (c :: rest) with
      | none =>
        have hrest : rest.length ≤ n := Nat.le_of_succ_le_succ h
        rw [scan_of_none htoken, List.flatMap_cons, ih hrest]
        rfl
      | some found =>
        obtain ⟨t, after⟩ := found
        obtain ⟨-, hl⟩ := tokenAt_eq_some_iff.1 htoken
        rw [scan_of_some htoken, List.flatMap_cons, ih (length_after_le htoken h), hl]
        simp [Segment.source]

theorem token_mem_scan {n : Nat} {t a b : List Char} (ht : IsToken t)
    (h : (a ++ '{' :: (t ++ '}' :: b)).length ≤ n) :
    .token t ∈ scan n (a ++ '{' :: (t ++ '}' :: b)) := by
  induction n generalizing a with
  | zero => simp at h
  | succ n ih =>
    cases a with
    | nil =>
      have htoken : tokenAt ('{' :: (t ++ '}' :: b)) = some (t, b) :=
        tokenAt_eq_some_iff.2 ⟨ht, rfl⟩
      rw [List.nil_append, scan_of_some htoken]
      exact List.mem_cons_self
    | cons x a =>
      have htail : (a ++ '{' :: (t ++ '}' :: b)).length ≤ n := Nat.le_of_succ_le_succ h
      cases htoken : tokenAt (x :: (a ++ '{' :: (t ++ '}' :: b))) with
      | none =>
        rw [List.cons_append, scan_of_none htoken]
        exact List.mem_cons_of_mem _ (ih htail)
      | some found =>
        obtain ⟨t', after⟩ := found
        obtain ⟨ht', hl⟩ := tokenAt_eq_some_iff.1 htoken
        rw [List.cons_append, scan_of_some htoken]
        apply List.mem_cons_of_mem
        -- the other token has no brace, so this one begins behind it
        obtain ⟨-, hsplit⟩ := List.cons.inj hl
        rcases List.append_eq_append_iff.1 hsplit with ⟨gap, hgap, hrest⟩ | ⟨gap, hgap, hrest⟩
        · cases gap with
          | nil => simp at hrest
          | cons y gap =>
            have hy : '{' = y := by
              simpa using congrArg List.head? hrest
            have hmem : '{' ∈ t' := by
              rw [hgap, ← hy]
              simp
            exact absurd hmem ht'.no_brace.1
        · cases gap with
          | nil => simp at hrest
          | cons y gap =>
            obtain ⟨-, hafter⟩ := List.cons.inj (by simpa using hrest)
            have hafterLength : (gap ++ '{' :: (t ++ '}' :: b)).length ≤ n := by
              rw [hgap] at htail
              simp only [List.length_append, List.length_cons] at htail ⊢
              omega
            rw [hafter]
            exact ih hafterLength

theorem isToken_of_mem_scan {n : Nat} {l t : List Char} (h : .token t ∈ scan n l) :
    IsToken t ∧ ∃ a b, l = a ++ '{' :: (t ++ '}' :: b) := by
  induction n generalizing l with
  | zero => cases h
  | succ n ih =>
    cases l with
    | nil => cases h
    | cons c rest =>
      cases htoken : tokenAt (c :: rest) with
      | none =>
        rw [scan_of_none htoken] at h
        simp only [List.mem_cons, reduceCtorEq, false_or] at h
        obtain ⟨ht, a, b, rfl⟩ := ih h
        exact ⟨ht, c :: a, b, rfl⟩
      | some found =>
        obtain ⟨t', after⟩ := found
        obtain ⟨ht', hl⟩ := tokenAt_eq_some_iff.1 htoken
        rw [scan_of_some htoken] at h
        simp only [List.mem_cons, Segment.token.injEq] at h
        rcases h with rfl | h
        · exact ⟨ht', [], after, hl⟩
        · obtain ⟨ht, a, b, rfl⟩ := ih h
          exact ⟨ht, '{' :: (t' ++ '}' :: a), b, by rw [hl]; simp⟩

theorem mem_matchAll {body t : List Char} : t ∈ matchAll body ↔ .token t ∈ segments body := by
  unfold matchAll
  rw [List.mem_filterMap]
  constructor
  · rintro ⟨seg, hseg, heq⟩
    cases seg with
    | text c => cases heq
    | token t' =>
      obtain rfl : t' = t := Option.some.inj heq
      exact hseg
  · exact fun h => ⟨_, h, rfl⟩

/-- The matches are the tokens that occur in the body between braces. -/
theorem mem_matchAll_iff {body t : List Char} :
    t ∈ matchAll body ↔ IsToken t ∧ ∃ a b, body = a ++ '{' :: (t ++ '}' :: b) := by
  rw [mem_matchAll]
  constructor
  · exact isToken_of_mem_scan
  · rintro ⟨ht, a, b, rfl⟩
    exact token_mem_scan ht (le_refl _)

section Values

variable {ν : Type} (F : Formats ν) (now : Int)

/-- What a context has for a name: a text of its own, or a value of the custom data. -/
inductive ContextValue (ν : Type)
  | text (s : List Char)
  | custom (v : Json ν)

def texts (ctx : Context ν) : List (String × List Char) :=
  [("lead.first_name", (ctx.lead.firstName.getD "").toList),
    ("lead.last_name", (ctx.lead.lastName.getD "").toList),
    ("lead.phone_formatted", phoneText F ctx),
    ("lead.email", (ctx.lead.email.getD "").toList),
    ("lead.city", (ctx.lead.city.getD "").toList),
    ("lead.state", (ctx.lead.state.getD "").toList),
    ("agent.name", ctx.agentName.toList),
    ("campaign.name", ctx.campaignName.toList),
    ("call.duration", formatDuration F now ctx.startedAt)]

/-- The value of a context under the name of a variable; of the custom data, an own property. -/
def contextValue (ctx : Context ν) (name : List Char) : Option (ContextValue ν) :=
  match (texts F now ctx).find? fun p => p.1.toList = name with
  | some (_, text) => some (.text text)
  | none =>
    if customPrefix <+: name then
      (ownProperty ctx (name.drop customPrefix.length)).map .custom
    else none

def withoutValue (mode : Mode) (token : List Char) : List Char :=
  match if customPrefix <+: toLowerCase token then
      inherited ((toLowerCase token).drop customPrefix.length) else none with
  | some text => escapeHtml text
  | none => unresolved mode token

def escapedValue (mode : Mode) (token : List Char) :
    Option (ContextValue ν) → Except String (List Char)
  | some (.text s) => .ok (escapeHtml s)
  | some (.custom .null) => .ok (unresolved mode token)
  | some (.custom v) => (toText F v).map escapeHtml
  | none => .ok (withoutValue mode token)

theorem known_eq (ctx : Context ν) :
    known F now ctx = (texts F now ctx).map fun p => (p.1, escapeHtml p.2) := rfl

theorem replacer_eq (ctx : Context ν) (mode : Mode) (token : List Char) :
    replacer F now ctx mode token =
      escapedValue F mode token (contextValue F now ctx (toLowerCase token)) := by
  have hfind : ((known F now ctx).find? fun p => p.1.toList = toLowerCase token) =
      ((texts F now ctx).find? fun p => p.1.toList = toLowerCase token).map
        fun p => (p.1, escapeHtml p.2) := by
    rw [known_eq, List.find?_map]
    rfl
  unfold replacer contextValue
  dsimp only
  rw [hfind]
  cases (texts F now ctx).find? fun p => p.1.toList = toLowerCase token with
  | some p => rfl
  | none =>
    by_cases hcustom : customPrefix <+: toLowerCase token
    · simp only [Option.map_none, if_pos hcustom, propertyText]
      cases hown : ownProperty ctx ((toLowerCase token).drop customPrefix.length) with
      | none =>
        simp only [Option.map_none, escapedValue, withoutValue, if_pos hcustom]
        cases inherited ((toLowerCase token).drop customPrefix.length) with
        | none => rfl
        | some text => rfl
      | some v =>
        cases v with
        | null => rfl
        | bool b => rfl
        | num x => rfl
        | str s => rfl
        | arr l =>
          simp only [Option.map_some, escapedValue]
          cases toText F (.arr l) with
          | error e => rfl
          | ok text => rfl
        | obj l =>
          simp only [Option.map_some, escapedValue]
          cases toText F (.obj l) with
          | error e => rfl
          | ok text => rfl
    · simp only [Option.map_none, if_neg hcustom, escapedValue, withoutValue]

end Values

section Replace

variable {f g : List Char → Except String (List Char)}

theorem replaceTokens_congr {segs : List Segment} (h : ∀ t, .token t ∈ segs → f t = g t) :
    replaceTokens f segs = replaceTokens g segs := by
  induction segs with
  | nil => rfl
  | cons seg rest ih =>
    have hrest := ih fun t ht => h t (List.mem_cons_of_mem _ ht)
    cases seg with
    | text c => simp only [replaceTokens, hrest]
    | token t => simp only [replaceTokens, hrest, h t List.mem_cons_self]

def Segment.filled (value : List Char → List Char) : Segment → List Char
  | .text c => [c]
  | .token t => value t

theorem replaceTokens_of_ok {value : List Char → List Char} {segs : List Segment}
    (h : ∀ t, .token t ∈ segs → f t = .ok (value t)) :
    replaceTokens f segs = .ok (segs.flatMap (Segment.filled value)) := by
  induction segs with
  | nil => rfl
  | cons seg rest ih =>
    have hrest := ih fun t ht => h t (List.mem_cons_of_mem _ ht)
    cases seg with
    | text c =>
      simp only [replaceTokens, hrest]
      rfl
    | token t =>
      simp only [replaceTokens, hrest, h t List.mem_cons_self]
      rfl

theorem ok_of_replaceTokens {segs : List Segment} {out : List Char}
    (h : replaceTokens f segs = .ok out) : ∀ t, .token t ∈ segs → ∃ v, f t = .ok v := by
  induction segs generalizing out with
  | nil => exact fun t ht => by cases ht
  | cons seg rest ih =>
    cases seg with
    | text c =>
      cases hrest : replaceTokens f rest with
      | error e =>
        simp only [replaceTokens, hrest] at h
        cases h
      | ok tail =>
        intro t ht
        rcases List.mem_cons.1 ht with heq | ht
        · cases heq
        · exact ih hrest t ht
    | token t =>
      cases hvalue : f t with
      | error e =>
        simp only [replaceTokens, hvalue] at h
        cases h
      | ok v =>
        cases hrest : replaceTokens f rest with
        | error e =>
          simp only [replaceTokens, hvalue, hrest] at h
          cases h
        | ok tail =>
          intro t' ht'
          rcases List.mem_cons.1 ht' with heq | ht'
          · obtain rfl : t' = t := Segment.token.inj heq
            exact ⟨v, hvalue⟩
          · exact ih hrest t' ht'

end Replace

/-- None of the characters that markup is made of. -/
def Harmless (s : List Char) : Prop := '<' ∉ s ∧ '>' ∉ s ∧ '"' ∉ s ∧ '\'' ∉ s

theorem mem_replaceAll {c x : Char} {entity s : List Char} (h : x ∈ replaceAll c entity s) :
    (x ∈ s ∧ x ≠ c) ∨ x ∈ entity := by
  obtain ⟨y, hy, hx⟩ := List.mem_flatMap.1 h
  by_cases hc : y = c
  · rw [if_pos hc] at hx
    exact Or.inr hx
  · rw [if_neg hc, List.mem_singleton] at hx
    rw [hx]
    exact Or.inl ⟨hy, hc⟩

theorem not_mem_replaceAll {c x : Char} {entity s : List Char} (h : x = c ∨ x ∉ s)
    (hentity : x ∉ entity) : x ∉ replaceAll c entity s := by
  intro hmem
  rcases mem_replaceAll hmem with ⟨hs, hne⟩ | he
  · rcases h with rfl | hs'
    · exact hne rfl
    · exact hs' hs
  · exact hentity he

theorem harmless_escapeHtml (v : List Char) : Harmless (escapeHtml v) := by
  unfold Harmless escapeHtml
  refine ⟨?_, ?_, ?_, ?_⟩
  · apply not_mem_replaceAll _ (by decide)
    refine Or.inr (not_mem_replaceAll (Or.inr ?_) (by decide))
    refine not_mem_replaceAll (Or.inr ?_) (by decide)
    exact not_mem_replaceAll (Or.inl rfl) (by decide)
  · apply not_mem_replaceAll _ (by decide)
    refine Or.inr (not_mem_replaceAll (Or.inr ?_) (by decide))
    exact not_mem_replaceAll (Or.inl rfl) (by decide)
  · apply not_mem_replaceAll _ (by decide)
    exact Or.inr (not_mem_replaceAll (Or.inl rfl) (by decide))
  · exact not_mem_replaceAll (Or.inl rfl) (by decide)

theorem harmless_unresolved {token : List Char} (h : IsToken token) (mode : Mode) :
    Harmless (unresolved mode token) := by
  have hchars : ∀ x, isTokenChar x = false → x ≠ '{' → x ≠ '}' →
      x ∉ unresolved mode token := by
    intro x hx hopen hclose hmem
    unfold unresolved at hmem
    split_ifs at hmem
    · cases hmem
    · rcases List.mem_cons.1 hmem with heq | hmem
      · exact hopen heq
      · rcases List.mem_append.1 hmem with hmem | hmem
        · rw [h.chars x hmem] at hx
          cases hx
        · exact hclose (List.mem_singleton.1 hmem)
  exact ⟨hchars _ (by decide) (by decide) (by decide), hchars _ (by decide) (by decide) (by decide),
    hchars _ (by decide) (by decide) (by decide), hchars _ (by decide) (by decide) (by decide)⟩

theorem harmless_escapedValue {ν : Type} {F : Formats ν} {mode : Mode} {token out : List Char}
    {value : Option (ContextValue ν)} (htoken : IsToken token)
    (h : escapedValue F mode token value = .ok out) : Harmless out := by
  have htext : ∀ v : Json ν, (toText F v).map escapeHtml = .ok out → Harmless out := by
    intro v hv
    cases htext : toText F v with
    | error e =>
      rw [htext] at hv
      cases hv
    | ok text =>
      rw [htext] at hv
      obtain rfl : escapeHtml text = out := Except.ok.inj hv
      exact harmless_escapeHtml text
  cases value with
  | none =>
    obtain rfl : withoutValue mode token = out := Except.ok.inj h
    unfold withoutValue
    split
    · exact harmless_escapeHtml _
    · exact harmless_unresolved htoken mode
  | some value =>
    cases value with
    | text s =>
      obtain rfl : escapeHtml s = out := Except.ok.inj h
      exact harmless_escapeHtml s
    | custom v =>
      cases v with
      | null =>
        obtain rfl : unresolved mode token = out := Except.ok.inj h
        exact harmless_unresolved htoken mode
      | bool b => exact htext (.bool b) h
      | num x => exact htext (.num x) h
      | str s => exact htext (.str s) h
      | arr l => exact htext _ h
      | obj l => exact htext _ h

/-- The value of a token fails only if it is one of the custom data that has no text. -/
theorem escapedValue_ok_iff {ν : Type} {F : Formats ν} (mode : Mode) (token : List Char)
    {value : Option (ContextValue ν)} :
    (∃ out, escapedValue F mode token value = .ok out) ↔
      ∀ v, value = some (.custom v) → ∃ text, toText F v = .ok text := by
  have hmap : ∀ v : Json ν, (∃ out, (toText F v).map escapeHtml = .ok out) ↔
      ∃ text, toText F v = .ok text := by
    intro v
    cases toText F v with
    | error e => simp [Except.map]
    | ok text => simp [Except.map]
  cases value with
  | none => simp [escapedValue]
  | some value =>
    cases value with
    | text s => simp [escapedValue]
    | custom v =>
      have hgoal : (∃ out, escapedValue F mode token (some (.custom v)) = .ok out) ↔
          ∃ text, toText F v = .ok text := by
        cases v with
        | null => simp [escapedValue, toText]
        | bool b => exact hmap (.bool b)
        | num x => exact hmap (.num x)
        | str s => exact hmap (.str s)
        | arr l => exact hmap _
        | obj l => exact hmap _
      rw [hgoal]
      constructor
      · intro h w hw
        obtain rfl : v = w := ContextValue.custom.inj (Option.some.inj hw)
        exact h
      · exact fun h => h v rfl

theorem mem_extractVariables {body : List Char} {name : String} :
    name ∈ extractVariables body ↔ ∃ t ∈ matchAll body, name.toList = toLowerCase t := by
  unfold extractVariables
  rw [List.mem_mergeSort, List.mem_dedup, List.mem_map]
  constructor
  · rintro ⟨t, ht, rfl⟩
    exact ⟨t, ht, String.toList_ofList⟩
  · rintro ⟨t, ht, hname⟩
    exact ⟨t, ht, by rw [← hname, String.ofList_toList]⟩

theorem forall_extractVariables {body : List Char} {p : List Char → Prop} :
    (∀ name ∈ extractVariables body, p name.toList) ↔
      ∀ t, .token t ∈ segments body → p (toLowerCase t) := by
  constructor
  · intro h t ht
    have hname : String.ofList (toLowerCase t) ∈ extractVariables body :=
      mem_extractVariables.2 ⟨t, mem_matchAll.2 ht, String.toList_ofList⟩
    have hp := h _ hname
    rwa [String.toList_ofList] at hp
  · intro h name hname
    obtain ⟨t, ht, heq⟩ := mem_extractVariables.1 hname
    rw [heq]
    exact h t (mem_matchAll.1 ht)

section Interpolation

variable {ν : Type} {F : Formats ν} {now : Int} {ctx ctx' : Context ν} {mode : Mode}
  {body : List Char}

theorem interpolate_congr
    (hagree : ∀ name ∈ extractVariables body,
      contextValue F now ctx name.toList = contextValue F now ctx' name.toList) :
    interpolate F now ctx body mode = interpolate F now ctx' body mode := by
  apply replaceTokens_congr
  intro t ht
  have hvalue : contextValue F now ctx (toLowerCase t) = contextValue F now ctx' (toLowerCase t) :=
    forall_extractVariables (p := fun name =>
      contextValue F now ctx name = contextValue F now ctx' name) |>.1 hagree t ht
  rw [replacer_eq, replacer_eq, hvalue]

theorem interpolate_ok_iff :
    (∃ out, interpolate F now ctx body mode = .ok out) ↔
      ∀ name ∈ extractVariables body, ∀ v, contextValue F now ctx name.toList = some (.custom v) →
        ∃ text, toText F v = .ok text := by
  rw [forall_extractVariables (p := fun name =>
    ∀ v, contextValue F now ctx name = some (.custom v) → ∃ text, toText F v = .ok text)]
  constructor
  · rintro ⟨out, hout⟩ t ht
    obtain ⟨v, hv⟩ := ok_of_replaceTokens hout t ht
    rw [replacer_eq] at hv
    exact (escapedValue_ok_iff mode t).1 ⟨v, hv⟩
  · intro h
    have hvalue : ∀ t, ∃ v, .token t ∈ segments body → replacer F now ctx mode t = .ok v := by
      intro t
      by_cases ht : .token t ∈ segments body
      · obtain ⟨v, hv⟩ := (escapedValue_ok_iff mode t).2 (h t ht)
        exact ⟨v, fun _ => by rw [replacer_eq, hv]⟩
      · exact ⟨[], fun hmem => absurd hmem ht⟩
    choose value hvalue using hvalue
    exact ⟨_, replaceTokens_of_ok hvalue⟩

/-- What is returned is the body with its tokens replaced by harmless values. -/
theorem interpolate_filled {out : List Char} (h : interpolate F now ctx body mode = .ok out) :
    ∃ value : List Char → List Char,
      (∀ t ∈ matchAll body,
        escapedValue F mode t (contextValue F now ctx (toLowerCase t)) = .ok (value t) ∧
          Harmless (value t)) ∧
      out = (segments body).flatMap (Segment.filled value) := by
  have hvalue : ∀ t, ∃ v, .token t ∈ segments body → replacer F now ctx mode t = .ok v := by
    intro t
    by_cases ht : .token t ∈ segments body
    · obtain ⟨v, hv⟩ := ok_of_replaceTokens h t ht
      exact ⟨v, fun _ => hv⟩
    · exact ⟨[], fun hmem => absurd hmem ht⟩
  choose value hvalue using hvalue
  refine ⟨value, fun t ht => ?_, ?_⟩
  · have hok := hvalue t (mem_matchAll.1 ht)
    rw [replacer_eq] at hok
    exact ⟨hok, harmless_escapedValue (mem_matchAll_iff.1 ht).1 hok⟩
  · have hfilled := replaceTokens_of_ok hvalue
    exact Except.ok.inj (h.symm.trans hfilled)

end Interpolation

/-- Interpolation is confined to the variables of the body: two contexts that agree on them have
the same outcome, and a text that comes out is the body with escaped values for its tokens. -/
theorem interpolate_confined {ν : Type} (F : Formats ν) (now : Int) (mode : Mode)
    (body : List Char) (ctx ctx' : Context ν)
    (hagree : ∀ name ∈ extractVariables body,
      contextValue F now ctx name.toList = contextValue F now ctx' name.toList) :
    interpolate F now ctx body mode = interpolate F now ctx' body mode ∧
      ((∃ out, interpolate F now ctx body mode = .ok out) ↔
        ∀ name ∈ extractVariables body, ∀ v,
          contextValue F now ctx name.toList = some (.custom v) → ∃ text, toText F v = .ok text) ∧
      (∀ out, interpolate F now ctx body mode = .ok out → ∃ value : List Char → List Char,
        (∀ t ∈ matchAll body,
          escapedValue F mode t (contextValue F now ctx (toLowerCase t)) = .ok (value t) ∧
            Harmless (value t)) ∧
        out = (segments body).flatMap (Segment.filled value)) ∧
      (segments body).flatMap Segment.source = body ∧
      ∀ t, .token t ∈ segments body ↔
        IsToken t ∧ ∃ before after, body = before ++ '{' :: (t ++ '}' :: after) := by
  have hsource : (segments body).flatMap Segment.source = body := scan_source (le_refl _)
  have htokens : ∀ t, .token t ∈ segments body ↔
      IsToken t ∧ ∃ before after, body = before ++ '{' :: (t ++ '}' :: after) := by
    intro t
    rw [← mem_matchAll]
    exact mem_matchAll_iff
  exact ⟨interpolate_congr hagree, interpolate_ok_iff, fun _ => interpolate_filled, hsource,
    htokens⟩

def plainFormats : Formats Int where
  number x := (toString x).toList
  parseDate _ := none
  formatPhone e164 := e164

def bracketLead (first last : String) : Context Int :=
  { lead := { firstName := some first, lastName := some last } }

def greeting : List Char := "Hi \x7bLead.First_Name\x7d".toList

theorem interpolate_confined_of_first_name :
    interpolate plainFormats 0 (bracketLead "<\x7blead.city\x7d>" "A") greeting .render =
      interpolate plainFormats 0 (bracketLead "<\x7blead.city\x7d>" "B") greeting .render := by
  refine (interpolate_confined plainFormats 0 .render greeting _ _ ?_).1
  intro name hname
  obtain ⟨t, ht, hlower⟩ := mem_extractVariables.1 hname
  have htokens : matchAll greeting = ["Lead.First_Name".toList] := by
    rfl
  rw [htokens, List.mem_singleton] at ht
  rw [hlower, ht]
  rfl

/-- A lead whose custom data hold an object that cannot be read as a text. -/
def objectLead : Context Int :=
  { lead := { customData := some [("x", .obj [("toString", .bool true)])] } }

theorem custom_object_has_no_text :
    ¬ ∀ (F : Formats Int) (now : Int) (mode : Mode) (body : List Char) (ctx ctx' : Context Int),
      (∀ name ∈ extractVariables body,
        contextValue F now ctx name.toList = contextValue F now ctx' name.toList) →
      ∃ out, interpolate F now ctx body mode = .ok out ∧
        interpolate F now ctx' body mode = .ok out := by
  intro h
  obtain ⟨out, hout, -⟩ :=
    h plainFormats 0 .render "\x7blead.custom.x\x7d".toList objectLead objectLead fun _ _ => rfl
  have hthrows : interpolate plainFormats 0 objectLead "\x7blead.custom.x\x7d".toList .render =
      .error errPrimitive := by
    rfl
  rw [hthrows] at hout
  cases hout

end Vici2.Scripts
