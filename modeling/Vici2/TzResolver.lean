import Mathlib.Data.List.Basic
import Mathlib.Logic.Function.Basic
import Vici2.AuditCanonical

/-! The two timezone resolvers: the cascade of the API in `Ts` and the one of the dialer
in `Go`, each with its loaders and its helpers for phone numbers and ZIP codes. -/

namespace Vici2

namespace Tz

open Audit (utf8 utf16)

inductive Confidence
  | known
  | zip
  | nxx
  | npa
  | stateDefault
  | campaignDefault
  | none
  deriving DecidableEq, Repr

inductive NumberType
  | unknown
  | fixedLine
  | mobile
  | fixedOrMobile
  | tollFree
  | premiumRate
  | voip
  deriving DecidableEq, Repr

/-- What libphonenumber says of a number. The national significant number is written in
digits, so that its bytes and its UTF-16 units are counted alike. -/
structure PhoneNumber where
  nsn : List Char
  nsn_digits : nsn.all Char.isDigit = true
  numberType : NumberType
  zones : List String

/-- The code around the resolvers: the phone library, the zones that
`Intl.DateTimeFormat` accepts and those that `time.LoadLocation` loads. -/
structure Platform (loc : Type) where
  parse : String → Option PhoneNumber
  intlAccepts : String → Bool
  loadLocation : String → Option loc

/-- A field that is not given is empty: both resolvers test it so. -/
structure ResolveRequest where
  phoneE164 : String
  knownTimezone : String
  zip : String
  state : String
  campaignId : String

structure CodeRow where
  areaCode : String
  exchangeCode : String
  tzIana : String
  deriving DecidableEq, Repr

structure ZipRow where
  zip : String
  tzIana : String
  deriving DecidableEq, Repr

structure Tables where
  phoneCodes : List CodeRow
  overrides : List CodeRow
  zipCodes : List ZipRow

structure CampaignEntry where
  iana : String
  expiresAt : Int
  deriving DecidableEq, Repr

/-- Both sources have this table, in the same words. -/
def singleTzStateMap : List (String × String) :=
  [("CT", "America/New_York"), ("DC", "America/New_York"), ("DE", "America/New_York"),
    ("GA", "America/New_York"), ("MA", "America/New_York"), ("MD", "America/New_York"),
    ("ME", "America/New_York"), ("MI", "America/New_York"), ("NH", "America/New_York"),
    ("NJ", "America/New_York"), ("NY", "America/New_York"), ("NC", "America/New_York"),
    ("OH", "America/New_York"), ("PA", "America/New_York"), ("RI", "America/New_York"),
    ("SC", "America/New_York"), ("VA", "America/New_York"), ("VT", "America/New_York"),
    ("WV", "America/New_York"),
    ("AL", "America/Chicago"), ("AR", "America/Chicago"), ("IA", "America/Chicago"),
    ("IL", "America/Chicago"), ("KS", "America/Chicago"), ("LA", "America/Chicago"),
    ("MN", "America/Chicago"), ("MO", "America/Chicago"), ("MS", "America/Chicago"),
    ("OK", "America/Chicago"), ("TX", "America/Chicago"), ("WI", "America/Chicago"),
    ("CO", "America/Denver"), ("MT", "America/Denver"), ("NM", "America/Denver"),
    ("UT", "America/Denver"), ("WY", "America/Denver"),
    ("AZ", "America/Phoenix"),
    ("CA", "America/Los_Angeles"), ("NV", "America/Los_Angeles"), ("WA", "America/Los_Angeles"),
    ("AK", "America/Anchorage"), ("HI", "Pacific/Honolulu"),
    ("PR", "America/Puerto_Rico"), ("VI", "America/Puerto_Rico"),
    ("GU", "Pacific/Guam"), ("MP", "Pacific/Guam"), ("AS", "Pacific/Pago_Pago")]

def splitStates : List String := ["IN", "KY", "TN", "FL", "ID", "OR", "ND", "SD", "NE"]

def isDigitCode (n : Nat) : Bool := decide (48 ≤ n) && decide (n ≤ 57)

namespace Ts

/-- A value of the `iana` field: a text, or what a state names on `Object.prototype`. -/
inductive Iana
  | text (name : String)
  | inherited (property : String)
  deriving DecidableEq, Repr

structure ParsedNumber where
  npa : String
  nxx : String
  mapKey : String
  numberType : NumberType
  libNumber : PhoneNumber

structure ResolveResult where
  iana : Iana
  confidence : Confidence
  source : String
  npa : Option String
  nxx : Option String
  numberType : Option NumberType

structure Caches where
  phoneCodesCache : String → Option String
  overrideCache : String → Option String
  npaOnlyCache : String → Option String
  zipCodesCache : List Nat → Option String
  campaignCache : String → Option CampaignEntry

section

variable {loc : Type} (P : Platform loc)

def parseE164 (phone : String) : Option ParsedNumber :=
  if phone = "" then none
  else
    match P.parse (if phone.toList.head? = some '+' then phone else "+" ++ phone) with
    | none => none
    | some parsed =>
      if parsed.nsn.length < 10 then none
      else
        let npa := String.ofList (parsed.nsn.take 3)
        let nxx := String.ofList ((parsed.nsn.drop 3).take 3)
        some ⟨npa, nxx, npa ++ nxx, parsed.numberType, parsed⟩

def getTimezonesForNumber (parsed : ParsedNumber) : List String := parsed.libNumber.zones

def isValidUSZip (zip : String) : Bool :=
  let units := utf16 zip
  if units.length = 5 then units.all isDigitCode
  else if units.length = 10 then
    (units.take 5).all isDigitCode && decide (units[5]? = some 45) &&
      (units.drop 6).all isDigitCode
  else false

def zipKey (zip : String) : List Nat := (utf16 zip).take 5

/-- The names that every JavaScript object inherits. -/
def objectPrototype : List String :=
  ["constructor", "__defineGetter__", "__defineSetter__", "hasOwnProperty", "__lookupGetter__",
    "__lookupSetter__", "isPrototypeOf", "propertyIsEnumerable", "toString", "valueOf",
    "__proto__", "toLocaleString"]

def stateIana (state : String) : Option Iana :=
  match singleTzStateMap.lookup state with
  | some iana => some (.text iana)
  | none => if state ∈ objectPrototype then some (.inherited state) else none

def loadPhoneCodes (rows : List CodeRow) : String → Option String :=
  rows.foldl (fun fresh row =>
    Function.update fresh (row.areaCode ++ row.exchangeCode) (some row.tzIana)) fun _ => none

def loadNpaOnly (rows : List CodeRow) : String → Option String :=
  rows.foldl (fun npaFresh row =>
    if (npaFresh row.areaCode).isSome then npaFresh
    else Function.update npaFresh row.areaCode (some row.tzIana)) fun _ => none

def loadOverrides (rows : List CodeRow) : String → Option String := loadPhoneCodes rows

def loadZipCodes (rows : List ZipRow) : List Nat → Option String :=
  rows.foldl (fun fresh row => Function.update fresh (zipKey row.zip) (some row.tzIana))
    fun _ => none

def preload (tables : Tables) (campaigns : String → Option CampaignEntry) : Caches where
  phoneCodesCache := loadPhoneCodes tables.phoneCodes
  overrideCache := loadOverrides tables.overrides
  npaOnlyCache := loadNpaOnly tables.phoneCodes
  zipCodesCache := loadZipCodes tables.zipCodes
  campaignCache := campaigns

def campaignDefault (c : Caches) (now : Int) (req : ResolveRequest) : ResolveResult :=
  let parsed := parseE164 P req.phoneE164
  let none' : ResolveResult := ⟨.text "", .none, "none", none, none, none⟩
  if req.campaignId = "" then none'
  else
    match c.campaignCache req.campaignId with
    | none => none'
    | some cc =>
      if now < cc.expiresAt then
        ⟨.text cc.iana, .campaignDefault, "campaign:" ++ req.campaignId, parsed.map (·.npa),
          parsed.map (·.nxx), parsed.map (·.numberType)⟩
      else none'

def stateDefault (c : Caches) (now : Int) (req : ResolveRequest) : ResolveResult :=
  let parsed := parseE164 P req.phoneE164
  if req.state = "" ∨ req.state ∈ splitStates then campaignDefault P c now req
  else
    match stateIana req.state with
    | none => campaignDefault P c now req
    | some iana =>
      ⟨iana, .stateDefault, "state:" ++ req.state, parsed.map (·.npa), parsed.map (·.nxx),
        parsed.map (·.numberType)⟩

def phoneTiers (c : Caches) (now : Int) (req : ResolveRequest) (parsed : ParsedNumber) :
    ResolveResult :=
  let found (iana : String) (confidence : Confidence) (source : String) : ResolveResult :=
    ⟨.text iana, confidence, source, some parsed.npa, some parsed.nxx, some parsed.numberType⟩
  match c.overrideCache parsed.mapKey with
  | some iana => found iana .nxx ("nxx:override:" ++ parsed.npa ++ "-" ++ parsed.nxx)
  | none =>
    match c.phoneCodesCache parsed.mapKey with
    | some iana => found iana .nxx ("nxx:" ++ parsed.npa ++ "-" ++ parsed.nxx)
    | none =>
      match c.npaOnlyCache parsed.npa with
      | some iana => found iana .npa ("npa:" ++ parsed.npa)
      | none =>
        match getTimezonesForNumber parsed with
        | [] => stateDefault P c now req
        | zone :: _ =>
          if P.intlAccepts zone = true then
            found zone .npa ("npa:libphonenumber:" ++ parsed.npa)
          else stateDefault P c now req

def afterZip (c : Caches) (now : Int) (req : ResolveRequest) : ResolveResult :=
  match parseE164 P req.phoneE164 with
  | none => stateDefault P c now req
  | some parsed => phoneTiers P c now req parsed

def afterKnown (c : Caches) (now : Int) (req : ResolveRequest) : ResolveResult :=
  let parsed := parseE164 P req.phoneE164
  if isValidUSZip req.zip = true then
    match c.zipCodesCache (zipKey req.zip) with
    | some iana =>
      ⟨.text iana, .zip, "zip:" ++ req.zip, parsed.map (·.npa), parsed.map (·.nxx),
        parsed.map (·.numberType)⟩
    | none => afterZip P c now req
  else afterZip P c now req

/-- The cascade from tier 1 on. -/
def doResolve (c : Caches) (now : Int) (req : ResolveRequest) : ResolveResult :=
  if req.knownTimezone ≠ "" ∧ P.intlAccepts req.knownTimezone = true then
    ⟨.text req.knownTimezone, .known, "lead.known_timezone", none, none, none⟩
  else afterKnown P c now req

end

end Ts

namespace Go

structure ParsedNumber where
  npa : String
  nxx : String
  npaInt : Nat
  nxxInt : Nat
  key : Nat
  type : NumberType
  raw : PhoneNumber

/-- What a request with no parsed number carries in the place of one. -/
structure NumberInfo where
  npa : String
  nxx : String
  type : NumberType
  deriving DecidableEq, Repr

structure CacheEntry (loc : Type) where
  iana : String
  loc : loc

structure ResolveResult (loc : Type) where
  iana : String
  location : Option loc
  confidence : Confidence
  source : String
  number : NumberInfo

structure Resolver (loc : Type) where
  phoneCodesCache : Nat → Option (CacheEntry loc)
  overrideCache : Nat → Option (CacheEntry loc)
  npaOnlyCache : String → Option (CacheEntry loc)
  zipCodesCache : Nat → Option (CacheEntry loc)
  campaignLRU : String → Option CampaignEntry

def bytes (s : String) : List Nat := (utf8 s).map UInt8.toNat

/-- `strconv.ParseUint(s, 10, 32)` with the error dropped: a text that is no number
gives 0, one that is too large gives the largest number. -/
def parseUintFrom (n : Nat) : List Nat → Nat
  | [] => n
  | b :: rest =>
    if isDigitCode b = true then
      if 4294967295 < n * 10 + (b - 48) then 4294967295
      else parseUintFrom (n * 10 + (b - 48)) rest
    else 0

def parseUint (b : List Nat) : Nat := parseUintFrom 0 b

def codeKey (npa nxx : String) : Nat :=
  (parseUint (bytes npa) * 1000 + parseUint (bytes nxx)) % 4294967296

section

variable {loc : Type} (P : Platform loc)

def safeParsePhone (phone : String) : Option PhoneNumber :=
  P.parse (if phone.toList.head? = some '+' then phone else "+" ++ phone)

def parseE164 (phone : String) : Option ParsedNumber :=
  match safeParsePhone P phone with
  | none => none
  | some parsed =>
    if parsed.nsn.length < 10 then none
    else
      let npa := String.ofList (parsed.nsn.take 3)
      let nxx := String.ofList ((parsed.nsn.drop 3).take 3)
      some ⟨npa, nxx, parseUint (bytes npa), parseUint (bytes nxx), codeKey npa nxx,
        parsed.numberType, parsed⟩

def isValidUSZip (zip : String) : Bool :=
  let b := bytes zip
  if b.length = 5 then b.all isDigitCode
  else if b.length = 10 ∧ b[5]? = some 45 then (b.take 5).all isDigitCode
  else false

/-- Slicing a text of fewer than five bytes panics. -/
def zipKey (zip : String) : Option Nat :=
  if (bytes zip).length < 5 then none else some (parseUint ((bytes zip).take 5))

def loadPhoneCodes (rows : List CodeRow) : Nat → Option (CacheEntry loc) :=
  rows.foldl (fun fresh row =>
    match P.loadLocation row.tzIana with
    | none => fresh
    | some loc =>
      Function.update fresh (codeKey row.areaCode row.exchangeCode) (some ⟨row.tzIana, loc⟩))
    fun _ => none

def loadOverrides (rows : List CodeRow) : Nat → Option (CacheEntry loc) := loadPhoneCodes P rows

def loadNpaOnly (rows : List CodeRow) : String → Option (CacheEntry loc) :=
  rows.foldl (fun npa row =>
    match P.loadLocation row.tzIana with
    | none => npa
    | some loc =>
      if (npa row.areaCode).isSome then npa
      else Function.update npa row.areaCode (some ⟨row.tzIana, loc⟩))
    fun _ => none

def loadZipCodes (rows : List ZipRow) : Option (Nat → Option (CacheEntry loc)) :=
  rows.foldlM (fun fresh row =>
    match P.loadLocation row.tzIana with
    | none => some fresh
    | some loc => (zipKey row.zip).map fun key =>
        Function.update fresh key (some ⟨row.tzIana, loc⟩))
    fun _ => none

def preload (tables : Tables) (campaigns : String → Option CampaignEntry) :
    Option (Resolver loc) :=
  (loadZipCodes P tables.zipCodes).map fun zipCodes =>
    { phoneCodesCache := loadPhoneCodes P tables.phoneCodes
      overrideCache := loadOverrides P tables.overrides
      npaOnlyCache := loadNpaOnly P tables.phoneCodes
      zipCodesCache := zipCodes
      campaignLRU := campaigns }

def parsedInfo : Option ParsedNumber → NumberInfo
  | none => ⟨"", "", .unknown⟩
  | some parsed => ⟨parsed.npa, parsed.nxx, parsed.type⟩

def buildResult (entry : CacheEntry loc) (conf : Confidence) (source : String)
    (parsed : Option ParsedNumber) : ResolveResult loc :=
  ⟨entry.iana, some entry.loc, conf, source, parsedInfo parsed⟩

/-- An entry that has run out is dropped when it is read. -/
def campaignGet (r : Resolver loc) (now : Int) (id : String) : Option String :=
  match r.campaignLRU id with
  | none => none
  | some e => if e.expiresAt < now then none else some e.iana

def campaignDefault (r : Resolver loc) (now : Int) (req : ResolveRequest)
    (parsed : Option ParsedNumber) : ResolveResult loc :=
  let none' : ResolveResult loc := ⟨"", none, .none, "", parsedInfo parsed⟩
  if req.campaignId = "" then none'
  else
    match campaignGet r now req.campaignId with
    | none => none'
    | some iana =>
      if iana = "" then none'
      else
        match P.loadLocation iana with
        | none => none'
        | some loc =>
          ⟨iana, some loc, .campaignDefault, "campaign:" ++ req.campaignId, parsedInfo parsed⟩

def stateDefault (r : Resolver loc) (now : Int) (req : ResolveRequest)
    (parsed : Option ParsedNumber) : ResolveResult loc :=
  if req.state = "" then campaignDefault P r now req parsed
  else
    match singleTzStateMap.lookup req.state with
    | none => campaignDefault P r now req parsed
    | some iana =>
      match P.loadLocation iana with
      | none => campaignDefault P r now req parsed
      | some loc =>
        ⟨iana, some loc, .stateDefault, "state:" ++ req.state, parsedInfo parsed⟩

def phoneTiers (r : Resolver loc) (now : Int) (req : ResolveRequest) (parsed : ParsedNumber) :
    ResolveResult loc :=
  match r.overrideCache parsed.key with
  | some entry =>
    buildResult entry .nxx ("nxx:override:" ++ parsed.npa ++ "-" ++ parsed.nxx) (some parsed)
  | none =>
    match r.phoneCodesCache parsed.key with
    | some entry =>
      buildResult entry .nxx ("nxx:" ++ parsed.npa ++ "-" ++ parsed.nxx) (some parsed)
    | none =>
      match r.npaOnlyCache parsed.npa with
      | some entry => buildResult entry .npa ("npa:" ++ parsed.npa) (some parsed)
      | none =>
        match parsed.raw.zones with
        | [] => stateDefault P r now req (some parsed)
        | zone :: _ =>
          match P.loadLocation zone with
          | some loc =>
            buildResult ⟨zone, loc⟩ .npa ("npa:libphonenumber:" ++ parsed.npa) (some parsed)
          | none => stateDefault P r now req (some parsed)

def afterZip (r : Resolver loc) (now : Int) (req : ResolveRequest)
    (parsed : Option ParsedNumber) : ResolveResult loc :=
  match parsed with
  | none => stateDefault P r now req none
  | some parsed => phoneTiers P r now req parsed

def afterKnown (r : Resolver loc) (now : Int) (req : ResolveRequest) : ResolveResult loc :=
  let parsed := if req.phoneE164 = "" then none else parseE164 P req.phoneE164
  if isValidUSZip req.zip = true then
    match (zipKey req.zip).bind r.zipCodesCache with
    | some entry => buildResult entry .zip ("zip:" ++ req.zip) parsed
    | none => afterZip P r now req parsed
  else afterZip P r now req parsed

/-- The cascade from tier 1 on. -/
def resolve (r : Resolver loc) (now : Int) (req : ResolveRequest) : ResolveResult loc :=
  if req.knownTimezone = "" then afterKnown P r now req
  else
    match P.loadLocation req.knownTimezone with
    | some loc =>
      ⟨req.knownTimezone, some loc, .known, "lead.known_timezone", parsedInfo none⟩
    | none => afterKnown P r now req

end

end Go

end Tz

end Vici2
