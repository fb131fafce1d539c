import Mathlib.Data.List.Perm.Basic
import Mathlib.Logic.Function.Basic
import Vici2.Runs

/-! Refresh tokens and their families in Valkey: the consume script, the issue
at login and after a consume, and the two revocations, which run one command at
a time. -/

namespace Vici2

namespace Refresh

structure FamilyKey where
  tenantId : Int
  familyId : String
  deriving DecidableEq, Repr

structure TokenKey where
  tenantId : Int
  familyId : String
  tokenHash : String
  deriving DecidableEq, Repr

def TokenKey.family (k : TokenKey) : FamilyKey := ⟨k.tenantId, k.familyId⟩

structure UserKey where
  tenantId : Int
  userId : Int
  deriving DecidableEq, Repr

structure TokenRecord where
  userId : Int
  role : String
  deadline : Int
  deriving DecidableEq, Repr

structure FamilySet where
  members : List String
  deadline : Int
  deriving DecidableEq, Repr

/-- The keys of the refresh tokens. A key whose deadline is over does not exist;
the family list of a user has no deadline. -/
structure Valkey where
  now : Int
  tokens : TokenKey → Option TokenRecord
  families : FamilyKey → FamilySet
  users : UserKey → List String

namespace Valkey

def empty : Valkey := ⟨0, fun _ => none, fun _ => ⟨[], 0⟩, fun _ => []⟩

def record (v : Valkey) (k : TokenKey) : Option TokenRecord :=
  (v.tokens k).filter fun r => v.now < r.deadline

def smembers (v : Valkey) (f : FamilyKey) : List String :=
  if v.now < (v.families f).deadline then (v.families f).members else []

def delToken (v : Valkey) (k : TokenKey) : Valkey :=
  { v with tokens := Function.update v.tokens k none }

def sremToken (v : Valkey) (k : TokenKey) : Valkey :=
  let s := v.families k.family
  { v with families := Function.update v.families k.family
            ⟨s.members.filter fun h => h ≠ k.tokenHash, s.deadline⟩ }

def delFamily (v : Valkey) (f : FamilyKey) : Valkey :=
  { v with families := Function.update v.families f ⟨[], 0⟩ }

def sremFamily (v : Valkey) (u : UserKey) (familyId : String) : Valkey :=
  { v with users := Function.update v.users u ((v.users u).filter fun f => f ≠ familyId) }

def delUser (v : Valkey) (u : UserKey) : Valkey :=
  { v with users := Function.update v.users u [] }

def delTokens (v : Valkey) (f : FamilyKey) (hashes : List String) : Valkey :=
  hashes.foldl (fun v h => v.delToken ⟨f.tenantId, f.familyId, h⟩) v

end Valkey

/-- The transaction of `issueRefreshToken`. -/
def issueRefreshToken (v : Valkey) (k : TokenKey) (userId : Int) (role : String) (ttlSec : Int) :
    Valkey :=
  { v with
    tokens := Function.update v.tokens k (some ⟨userId, role, v.now + ttlSec⟩)
    families := Function.update v.families k.family
      ⟨(v.smembers k.family).insert k.tokenHash, v.now + ttlSec⟩
    users := Function.update v.users ⟨k.tenantId, userId⟩
      ((v.users ⟨k.tenantId, userId⟩).insert k.familyId) }

inductive ConsumeResult
  | ok (rec : TokenRecord)
  | reuse (keysRevoked : Nat)
  | notFound
  deriving DecidableEq, Repr

/-- `refresh_consume.v1.lua` -/
def consumeRefreshToken (v : Valkey) (k : TokenKey) (userIdHint : Option Int) :
    ConsumeResult × Valkey :=
  match v.record k with
  | some rec => (.ok rec, (v.delToken k).sremToken k)
  | none =>
    let members := v.smembers k.family
    if members ≠ [] then
      let deleted := members.countP fun h => (v.record ⟨k.tenantId, k.familyId, h⟩).isSome
      let v := (v.delTokens k.family members).delFamily k.family
      (.reuse deleted,
        match userIdHint with
        | some userId => v.sremFamily ⟨k.tenantId, userId⟩ k.familyId
        | none => v)
    else (.notFound, v)

inductive Scope
  | family (familyId : String) (userId : Option Int)
  | user (userId : Int)
  deriving DecidableEq, Repr

/-- The next command of a revocation: the families of a user are read; the
families that remain are to be revoked one by one; or the listed tokens of a
family are to be deleted, and then the family. -/
inductive Stage
  | readUser (userId : Int)
  | families (rest : List String)
  | tokens (familyId : String) (hashes rest : List String)
  deriving DecidableEq, Repr

structure Revocation where
  tenantId : Int
  scope : Scope
  stage : Stage
  deriving DecidableEq, Repr

def revokeFamily (tenantId : Int) (familyId : String) (userId : Option Int) : Revocation :=
  ⟨tenantId, .family familyId userId, .families [familyId]⟩

def revokeAllForUser (tenantId userId : Int) : Revocation :=
  ⟨tenantId, .user userId, .readUser userId⟩

/-- A set is read in any order. -/
def readOrder (order members : List String) : List String :=
  if order.isPerm members then order else members

def endsWithFamily : Scope → Bool
  | .family _ none => true
  | _ => false

/-- One command of a revocation; without a next stage it has completed. -/
def Revocation.advance (r : Revocation) (v : Valkey) (order : List String) :
    Valkey × Option Stage :=
  match r.stage with
  | .readUser userId => (v, some (.families (readOrder order (v.users ⟨r.tenantId, userId⟩))))
  | .families (f :: rest) =>
    (v, some (.tokens f (readOrder order (v.smembers ⟨r.tenantId, f⟩)) rest))
  | .tokens f (h :: hashes) rest => (v.delToken ⟨r.tenantId, f, h⟩, some (.tokens f hashes rest))
  | .tokens f [] rest =>
    (v.delFamily ⟨r.tenantId, f⟩,
      if rest = [] ∧ endsWithFamily r.scope then none else some (.families rest))
  | .families [] =>
    match r.scope with
    | .user userId => (v.delUser ⟨r.tenantId, userId⟩, none)
    | .family f (some userId) => (v.sremFamily ⟨r.tenantId, userId⟩ f, none)
    | .family _ none => (v, none)

/-- A refresh request between its consume and its issue. -/
structure PendingRefresh where
  family : FamilyKey
  userId : Int
  deriving DecidableEq, Repr

/-- The keys, the requests and revocations under way, and the history: the
families created and their users, the token hashes drawn, the tokens accepted
and the families that must not be accepted any more. -/
structure World where
  valkey : Valkey
  pending : List PendingRefresh
  revocations : List Revocation
  created : List (FamilyKey × Int)
  drawn : List String
  accepted : List TokenKey
  condemned : List FamilyKey

def World.empty : World := ⟨Valkey.empty, [], [], [], [], [], []⟩

inductive Action
  | login (userId : Int) (role : String) (ttlSec : Int) (familyId tokenHash : String)
  | request (k : TokenKey)
  | reissue (i : Nat) (role : String) (ttlSec : Int) (tokenHash : String)
  | giveUp (i : Nat)
  | revokeFamily (tenantId : Int) (familyId : String) (userId : Option Int)
  | revokeAllForUser (tenantId userId : Int)
  | advance (i : Nat) (order : List String)
  | abandon (i : Nat)
  | tick (seconds : Nat)

/-- The refresh route up to the issue; `none` for a request that is answered at
once. -/
def consumed (k : TokenKey) : ConsumeResult → Option PendingRefresh
  | .ok rec => if rec.userId = 0 ∨ rec.role = "" then none else some ⟨k.family, rec.userId⟩
  | .reuse _ => none
  | .notFound => none

def accepts (w : World) (k : TokenKey) : Prop := (w.valkey.record k).isSome = true

instance (w : World) (k : TokenKey) : Decidable (accepts w k) :=
  inferInstanceAs (Decidable (_ = true))

def Revocation.condemns (r : Revocation) (created : List (FamilyKey × Int)) : List FamilyKey :=
  match r.scope with
  | .family f _ => (created.map Prod.fst).filter fun k => k = ⟨r.tenantId, f⟩
  | .user userId =>
    (created.filter fun c => c.1.tenantId = r.tenantId ∧ c.2 = userId).map Prod.fst

/-- A step of the login route, the refresh route or a revocation, for users of
the given tenants. -/
def step (tenantOf : Int → Int) (w : World) : Action → World
  | .login userId role ttlSec familyId tokenHash =>
    let k : TokenKey := ⟨tenantOf userId, familyId, tokenHash⟩
    { w with
      valkey := issueRefreshToken w.valkey k userId role ttlSec
      created := (k.family, userId) :: w.created
      drawn := tokenHash :: w.drawn }
  | .request k =>
    let r := consumeRefreshToken w.valkey k none
    { w with
      valkey := r.2
      pending := w.pending ++ (consumed k r.1).toList
      accepted := if accepts w k then k :: w.accepted else w.accepted
      condemned := if k ∈ w.accepted then k.family :: w.condemned else w.condemned }
  | .reissue i role ttlSec tokenHash =>
    match w.pending[i]? with
    | none => w
    | some p =>
      { w with
        valkey := issueRefreshToken w.valkey ⟨tenantOf p.userId, p.family.familyId, tokenHash⟩
          p.userId role ttlSec
        pending := w.pending.eraseIdx i
        drawn := tokenHash :: w.drawn }
  | .giveUp i => { w with pending := w.pending.eraseIdx i }
  | .revokeFamily tenantId familyId userId =>
    { w with revocations := w.revocations ++ [Refresh.revokeFamily tenantId familyId userId] }
  | .revokeAllForUser tenantId userId =>
    { w with revocations := w.revocations ++ [Refresh.revokeAllForUser tenantId userId] }
  | .advance i order =>
    match w.revocations[i]? with
    | none => w
    | some r =>
      match r.advance w.valkey order with
      | (v, some stage) =>
        { w with
          valkey := v
          revocations := w.revocations.set i { r with stage := stage } }
      | (v, none) =>
        { w with
          valkey := v
          revocations := w.revocations.eraseIdx i
          condemned := r.condemns w.created ++ w.condemned }
  | .abandon i => { w with revocations := w.revocations.eraseIdx i }
  | .tick seconds => { w with valkey := { w.valkey with now := w.valkey.now + seconds } }

/-- A token is accepted for the first time, and not in a condemned family. -/
def Sound (w : World) : Action → Prop
  | .request k => accepts w k → (∀ a ∈ w.accepted, a.tokenHash ≠ k.tokenHash) ∧
      k.family ∉ w.condemned
  | _ => True

instance (w : World) : (a : Action) → Decidable (Sound w a)
  | .request k => inferInstanceAs (Decidable (accepts w k →
      (∀ a ∈ w.accepted, a.tokenHash ≠ k.tokenHash) ∧ k.family ∉ w.condemned))
  | .login .. => inferInstanceAs (Decidable True)
  | .reissue .. => inferInstanceAs (Decidable True)
  | .giveUp _ => inferInstanceAs (Decidable True)
  | .revokeFamily .. => inferInstanceAs (Decidable True)
  | .revokeAllForUser .. => inferInstanceAs (Decidable True)
  | .advance .. => inferInstanceAs (Decidable True)
  | .abandon _ => inferInstanceAs (Decidable True)
  | .tick _ => inferInstanceAs (Decidable True)

def Scope.names (familyId : String) : Scope → Bool
  | .family f _ => f = familyId
  | .user _ => false

/-- What the random generators give is new: no token hash drawn before, no
family id created or named in a revocation under way. -/
def Fresh (w : World) : Action → Prop
  | .login _ _ _ familyId tokenHash =>
    tokenHash ∉ w.drawn ∧ (∀ c ∈ w.created, c.1.familyId ≠ familyId) ∧
      ∀ r ∈ w.revocations, r.scope.names familyId = false
  | .reissue _ _ _ tokenHash => tokenHash ∉ w.drawn
  | _ => True

instance (w : World) : (a : Action) → Decidable (Fresh w a)
  | .login _ _ _ familyId tokenHash => inferInstanceAs (Decidable
      (tokenHash ∉ w.drawn ∧ (∀ c ∈ w.created, c.1.familyId ≠ familyId) ∧
        ∀ r ∈ w.revocations, r.scope.names familyId = false))
  | .request _ => inferInstanceAs (Decidable True)
  | .reissue _ _ _ tokenHash => inferInstanceAs (Decidable (tokenHash ∉ w.drawn))
  | .giveUp _ => inferInstanceAs (Decidable True)
  | .revokeFamily .. => inferInstanceAs (Decidable True)
  | .revokeAllForUser .. => inferInstanceAs (Decidable True)
  | .advance .. => inferInstanceAs (Decidable True)
  | .abandon _ => inferInstanceAs (Decidable True)
  | .tick _ => inferInstanceAs (Decidable True)

def Scope.Includes (familyId : String) (userId : Int) : Scope → Prop
  | .family f _ => f = familyId
  | .user u => u = userId

instance (familyId : String) (userId : Int) : (sc : Scope) → Decidable (sc.Includes familyId userId)
  | .family f _ => inferInstanceAs (Decidable (f = familyId))
  | .user u => inferInstanceAs (Decidable (u = userId))

/-- The revocation is about tokens of the family, which belongs to the user. -/
def Revocation.About (r : Revocation) (f : FamilyKey) (userId : Int) : Prop :=
  r.tenantId = f.tenantId ∧ r.scope.Includes f.familyId userId

instance (r : Revocation) (f : FamilyKey) (userId : Int) : Decidable (r.About f userId) :=
  inferInstanceAs (Decidable (_ ∧ _))

/-- The revocation has yet to read the members of the family. -/
def Stage.WillRead (familyId : String) : Stage → Prop
  | .readUser _ => True
  | .families rest => familyId ∈ rest
  | .tokens _ _ rest => familyId ∈ rest

instance (familyId : String) : (st : Stage) → Decidable (st.WillRead familyId)
  | .readUser _ => inferInstanceAs (Decidable True)
  | .families rest => inferInstanceAs (Decidable (familyId ∈ rest))
  | .tokens _ _ rest => inferInstanceAs (Decidable (familyId ∈ rest))

/-- A refresh issues its new token only while its family has neither been
condemned since the consume nor been read by a revocation under way; and no login
of a user falls into a revocation of the user that has read the user's families. -/
def InTime (tenantOf : Int → Int) (w : World) : Action → Prop
  | .login userId _ _ familyId _ =>
    ∀ r ∈ w.revocations, r.About ⟨tenantOf userId, familyId⟩ userId → r.stage = .readUser userId
  | .reissue i _ _ _ =>
    ∀ p ∈ w.pending[i]?, p.family ∉ w.condemned ∧
      ∀ r ∈ w.revocations, r.About p.family p.userId → r.stage.WillRead p.family.familyId
  | _ => True

instance (tenantOf : Int → Int) (w : World) : (a : Action) → Decidable (InTime tenantOf w a)
  | .login userId _ _ familyId _ => inferInstanceAs (Decidable
      (∀ r ∈ w.revocations, r.About ⟨tenantOf userId, familyId⟩ userId →
        r.stage = .readUser userId))
  | .request _ => inferInstanceAs (Decidable True)
  | .reissue i _ _ _ => inferInstanceAs (Decidable
      (∀ p ∈ w.pending[i]?, p.family ∉ w.condemned ∧
        ∀ r ∈ w.revocations, r.About p.family p.userId → r.stage.WillRead p.family.familyId))
  | .giveUp _ => inferInstanceAs (Decidable True)
  | .revokeFamily .. => inferInstanceAs (Decidable True)
  | .revokeAllForUser .. => inferInstanceAs (Decidable True)
  | .advance .. => inferInstanceAs (Decidable True)
  | .abandon _ => inferInstanceAs (Decidable True)
  | .tick _ => inferInstanceAs (Decidable True)

end Refresh

end Vici2
