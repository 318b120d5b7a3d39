import Patom.Foundation.Journal
import Patom.Foundation.Table
import Patom.Foundation.Transition
import Patom.Types

open Patom.Auth
open Patom.Foundation

namespace Patom.Orgs

def MAX_INVITE_BATCH : Nat := 25

inductive OrgError
  | lastOwnerProtected
  | notFound
  | inviteExpired
  | inviteAlreadyConsumed
  | inviteBatchTooLarge (max got : Nat)
  | db (constraint : String)
  deriving DecidableEq

structure OrgMember where
  orgId : OrgId
  userId : UserId
  role : Role
  deriving DecidableEq

instance memberKeyed : Keyed OrgMember (OrgId × UserId) := ⟨fun m => (m.orgId, m.userId)⟩

structure Invite where
  id : InviteId
  orgId : OrgId
  email : Email
  role : Role
  tokenHash : TokenHash
  createdAt : Time
  expiresAt : Time
  consumedAt : Option Time
  deriving DecidableEq

instance inviteKeyed : Keyed Invite InviteId := ⟨Invite.id⟩

structure OrgDb where
  members : Table OrgMember
  invites : Table Invite
  tokenHashIdx : ∀ r ∈ invites, ∀ r' ∈ invites, r.tokenHash = r'.tokenHash → r = r'

/-- How the database compares addresses: the folding of `CITEXT`, and its `=` against a text. -/
structure Collation where
  fold : Email → String
  eq : Email → Email → Bool

structure IssuedInvite where
  inviteId : InviteId
  email : Email
  role : Role
  token : InviteToken
  expiresAt : Time
  deriving DecidableEq

structure AcceptedInvite where
  orgId : OrgId
  role : Role
  deriving DecidableEq

section Members

variable (members : Table OrgMember) (org : OrgId) (user : UserId) (newRole : Option Role)

def countOwners : Nat := members.rows.countP fun m => m.orgId = org && m.role = .owner

def guardTarget : Except OrgError Bool :=
  match members.find? (org, user) with
  | none => .error .notFound
  | some ⟨_, _, .owner⟩ => .ok (newRole ≠ some .owner)
  | some _ => .ok false

def guardCount : Except OrgError Unit :=
  if countOwners members org ≤ 1 then .error .lastOwnerProtected else .ok ()

def lastOwnerGuard : Except OrgError Unit := do
  if ← guardTarget members org user newRole then guardCount members org

def writeMember : Except OrgError (Table OrgMember) :=
  match members.find? (org, user) with
  | none => .error .notFound
  | some m =>
    match newRole with
    | some role => .ok (members.put { m with role })
    | none => .ok (members.delete fun m => m.orgId = org && m.userId = user)

end Members

theorem OrgDb.tokenHashIdx_empty : ∀ r ∈ (Table.empty : Table Invite), ∀ r' ∈ Table.empty,
    r.tokenHash = r'.tokenHash → r = r' :=
  fun r hr => absurd hr (Table.not_mem_empty r)

theorem OrgDb.tokenHashIdx_put {invites : Table Invite}
    (h : ∀ r ∈ invites, ∀ r' ∈ invites, r.tokenHash = r'.tokenHash → r = r') {row : Invite}
    (hnew : ∀ r ∈ invites, r.tokenHash = row.tokenHash → r.id = row.id) :
    ∀ r ∈ invites.put row, ∀ r' ∈ invites.put row, r.tokenHash = r'.tokenHash → r = r' := by
  intro r hr r' hr' e
  obtain hrow | ⟨hr, hne⟩ := Table.mem_put.mp hr <;>
    obtain hrow' | ⟨hr', hne'⟩ := Table.mem_put.mp hr'
  · rw [hrow, hrow']
  · exact absurd (hnew r' hr' (by rw [← e, hrow])) hne'
  · exact absurd (hnew r hr (by rw [e, hrow'])) hne
  · exact h r hr r' hr' e

def OrgDb.putInvite (db : OrgDb) (row : Invite) : Except OrgError OrgDb :=
  if h : ∀ r ∈ db.invites, r.tokenHash = row.tokenHash → r.id = row.id then
    .ok { db with
      invites := db.invites.put row
      tokenHashIdx := OrgDb.tokenHashIdx_put db.tokenHashIdx h }
  else .error (.db "org_invites_token_hash_idx")

section Issuing

variable (collation : Collation) (hashToken : InviteToken → TokenHash)

def OrgDb.pendingInvite (db : OrgDb) (org : OrgId) (email : Email) : Option Invite :=
  db.invites.rows.find? fun r =>
    r.orgId = org && collation.fold r.email = collation.fold email && r.consumedAt.isNone

structure Mint where
  email : Email
  id : InviteId
  token : InviteToken
  deriving DecidableEq

/-- Rotates the pending invite of an address, or adds one. -/
def upsertInvite (org : OrgId) (role : Role) (now expiresAt : Time) (mint : Mint) (db : OrgDb) :
    Except OrgError (IssuedInvite × OrgDb) :=
  let tokenHash := hashToken mint.token
  match db.pendingInvite collation org mint.email with
  | some r => do
    let db ← db.putInvite { r with role, tokenHash, createdAt := now, expiresAt }
    return (⟨r.id, mint.email, role, mint.token, expiresAt⟩, db)
  | none =>
    if (db.invites.find? mint.id).isSome then .error (.db "org_invites_pkey")
    else do
      let db ← db.putInvite ⟨mint.id, org, mint.email, role, tokenHash, now, expiresAt, none⟩
      return (⟨mint.id, mint.email, role, mint.token, expiresAt⟩, db)

def upsertInvites (org : OrgId) (role : Role) (now expiresAt : Time) :
    List Mint → OrgDb → Except OrgError (List IssuedInvite × OrgDb)
  | [], db => .ok ([], db)
  | mint :: mints, db => do
    let (issued, db) ← upsertInvite collation hashToken org role now expiresAt mint db
    let (rest, db) ← upsertInvites org role now expiresAt mints db
    return (issued :: rest, db)

def createInvites (org : OrgId) (mints : List Mint) (role : Role) (now : Time) (ttl : Duration)
    (db : OrgDb) : Except OrgError (List IssuedInvite × OrgDb) :=
  if MAX_INVITE_BATCH < mints.length then
    .error (.inviteBatchTooLarge MAX_INVITE_BATCH mints.length)
  else upsertInvites collation hashToken org role now (now + ttl) mints db

def resendInvite (org : OrgId) (id : InviteId) (token : InviteToken) (now : Time) (ttl : Duration)
    (db : OrgDb) : Except OrgError (IssuedInvite × OrgDb) :=
  match db.invites.find? id with
  | none => .error .notFound
  | some r =>
    if r.orgId = org ∧ r.consumedAt = none then do
      let expiresAt := now + ttl
      let db ← db.putInvite { r with tokenHash := hashToken token, createdAt := now, expiresAt }
      return (⟨id, r.email, r.role, token, expiresAt⟩, db)
    else .error .notFound

def OrgDb.deleteInvite (db : OrgDb) (id : InviteId) : OrgDb where
  members := db.members
  invites := db.invites.delete fun r => r.id = id
  tokenHashIdx r hr r' hr' :=
    db.tokenHashIdx r (Table.mem_delete.mp hr).1 r' (Table.mem_delete.mp hr').1

def revokeInvite (org : OrgId) (id : InviteId) (db : OrgDb) : Except OrgError OrgDb :=
  match db.invites.find? id with
  | none => .error .notFound
  | some r => if r.orgId = org then .ok (db.deleteInvite id) else .error .notFound

/-- What `join_pending_invites` finds for an address, the oldest invite first. -/
def pendingInvites (email : Email) (now : Time) (db : OrgDb) : List Invite :=
  inOrder Invite.createdAt (db.invites.rows.filter fun r =>
    collation.eq r.email email && r.consumedAt.isNone && now < r.expiresAt)

end Issuing

/-- The lookup of `accept_invite`, and what it checks of the row. -/
def findInvite (tokenHash : TokenHash) (now : Time) (db : OrgDb) : Except OrgError Invite :=
  match db.invites.rows.find? fun r => r.tokenHash = tokenHash with
  | none => .error .notFound
  | some r =>
    if r.consumedAt.isSome then .error .inviteAlreadyConsumed
    else if r.expiresAt ≤ now then .error .inviteExpired
    else .ok r

def Invite.consume (id : InviteId) (now : Time) (r : Invite) : Invite :=
  if r.id = id then { r with consumedAt := some now } else r

@[simp] theorem Invite.consume_id (id : InviteId) (now : Time) (r : Invite) :
    (r.consume id now).id = r.id := by
  unfold consume
  split <;> rfl

@[simp] theorem Invite.consume_tokenHash (id : InviteId) (now : Time) (r : Invite) :
    (r.consume id now).tokenHash = r.tokenHash := by
  unfold consume
  split <;> rfl

@[simp] theorem Invite.consume_role (id : InviteId) (now : Time) (r : Invite) :
    (r.consume id now).role = r.role := by
  unfold consume
  split <;> rfl

theorem Invite.consume_ne_none {id : InviteId} {now : Time} {r : Invite} (h : r.consumedAt ≠ none) :
    (r.consume id now).consumedAt ≠ none := by
  unfold consume
  split
  · exact Option.some_ne_none now
  · exact h

theorem Invite.consume_self {now : Time} {r : Invite} : (r.consume r.id now).consumedAt ≠ none := by
  rw [consume, if_pos rfl]
  exact Option.some_ne_none now

def OrgDb.consumeInvite (db : OrgDb) (id : InviteId) (now : Time) : OrgDb where
  members := db.members
  invites := db.invites.modify (Invite.consume id now) (Invite.consume_id id now)
  tokenHashIdx := by
    intro r hr r' hr' e
    obtain ⟨x, hx, rfl⟩ := Table.mem_modify.mp hr
    obtain ⟨y, hy, rfl⟩ := Table.mem_modify.mp hr'
    rw [Invite.consume_tokenHash, Invite.consume_tokenHash] at e
    rw [db.tokenHashIdx x hx y hy e]

/-- `UPDATE … WHERE id AND consumed_at IS NULL`: the row that is claimed, as it was. -/
def OrgDb.claimInvite (db : OrgDb) (id : InviteId) (now : Time) : Option (Invite × OrgDb) :=
  match db.invites.find? id with
  | none => none
  | some r => if r.consumedAt.isNone then some (r, db.consumeInvite id now) else none

def OrgDb.addMember (db : OrgDb) (m : OrgMember) : OrgDb :=
  { db with members := db.members.addNew m }

/-! The transactions of the workspace settings under `READ COMMITTED`: every read sees what is
committed when it is sent, and a row that is written stays locked until the commit. -/

abbrev TxId := Nat

/-- What an open transaction has still to send. -/
inductive Rest
  | count (org : OrgId) (user : UserId) (newRole : Option Role)
  | write (org : OrgId) (user : UserId) (newRole : Option Role)
  | claim (user : UserId) (row : Invite) (now : Time)
  | claimAll (user : UserId) (rows : List Invite) (already : List OrgId) (now : Time)

structure Tx where
  id : TxId
  rest : Rest

instance txKeyed : Keyed Tx TxId := ⟨Tx.id⟩

inductive Reply
  | done
  | accepted (invite : AcceptedInvite)
  | active (org : Option OrgId)
  | issued (invites : List IssuedInvite)
  deriving DecidableEq

structure Admission where
  token : TokenHash
  invite : Invite
  userId : UserId
  granted : Option Role
  deriving DecidableEq

/-- The database, with every token that was ever issued and every invite that was ever claimed. -/
structure State where
  db : OrgDb
  txs : Table Tx
  issued : List TokenHash
  admissions : List Admission
  replies : List (TxId × Except OrgError Reply)

def State.start (db : OrgDb) : State where
  db := db
  txs := .empty
  issued := db.invites.rows.map Invite.tokenHash
  admissions := []
  replies := []

inductive OrgAct
  | changeRole (id : TxId) (org : OrgId) (user : UserId) (newRole : Role)
  | removeMember (id : TxId) (org : OrgId) (user : UserId)
  | countOwners (id : TxId)
  | acceptInvite (id : TxId) (user : UserId) (token : InviteToken) (now : Time)
  | joinPendingInvites (id : TxId) (user : UserId) (email : Email) (now : Time)
  | insertMember (id : TxId) (org : OrgId)
  | commit (id : TxId)
  | rollback (id : TxId)
  | createInvites (id : TxId) (org : OrgId) (mints : List Mint) (role : Role) (now : Time)
      (ttl : Duration)
  | resendInvite (id : TxId) (org : OrgId) (invite : InviteId) (token : InviteToken) (now : Time)
      (ttl : Duration)
  | revokeInvite (id : TxId) (org : OrgId) (invite : InviteId)

def guardFirst (members : Table OrgMember) (org : OrgId) (user : UserId) (newRole : Option Role) :
    Except OrgError Rest :=
  (guardTarget members org user newRole).map fun counts =>
    if counts then .count org user newRole else .write org user newRole

namespace State

variable (s : State)

def finish (id : TxId) (reply : Except OrgError Reply) : State :=
  { s with
    txs := s.txs.delete fun tx => tx.id = id
    replies := s.replies ++ [(id, reply)] }

def go (id : TxId) (rest : Rest) : State := { s with txs := s.txs.put ⟨id, rest⟩ }

def begin (id : TxId) (first : Except OrgError Rest) : Option State :=
  if (s.txs.find? id).isSome then none
  else
    match first with
    | .ok rest => some (s.go id rest)
    | .error e => some (s.finish id (.error e))

/-- A transaction of writes alone; the tokens minted for it are random, so none comes twice. -/
def write (id : TxId) (minted : List TokenHash) (result : Except OrgError (Reply × OrgDb)) :
    Option State :=
  if (s.txs.find? id).isSome ∨ ¬ minted.Nodup ∨ minted.any (· ∈ s.issued) then none
  else
    match result with
    | .ok (reply, db) => some ({ s with db, issued := s.issued ++ minted }.finish id (.ok reply))
    | .error e => some ({ s with issued := s.issued ++ minted }.finish id (.error e))

/-- The claim of an invite that was read before, and the membership. A user who is found to be a
member, now or by an `INSERT` before, is not made one. -/
def enrol (user : UserId) (row : Invite) (already : List OrgId) (token : Option TokenHash)
    (now : Time) : Option State :=
  (s.db.claimInvite row.id now).map fun (invite, db) =>
    let member := (s.db.members.find? (row.orgId, user)).isSome
    let granted := if row.orgId ∈ already ∨ member then none else some row.role
    { s with
      db := if row.orgId ∈ already then db else db.addMember ⟨row.orgId, user, row.role⟩
      admissions := s.admissions ++ [⟨token.getD invite.tokenHash, invite, user, granted⟩] }

def enrolAll (user : UserId) (already : List OrgId) (now : Time) :
    List Invite → Option OrgId → State → Option OrgId × State
  | [], active, s => (active, s)
  | row :: rows, active, s =>
    match s.enrol user row already none now with
    | none => enrolAll user already now rows active s
    | some s => enrolAll user already now rows (active.or (some row.orgId)) s

def effectiveRole (user : UserId) (row : Invite) : Role :=
  (s.db.members.find? (row.orgId, user)).elim row.role OrgMember.role

def commit (id : TxId) : Rest → Option State
  | .count .. => none
  | .write org user newRole =>
    match writeMember s.db.members org user newRole with
    | .ok members => some ({ s with db := { s.db with members } }.finish id (.ok .done))
    | .error e => some (s.finish id (.error e))
  | .claim user row now =>
    match s.enrol user row [] (some row.tokenHash) now with
    | none => some (s.finish id (.error .inviteAlreadyConsumed))
    | some t => some (t.finish id (.ok (.accepted ⟨row.orgId, t.effectiveRole user row⟩)))
  | .claimAll user rows already now =>
    let (active, t) := enrolAll user already now rows none s
    some (t.finish id (.ok (.active active)))

end State

section Steps

variable (collation : Collation) (hashToken : InviteToken → TokenHash)

def orgStep : Step State OrgAct
  | s, .changeRole id org user newRole =>
    s.begin id (guardFirst s.db.members org user (some newRole))
  | s, .removeMember id org user => s.begin id (guardFirst s.db.members org user none)
  | s, .countOwners id =>
    match s.txs.find? id with
    | some ⟨_, .count org user newRole⟩ =>
      match guardCount s.db.members org with
      | .ok () => some (s.go id (.write org user newRole))
      | .error e => some (s.finish id (.error e))
    | _ => none
  | s, .acceptInvite id user token now =>
    s.begin id ((findInvite (hashToken token) now s.db).map fun row => .claim user row now)
  | s, .joinPendingInvites id user email now =>
    s.begin id (.ok (.claimAll user (pendingInvites collation email now s.db) [] now))
  | s, .insertMember id org =>
    match s.txs.find? id with
    | some ⟨_, .claimAll user rows already now⟩ =>
      if (s.db.members.find? (org, user)).isSome then
        some (s.go id (.claimAll user rows (org :: already) now))
      else none
    | _ => none
  | s, .commit id => (s.txs.find? id).bind fun tx => s.commit id tx.rest
  | s, .rollback id => some { s with txs := s.txs.delete fun tx => tx.id = id }
  | s, .createInvites id org mints role now ttl =>
    s.write id (mints.map fun mint => hashToken mint.token)
      ((createInvites collation hashToken org mints role now ttl s.db).map fun (issued, db) =>
        (.issued issued, db))
  | s, .resendInvite id org invite token now ttl =>
    s.write id [hashToken token]
      ((resendInvite hashToken org invite token now ttl s.db).map fun (issued, db) =>
        (.issued [issued], db))
  | s, .revokeInvite id org invite =>
    s.write id [] ((revokeInvite org invite s.db).map fun db => (.done, db))

end Steps

structure Writes (minted : List TokenHash) (db db' : OrgDb) : Prop where
  members : db'.members = db.members
  invites : ∀ r ∈ db'.invites, r ∈ db.invites ∨ r.tokenHash ∈ minted

section Statements

variable {db db' : OrgDb} {minted : List TokenHash}

theorem Writes.mono {minted' : List TokenHash} (h : Writes minted db db')
    (hsub : ∀ hash ∈ minted, hash ∈ minted') : Writes minted' db db' :=
  ⟨h.members, fun r hr => (h.invites r hr).imp_right (hsub _)⟩

theorem Writes.trans {db'' : OrgDb} (h : Writes minted db db') (k : Writes minted db' db'') :
    Writes minted db db'' := by
  refine ⟨k.members.trans h.members, fun r hr => ?_⟩
  obtain hr | hr := k.invites r hr
  · exact h.invites r hr
  · exact .inr hr

theorem OrgDb.putInvite_eq_ok {row : Invite} (h : db.putInvite row = .ok db') :
    db'.members = db.members ∧ db'.invites = db.invites.put row := by
  unfold putInvite at h
  split at h
  · cases h
    exact ⟨rfl, rfl⟩
  · cases h

theorem OrgDb.writes_putInvite {row : Invite} (h : db.putInvite row = .ok db') :
    Writes [row.tokenHash] db db' := by
  obtain ⟨hmembers, hinvites⟩ := putInvite_eq_ok h
  refine ⟨hmembers, fun r hr => ?_⟩
  rw [hinvites] at hr
  obtain rfl | ⟨hr, -⟩ := Table.mem_put.mp hr
  · exact .inr (List.mem_singleton.mpr rfl)
  · exact .inl hr

variable {collation : Collation} {hashToken : InviteToken → TokenHash} {org : OrgId} {role : Role}
  {now expiresAt : Time} {ttl : Duration}

theorem upsertInvite_writes {mint : Mint} {issued : IssuedInvite}
    (h : upsertInvite collation hashToken org role now expiresAt mint db = .ok (issued, db')) :
    Writes [hashToken mint.token] db db' := by
  unfold upsertInvite at h
  dsimp only at h
  split at h
  · obtain ⟨db₁, hput, h⟩ := bind_eq_ok.mp h
    cases h
    exact OrgDb.writes_putInvite hput
  · split at h
    · cases h
    · obtain ⟨db₁, hput, h⟩ := bind_eq_ok.mp h
      cases h
      exact OrgDb.writes_putInvite hput

theorem upsertInvites_writes {mints : List Mint} {issued : List IssuedInvite}
    (h : upsertInvites collation hashToken org role now expiresAt mints db = .ok (issued, db')) :
    Writes (mints.map fun mint => hashToken mint.token) db db' := by
  induction mints generalizing db issued with
  | nil =>
    cases h
    exact ⟨rfl, fun r hr => .inl hr⟩
  | cons mint mints ih =>
    obtain ⟨⟨first, db₁⟩, hfirst, h⟩ := bind_eq_ok.mp h
    obtain ⟨⟨rest, db₂⟩, hrest, h⟩ := bind_eq_ok.mp h
    cases h
    refine Writes.trans ((upsertInvite_writes hfirst).mono fun hash hhash => ?_)
      ((ih hrest).mono fun hash hhash => List.mem_cons_of_mem _ hhash)
    rw [List.mem_singleton.mp hhash]
    exact List.mem_cons_self

theorem createInvites_writes {mints : List Mint} {issued : List IssuedInvite}
    (h : createInvites collation hashToken org mints role now ttl db = .ok (issued, db')) :
    Writes (mints.map fun mint => hashToken mint.token) db db' := by
  unfold createInvites at h
  split at h
  · cases h
  · exact upsertInvites_writes h

theorem resendInvite_writes {id : InviteId} {token : InviteToken} {issued : IssuedInvite}
    (h : resendInvite hashToken org id token now ttl db = .ok (issued, db')) :
    Writes [hashToken token] db db' := by
  unfold resendInvite at h
  split at h
  · cases h
  · split at h
    · obtain ⟨db₁, hput, h⟩ := bind_eq_ok.mp h
      cases h
      exact OrgDb.writes_putInvite hput
    · cases h

theorem revokeInvite_writes {id : InviteId} (h : revokeInvite org id db = .ok db') :
    Writes [] db db' := by
  unfold revokeInvite at h
  split at h
  · cases h
  · split at h
    · cases h
      exact ⟨rfl, fun r hr => .inl (Table.mem_delete.mp hr).1⟩
    · cases h

theorem OrgDb.claimInvite_eq_some {id : InviteId} {invite : Invite}
    (h : db.claimInvite id now = some (invite, db')) :
    db.invites.find? id = some invite ∧ invite.consumedAt = none ∧
      db' = db.consumeInvite id now := by
  unfold claimInvite at h
  split at h
  · cases h
  · next r hr =>
    split at h
    · next hpending =>
      cases h
      exact ⟨hr, Option.isNone_iff_eq_none.mp hpending, rfl⟩
    · cases h

theorem OrgDb.claimInvite_eq_none {id : InviteId} (h : db.claimInvite id now = none) :
    ∀ invite ∈ db.invites.find? id, invite.consumedAt ≠ none := by
  intro invite hinvite hpending
  rw [claimInvite, show db.invites.find? id = some invite from hinvite] at h
  simp [hpending] at h

theorem OrgDb.mem_consumeInvite {id : InviteId} {r : Invite} :
    r ∈ (db.consumeInvite id now).invites ↔ ∃ r' ∈ db.invites, r'.consume id now = r := by
  rw [consumeInvite, Table.mem_modify]

theorem findInvite_eq_ok {tokenHash : TokenHash} {row : Invite}
    (h : findInvite tokenHash now db = .ok row) :
    row ∈ db.invites ∧ row.tokenHash = tokenHash := by
  unfold findInvite at h
  split at h
  · cases h
  · next r hr =>
    split at h
    · cases h
    · split at h
      · cases h
      · cases h
        exact ⟨List.mem_of_find?_eq_some hr, by simpa using List.find?_some hr⟩

end Statements

section Steps

variable {collation : Collation} {hashToken : InviteToken → TokenHash} {s t : State} {id : TxId}

theorem State.begin_eq_some {first : Except OrgError Rest} (h : s.begin id first = some t) :
    (∃ rest, first = .ok rest ∧ t = s.go id rest) ∨ ∃ e, t = s.finish id (.error e) := by
  unfold begin at h
  split at h
  · cases h
  · cases first with
    | ok rest =>
      cases h
      exact .inl ⟨rest, rfl, rfl⟩
    | error e =>
      cases h
      exact .inr ⟨e, rfl⟩

theorem State.write_eq_some {minted : List TokenHash} {result : Except OrgError (Reply × OrgDb)}
    (hwrites : ∀ reply db, result = .ok (reply, db) → Writes minted s.db db)
    (h : s.write id minted result = some t) :
    (∀ hash ∈ minted, hash ∉ s.issued) ∧ Writes minted s.db t.db ∧
      ∃ reply, t = State.finish { s with db := t.db, issued := s.issued ++ minted } id reply := by
  unfold write at h
  split at h
  · cases h
  · next hfresh =>
    have hunused : ∀ hash ∈ minted, hash ∉ s.issued := fun hash hminted hissued =>
      hfresh (.inr (.inr (List.any_eq_true.mpr ⟨hash, hminted, decide_eq_true hissued⟩)))
    refine ⟨hunused, ?_⟩
    cases result with
    | ok result =>
      cases h
      exact ⟨hwrites _ _ rfl, _, rfl⟩
    | error e =>
      cases h
      exact ⟨⟨rfl, fun r hr => .inl hr⟩, _, rfl⟩

inductive Effect (s : State) : OrgAct → State → Prop
  | idle {a : OrgAct} {t : State} (db : t.db = s.db) (issued : t.issued = s.issued)
      (admissions : t.admissions = s.admissions)
      (txs : ∀ tx ∈ t.txs, tx ∈ s.txs) : Effect s a t
  | go {a : OrgAct} (id : TxId) (rest : Rest)
      (read : ∀ user row now, rest = .claim user row now → row ∈ s.db.invites) :
      Effect s a (s.go id rest)
  | write {a : OrgAct} {t : State} (minted : List TokenHash)
      (fresh : ∀ hash ∈ minted, hash ∉ s.issued) (writes : Writes minted s.db t.db)
      (issued : t.issued = s.issued ++ minted) (admissions : t.admissions = s.admissions)
      (txs : ∀ tx ∈ t.txs, tx ∈ s.txs) : Effect s a t
  | member {t : State} (id : TxId) (org : OrgId) (user : UserId) (newRole : Option Role)
      (tx : s.txs.find? id = some ⟨id, .write org user newRole⟩)
      (written : writeMember s.db.members org user newRole = .ok t.db.members)
      (invites : t.db.invites = s.db.invites) (issued : t.issued = s.issued)
      (admissions : t.admissions = s.admissions) (txs : ∀ tx ∈ t.txs, tx ∈ s.txs) :
      Effect s (.commit id) t
  | claim {t u : State} (id : TxId) (user : UserId) (row : Invite) (now : Time)
      (tx : s.txs.find? id = some ⟨id, .claim user row now⟩)
      (enrol : s.enrol user row [] (some row.tokenHash) now = some t)
      (reply : Except OrgError Reply) (done : u = t.finish id reply) : Effect s (.commit id) u
  | claimAll {u : State} (id : TxId) (user : UserId) (rows : List Invite) (already : List OrgId)
      (now : Time) (tx : s.txs.find? id = some ⟨id, .claimAll user rows already now⟩)
      (reply : Except OrgError Reply)
      (done : u = (State.enrolAll user already now rows none s).2.finish id reply) :
      Effect s (.commit id) u

theorem State.mem_finish {id : TxId} {reply : Except OrgError Reply} {tx : Tx}
    (h : tx ∈ (s.finish id reply).txs) : tx ∈ s.txs :=
  (Table.mem_delete.mp h).1

theorem State.begin_effect {a : OrgAct} {first : Except OrgError Rest}
    (hread : ∀ user row now, first = .ok (.claim user row now) → row ∈ s.db.invites)
    (h : s.begin id first = some t) : Effect s a t := by
  obtain ⟨rest, hfirst, rfl⟩ | ⟨e, rfl⟩ := begin_eq_some h
  · exact .go id rest fun user row now e => hread user row now (hfirst.trans (congrArg _ e))
  · exact .idle rfl rfl rfl fun _ => mem_finish

theorem State.write_effect {a : OrgAct} {minted : List TokenHash}
    {result : Except OrgError (Reply × OrgDb)}
    (hwrites : ∀ reply db, result = .ok (reply, db) → Writes minted s.db db)
    (h : s.write id minted result = some t) : Effect s a t := by
  obtain ⟨hfresh, hdb, reply, ht⟩ := write_eq_some hwrites h
  refine .write minted hfresh hdb (by rw [ht]; rfl) (by rw [ht]; rfl) fun tx htx => ?_
  rw [ht] at htx
  exact (Table.mem_delete.mp htx).1

theorem State.commit_effect {rest : Rest} (htx : s.txs.find? id = some ⟨id, rest⟩)
    (h : s.commit id rest = some t) : Effect s (.commit id) t := by
  cases rest with
  | count org user newRole => cases h
  | write org user newRole =>
    dsimp only [commit] at h
    split at h
    · next members hwrite =>
      cases h
      exact .member id org user newRole htx hwrite rfl rfl rfl fun _ => mem_finish
    · cases h
      exact .idle rfl rfl rfl fun _ => mem_finish
  | claim user row now =>
    dsimp only [commit] at h
    split at h
    · cases h
      exact .idle rfl rfl rfl fun _ => mem_finish
    · next u henrol =>
      cases h
      exact .claim id user row now htx henrol _ rfl
  | claimAll user rows already now =>
    cases h
    exact .claimAll id user rows already now htx _ rfl

theorem step_effect {a : OrgAct} (h : orgStep collation hashToken s a = some t) : Effect s a t := by
  have hguard : ∀ org user newRole user' row now,
      guardFirst s.db.members org user newRole ≠ .ok (.claim user' row now) := by
    intro org user newRole user' row now e
    obtain ⟨counts, -, e⟩ := map_eq_ok.mp e
    cases counts <;> cases e
  cases a with
  | changeRole id org user newRole =>
    exact State.begin_effect (fun _ _ _ e => absurd e (hguard _ _ _ _ _ _)) h
  | removeMember id org user =>
    exact State.begin_effect (fun _ _ _ e => absurd e (hguard _ _ _ _ _ _)) h
  | countOwners id =>
    dsimp only [orgStep] at h
    split at h
    · split at h
      · cases h
        exact .go id _ fun _ _ _ e => by cases e
      · cases h
        exact .idle rfl rfl rfl fun _ => State.mem_finish
    · cases h
  | acceptInvite id user token now =>
    refine State.begin_effect (fun user' row' now' e => ?_) h
    obtain ⟨row, hrow, e⟩ := map_eq_ok.mp e
    cases e
    exact (findInvite_eq_ok hrow).1
  | joinPendingInvites id user email now =>
    dsimp only [orgStep] at h
    refine State.begin_effect (fun _ _ _ e => ?_) h
    cases e
  | insertMember id org =>
    dsimp only [orgStep] at h
    split at h
    · split at h
      · cases h
        exact .go id _ fun _ _ _ e => by cases e
      · cases h
    · cases h
  | commit id =>
    obtain ⟨tx, htx, h⟩ := Option.bind_eq_some_iff.mp h
    obtain rfl : tx.id = id := Table.key_of_find? htx
    exact State.commit_effect htx h
  | rollback id =>
    cases h
    exact .idle rfl rfl rfl fun tx htx => (Table.mem_delete.mp htx).1
  | createInvites id org mints role now ttl =>
    refine State.write_effect (fun reply db e => ?_) h
    obtain ⟨⟨issued, db'⟩, hcreate, e⟩ := map_eq_ok.mp e
    cases e
    exact createInvites_writes hcreate
  | resendInvite id org invite token now ttl =>
    refine State.write_effect (fun reply db e => ?_) h
    obtain ⟨⟨issued, db'⟩, hresend, e⟩ := map_eq_ok.mp e
    cases e
    exact resendInvite_writes hresend
  | revokeInvite id org invite =>
    refine State.write_effect (fun reply db e => ?_) h
    obtain ⟨db', hrevoke, e⟩ := map_eq_ok.mp e
    cases e
    exact revokeInvite_writes hrevoke

end Steps

end Patom.Orgs
