import Patom.Foundation.Transition
import Patom.Orgs.Store
import Patom.Runtime.Queue
import Patom.Threads.Visibility

open Patom.Runtime (PromptError)
open Patom.Auth
open Patom.Foundation
open Patom.Orgs

namespace Patom.Http

inductive ColleagueError
  | notFound (id : ColleagueId)
  | satelliteUnmapped (kind : Threads.ColleagueKind)
  deriving DecidableEq

inductive HttpError
  | badRequest (detail : String)
  | notFound
  | notMember (org : OrgId)
  | forbidden (reason : String)
  | prompt (e : PromptError)
  | org (e : OrgError)
  | billing
  | colleague (e : ColleagueError)
  | internal
  deriving DecidableEq

/-! The routes of the workspace settings.  A route reads the roles it asks for, each read a
transaction of its own, and then calls the store, which does not. -/

structure Principal where
  userId : UserId
  activeOrgId : OrgId
  deriving DecidableEq

inductive OrgRequest
  | changeRole (target : UserId) (role : Role)
  | removeMember (target : UserId)
  | leaveOrg
  | inviteMembers (emails : List Email) (role : Role)
  | resendInvite (invite : InviteId)
  | revokeInvite (invite : InviteId)
  deriving DecidableEq

def OrgRequest.writes (p : Principal) : OrgRequest → Option (UserId × Option Role)
  | .changeRole target role => some (target, some role)
  | .removeMember target => some (target, none)
  | .leaveOrg => some (p.userId, none)
  | _ => none

def liveRole (members : Table OrgMember) (p : Principal) : Except HttpError Role :=
  match members.find? (p.activeOrgId, p.userId) with
  | some m => .ok m.role
  | none => .error (.notMember p.activeOrgId)

def requireAdmin : Role → Except HttpError Unit
  | .owner | .admin => .ok ()
  | .member => .error (.forbidden "owner or admin role required")

/-- How far a call has got; `checked` and `stored` hold the role that was read of the account
written to. -/
inductive OrgPc
  | targeting
  | checked (seen : Option Role)
  | stored (seen : Option Role)
  deriving DecidableEq

def OrgPc.seen : OrgPc → Option Role
  | .targeting => none
  | .checked seen | .stored seen => seen

def admitCaller (p : Principal) (role : Role) : OrgRequest → Except HttpError OrgPc
  | .changeRole .. => (requireAdmin role).map fun () => .targeting
  | .removeMember target =>
    if target = p.userId then .ok (.checked (some role))
    else (requireAdmin role).map fun () => .targeting
  | .leaveOrg => .ok (.checked none)
  | .inviteMembers emails invited =>
    match requireAdmin role with
    | .error e => .error e
    | .ok () =>
      if invited = .owner ∧ role ≠ .owner then
        .error (.forbidden "owner role required to invite owners")
      else if MAX_INVITE_BATCH < emails.length then
        .error (.org (.inviteBatchTooLarge MAX_INVITE_BATCH emails.length))
      else .ok (.checked none)
  | .resendInvite _ | .revokeInvite _ => (requireAdmin role).map fun () => .checked none

def admitTarget (role target : Role) : OrgRequest → Except HttpError Unit
  | .changeRole _ newRole =>
    if (newRole = .owner ∨ target = .owner) ∧ role ≠ .owner then
      .error (.forbidden "owner role required to grant or revoke owner")
    else .ok ()
  | .removeMember _ =>
    if target = .owner ∧ role ≠ .owner then
      .error (.forbidden "owner role required to remove owner")
    else .ok ()
  | _ => .ok ()

/-- `role` is that of the caller when it was read; `leave_org` does not read it. -/
structure OrgCall where
  id : TxId
  principal : Principal
  role : Option Role
  request : OrgRequest
  pc : OrgPc
  deriving DecidableEq

instance orgCallKeyed : Keyed OrgCall TxId := ⟨OrgCall.id⟩

inductive Via
  | route (role : Option Role)
  | token (row : Invite)
  | login
  | other
  deriving DecidableEq

structure Disclosure where
  token : TokenHash
  role : Option Role
  deriving DecidableEq

/-- The store with the calls to it, the tokens that their answers disclosed, who became an owner,
and which owners were changed or removed. -/
structure Workspace where
  base : State
  calls : Table OrgCall
  disclosed : List Disclosure
  promoted : List (Via × OrgMember)
  deposed : List (Via × OrgMember)

def Workspace.start (members : Table OrgMember) : Workspace where
  base := .start ⟨members, .empty, OrgDb.tokenHashIdx_empty⟩
  calls := .empty
  disclosed := []
  promoted := []
  deposed := []

def newOwners (members members' : Table OrgMember) : List OrgMember :=
  members'.rows.filter fun m =>
    m.role = .owner && (members.find? (key m)).all fun old => old.role ≠ .owner

def lostOwners (members members' : Table OrgMember) : List OrgMember :=
  members.rows.filter fun m => m.role = .owner && members'.find? (key m) ≠ some m

structure InviteMint where
  invites : List (InviteId × InviteToken)
  token : InviteToken

/-- A call is answered only where the org is read once more after the write. -/
inductive OrgRouteAct
  | request (c : TxId) (p : Principal) (request : OrgRequest)
  | readTarget (c : TxId)
  | send (c : TxId) (minted : InviteMint) (now : Time) (ttl : Duration) (answered : Bool)
  | accept (id : TxId) (user : UserId) (token : InviteToken) (now : Time)
  | login (id : TxId) (user : UserId) (email : Email) (now : Time)
  | countOwners (id : TxId)
  | insertMember (id : TxId) (org : OrgId)
  | commit (id : TxId)
  | rollback (id : TxId)

def mintFor (email : Email) : InviteId × InviteToken → Orgs.Mint
  | (id, token) => ⟨email, id, token⟩

def OrgCall.act (call : OrgCall) (minted : InviteMint) (now : Time) (ttl : Duration) :
    Option OrgAct :=
  let org := call.principal.activeOrgId
  match call.request with
  | .changeRole target role => some (.changeRole call.id org target role)
  | .removeMember target => some (.removeMember call.id org target)
  | .leaveOrg => some (.removeMember call.id org call.principal.userId)
  | .inviteMembers emails role =>
    if emails.length = minted.invites.length then
      some (.createInvites call.id org (emails.zipWith mintFor minted.invites) role now ttl)
    else none
  | .resendInvite invite => some (.resendInvite call.id org invite minted.token now ttl)
  | .revokeInvite invite => some (.revokeInvite call.id org invite)

def issuedIn : Except OrgError Reply → List IssuedInvite
  | .ok (.issued invites) => invites
  | _ => []

def newlyIssued (s t : State) : List IssuedInvite :=
  (t.replies.drop s.replies.length).flatMap fun reply => issuedIn reply.2

namespace Workspace

variable (s : Workspace)

def goto (call : OrgCall) (pc : OrgPc) : Workspace :=
  { s with calls := s.calls.put { call with pc } }

def drop (c : TxId) : Workspace := { s with calls := s.calls.delete fun call => call.id = c }

def record (via : Via) (base : State) : Workspace :=
  let members := s.base.db.members
  { s with
    base
    promoted := s.promoted ++ (newOwners members base.db.members).map (via, ·)
    deposed := s.deposed ++ (lostOwners members base.db.members).map (via, ·) }

def via (id : TxId) : Via :=
  match s.base.txs.find? id with
  | some ⟨_, .write ..⟩ => .route ((s.calls.find? id).bind (·.role))
  | some ⟨_, .claim _ row _⟩ => .token row
  | some ⟨_, .claimAll ..⟩ => .login
  | _ => .other

def unused (id : TxId) : Bool := (s.calls.find? id).isNone && (s.base.txs.find? id).isNone

def request (c : TxId) (p : Principal) : OrgRequest → Workspace
  | .leaveOrg => { s with calls := s.calls.put ⟨c, p, none, .leaveOrg, .checked none⟩ }
  | request =>
    match liveRole s.base.db.members p with
    | .error _ => s
    | .ok role =>
      match admitCaller p role request with
      | .error _ => s
      | .ok pc => { s with calls := s.calls.put ⟨c, p, some role, request, pc⟩ }

def readTarget (call : OrgCall) (target : UserId) (role : Role) : Workspace :=
  match s.base.db.members.find? (call.principal.activeOrgId, target) with
  | none => s.drop call.id
  | some m =>
    match admitTarget role m.role call.request with
    | .error _ => s.drop call.id
    | .ok () => s.goto call (.checked (some m.role))

def disclose (hashToken : InviteToken → TokenHash) (role : Option Role)
    (invites : List IssuedInvite) : Workspace :=
  { s with
    disclosed := s.disclosed ++ invites.map fun invite => ⟨hashToken invite.token, role⟩ }

end Workspace

section Steps

variable (collation : Collation) (hashToken : InviteToken → TokenHash)

def orgRouteStep : Step Workspace OrgRouteAct
  | s, .request c p request => if s.unused c then some (s.request c p request) else none
  | s, .readTarget c =>
    match s.calls.find? c with
    | some call =>
      match call.pc, call.role, call.request.writes call.principal with
      | .targeting, some role, some (target, _) => some (s.readTarget call target role)
      | _, _, _ => none
    | none => none
  | s, .send c minted now ttl told =>
    match s.calls.find? c with
    | some call =>
      match call.pc with
      | .checked seen =>
        (call.act minted now ttl).bind fun act =>
          (orgStep collation hashToken s.base act).map fun base =>
            let t := (s.record .other base).goto call (.stored seen)
            if told then t.disclose hashToken call.role (newlyIssued s.base base) else t
      | _ => none
    | none => none
  | s, .accept id user token now =>
    if s.unused id then
      (orgStep collation hashToken s.base (.acceptInvite id user token now)).map (s.record .other)
    else none
  | s, .login id user email now =>
    if s.unused id then
      (orgStep collation hashToken s.base (.joinPendingInvites id user email now)).map
        (s.record .other)
    else none
  | s, .countOwners id =>
    (orgStep collation hashToken s.base (.countOwners id)).map (s.record .other)
  | s, .insertMember id org =>
    (orgStep collation hashToken s.base (.insertMember id org)).map (s.record .other)
  | s, .commit id => (orgStep collation hashToken s.base (.commit id)).map (s.record (s.via id))
  | s, .rollback id => (orgStep collation hashToken s.base (.rollback id)).map (s.record .other)

end Steps

end Patom.Http
