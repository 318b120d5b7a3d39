import Patom.Http.Org
import Patom.Orgs.Invites

open Patom.Auth
open Patom.Foundation
open Patom.Orgs

namespace Patom.Http

/-- A way to become an owner that goes back to an owner, or to the invited address. -/
def Via.Licensed (disclosed : List Disclosure) : Via → Prop
  | .route role => role = some .owner
  | .token row =>
    row.role = .owner ∧ ∀ d ∈ disclosed, d.token = row.tokenHash → d.role = some .owner
  | .login => True
  | .other => False

structure OwnersFromOwners (s : Workspace) : Prop where
  promoted : ∀ p ∈ s.promoted, p.1.Licensed s.disclosed
  deposed : ∀ p ∈ s.deposed, p.1 ≠ .route (some .admin)

def OrgCall.resendsOwner (call : OrgCall) (db : OrgDb) : Bool :=
  match call.request with
  | .resendInvite invite => (db.invites.find? invite).any fun r =>
      r.orgId = call.principal.activeOrgId && r.consumedAt.isNone && r.role = .owner
  | _ => false

def OrgCall.outranked (call : OrgCall) (members : Table OrgMember) : Bool :=
  (call.request.writes call.principal).any fun w =>
    (members.find? (call.principal.activeOrgId, w.1)).any fun m =>
      m.role = .owner && call.pc.seen ≠ some .owner

/-- No admin sends the invite of an owner again, and none writes to an account that was made an
owner behind its back. -/
def Ranked (s : Workspace) : OrgRouteAct → Prop
  | .send c .. =>
    ∀ call ∈ s.calls.find? c, call.role = some .admin → call.resendsOwner s.base.db = false
  | .commit id =>
    ∀ call ∈ s.calls.find? id, call.role = some .admin → call.outranked s.base.db.members = false
  | _ => True

instance rankedDecidable (s : Workspace) : (a : OrgRouteAct) → Decidable (Ranked s a)
  | .send c .. => inferInstanceAs (Decidable (∀ call ∈ s.calls.find? c, call.role = some .admin →
      call.resendsOwner s.base.db = false))
  | .commit id => inferInstanceAs (Decidable (∀ call ∈ s.calls.find? id, call.role = some .admin →
      call.outranked s.base.db.members = false))
  | .request .. | .readTarget _ | .accept .. | .login .. | .countOwners _ | .insertMember ..
  | .rollback _ => .isTrue trivial

section Owners

variable {members members' : Table OrgMember} {m : OrgMember} {org : OrgId} {user : UserId}
  {newRole : Option Role}

theorem mem_newOwners : m ∈ newOwners members members' ↔ m ∈ members' ∧ m.role = .owner ∧
    ∀ old ∈ members.find? (key m), old.role ≠ .owner := by
  simp only [newOwners, List.mem_filter, Bool.and_eq_true, decide_eq_true_eq, Option.all_eq_true]
  exact Iff.rfl

theorem mem_lostOwners : m ∈ lostOwners members members' ↔ m ∈ members ∧ m.role = .owner ∧
    members'.find? (key m) ≠ some m := by
  simp only [lostOwners, List.mem_filter, Bool.and_eq_true, decide_eq_true_eq]
  exact Iff.rfl

theorem not_new_of_mem (hm : m ∈ members) : m ∉ newOwners members members' := by
  intro hnew
  obtain ⟨-, hrole, hold⟩ := mem_newOwners.mp hnew
  exact hold m (Table.find?_of_mem hm) hrole

@[simp] theorem newOwners_self (members : Table OrgMember) : newOwners members members = [] :=
  List.eq_nil_iff_forall_not_mem.mpr fun _ hm => not_new_of_mem (mem_newOwners.mp hm).1 hm

@[simp] theorem lostOwners_self (members : Table OrgMember) : lostOwners members members = [] := by
  refine List.eq_nil_iff_forall_not_mem.mpr fun m hm => ?_
  obtain ⟨hmem, -, hlost⟩ := mem_lostOwners.mp hm
  exact hlost (Table.find?_of_mem hmem)

theorem newOwners_writeMember (h : writeMember members org user newRole = .ok members')
    (hm : m ∈ newOwners members members') : newRole = some .owner := by
  have hmem := (mem_newOwners.mp hm).1
  unfold writeMember at h
  split at h
  case h_1 => cases h
  case h_2 =>
    split at h
    case h_1 role =>
      cases h
      obtain rfl | ⟨hold, -⟩ := Table.mem_put.mp hmem
      · exact congrArg some (mem_newOwners.mp hm).2.1
      · exact absurd hm (not_new_of_mem hold)
    case h_2 =>
      cases h
      exact absurd hm (not_new_of_mem (Table.mem_delete.mp hmem).1)

theorem lostOwners_writeMember (h : writeMember members org user newRole = .ok members')
    (hm : m ∈ lostOwners members members') : members.find? (org, user) = some m := by
  obtain ⟨hmem, -, hlost⟩ := mem_lostOwners.mp hm
  by_cases hkey : key m = (org, user)
  · rw [← hkey]
    exact Table.find?_of_mem hmem
  · have hgone : m ∉ members' := fun hm' => hlost (Table.find?_of_mem hm')
    unfold writeMember at h
    split at h
    case h_1 => cases h
    case h_2 old hold =>
      have hold : key old = (org, user) := Table.key_of_find? hold
      split at h
      case h_1 role =>
        cases h
        exact (hgone (Table.mem_put.mpr (.inr ⟨hmem, fun e => hkey (e.trans hold)⟩))).elim
      case h_2 =>
        cases h
        refine absurd (Table.mem_delete.mpr ⟨hmem, ?_⟩) hgone
        have hne : ¬(m.orgId = org ∧ m.userId = user) := fun e => hkey (Prod.ext e.1 e.2)
        simpa using hne

theorem newOwners_addNew {row : OrgMember} (hm : m ∈ newOwners members (members.addNew row)) :
    row.role = .owner := by
  obtain ⟨hmem, hrole, hold⟩ := mem_newOwners.mp hm
  unfold Table.addNew at hmem
  split at hmem
  case isTrue => exact absurd hm (not_new_of_mem hmem)
  case isFalse =>
    obtain rfl | ⟨hmem, -⟩ := Table.mem_put.mp hmem
    · exact hrole
    · exact absurd hm (not_new_of_mem hmem)

end Owners

section Tokens

variable {collation : Collation} {hashToken : InviteToken → TokenHash} {s t : State}
  {disclosed : List Disclosure}

def Kept (disclosed : List Disclosure) (r : Invite) : Prop :=
  r.role = .owner → ∀ d ∈ disclosed, d.token = r.tokenHash → d.role = some .owner

structure TokensKept (disclosed : List Disclosure) (s : State) : Prop where
  issued : ∀ r ∈ s.db.invites, r.tokenHash ∈ s.issued
  told : ∀ d ∈ disclosed, d.token ∈ s.issued
  rows : ∀ r ∈ s.db.invites, Kept disclosed r
  held : ∀ tx ∈ s.txs, ∀ user row now, tx.rest = .claim user row now →
    row.tokenHash ∈ s.issued ∧ Kept disclosed row

theorem TokensKept.write (h : TokensKept disclosed s) (minted : List TokenHash)
    (hfresh : ∀ hash ∈ minted, hash ∉ s.issued)
    (hinvites : ∀ r ∈ t.db.invites, r ∈ s.db.invites ∨ r.tokenHash ∈ minted)
    (hissued : t.issued = s.issued ++ minted) (htxs : ∀ tx ∈ t.txs, tx ∈ s.txs) :
    TokensKept disclosed t := by
  refine ⟨fun r hr => ?_, fun d hd => ?_, fun r hr => ?_, fun tx htx user row now hrest => ?_⟩
  · rw [hissued, List.mem_append]
    exact (hinvites r hr).imp_left (h.issued r)
  · rw [hissued]
    exact List.mem_append_left _ (h.told d hd)
  · obtain hold | hnew := hinvites r hr
    · exact h.rows r hold
    · intro _ d hd e
      exact absurd (h.told d hd) (e ▸ hfresh _ hnew)
  · obtain ⟨hheld, hkept⟩ := h.held tx (htxs tx htx) user row now hrest
    rw [hissued]
    exact ⟨List.mem_append_left _ hheld, hkept⟩

theorem TokensKept.frame (h : TokensKept disclosed s) (hinvites : t.db.invites = s.db.invites)
    (hissued : t.issued = s.issued) (htxs : ∀ tx ∈ t.txs, tx ∈ s.txs) : TokensKept disclosed t :=
  h.write [] (fun _ hhash => absurd hhash List.not_mem_nil) (fun _ hr => .inl (hinvites ▸ hr))
    (hissued.trans (List.append_nil _).symm) htxs

theorem TokensKept.enrol {user : UserId} {row : Invite} {already : List OrgId}
    {token : Option TokenHash} {now : Time} (h : TokensKept disclosed s)
    (henrol : s.enrol user row already token now = some t) : TokensKept disclosed t := by
  obtain ⟨⟨invite, db⟩, hclaim, rfl⟩ := Option.map_eq_some_iff.mp henrol
  obtain ⟨-, -, rfl⟩ := OrgDb.claimInvite_eq_some hclaim
  have hrows (r : Invite) (hr : r ∈ (s.db.consumeInvite row.id now).invites) :
      r.tokenHash ∈ s.issued ∧ Kept disclosed r := by
    obtain ⟨r', hr', rfl⟩ := OrgDb.mem_consumeInvite.mp hr
    rw [Kept, Invite.consume_tokenHash, Invite.consume_role]
    exact ⟨h.issued r' hr', h.rows r' hr'⟩
  refine ⟨fun _ hr => (hrows _ ?_).1, h.told, fun _ hr => (hrows _ ?_).2, h.held⟩ <;>
  · dsimp only at hr
    split at hr <;> exact hr

theorem TokensKept.enrolAll {user : UserId} {already : List OrgId} {now : Time} (rows : List Invite)
    (active : Option OrgId) (h : TokensKept disclosed s) :
    TokensKept disclosed (State.enrolAll user already now rows active s).2 := by
  induction rows generalizing active s with
  | nil => exact h
  | cons row rows ih =>
    unfold State.enrolAll
    cases henrol : s.enrol user row already none now with
    | none => exact ih _ h
    | some u => exact ih _ (h.enrol henrol)

theorem TokensKept.finish {id : TxId} {reply : Except OrgError Reply} (h : TokensKept disclosed s) :
    TokensKept disclosed (s.finish id reply) :=
  h.frame rfl rfl fun _ => State.mem_finish

theorem TokensKept.step {a : OrgAct} (h : TokensKept disclosed s)
    (hstep : orgStep collation hashToken s a = some t) : TokensKept disclosed t := by
  cases step_effect hstep with
  | idle db issued _ txs => exact h.frame (by rw [db]) issued txs
  | go id rest read =>
    refine ⟨h.issued, h.told, h.rows, fun tx htx user row now hrest => ?_⟩
    obtain rfl | ⟨htx, -⟩ := Table.mem_put.mp htx
    · have hrow := read user row now hrest
      exact ⟨h.issued row hrow, h.rows row hrow⟩
    · exact h.held tx htx user row now hrest
  | write minted fresh writes issued _ txs => exact h.write minted fresh writes.invites issued txs
  | member id org user newRole _ _ invites issued _ txs => exact h.frame invites issued txs
  | claim id user row now _ enrol reply done =>
    subst done
    exact (h.enrol enrol).finish
  | claimAll id user rows already now _ reply done =>
    subst done
    exact (h.enrolAll rows none).finish

end Tokens

section Calls

variable {collation : Collation} {hashToken : InviteToken → TokenHash} {s t : State} {id : TxId}

def target? : Rest → Option (OrgId × UserId × Option Role)
  | .count org user newRole | .write org user newRole => some (org, user, newRole)
  | _ => none

def opens : OrgAct → Option (TxId × OrgId × UserId × Option Role)
  | .changeRole id org user newRole => some (id, org, user, some newRole)
  | .removeMember id org user => some (id, org, user, none)
  | _ => none

theorem guardFirst_target {members : Table OrgMember} {org : OrgId} {user : UserId}
    {newRole : Option Role} {rest : Rest} (h : guardFirst members org user newRole = .ok rest) :
    target? rest = some (org, user, newRole) := by
  obtain ⟨counts, -, rfl⟩ := map_eq_ok.mp h
  cases counts <;> rfl

theorem enrolAll_frame {user : UserId} {already : List OrgId} {now : Time} (rows : List Invite)
    (active : Option OrgId) (s : State) :
    (State.enrolAll user already now rows active s).2.txs = s.txs ∧
      (State.enrolAll user already now rows active s).2.issued = s.issued := by
  induction rows generalizing active s with
  | nil => exact ⟨rfl, rfl⟩
  | cons row rows ih =>
    unfold State.enrolAll
    cases henrol : s.enrol user row already none now with
    | none => exact ih _ _
    | some u =>
      obtain ⟨invite, -, -, -, htxs, hissued, -⟩ := State.enrol_eq_some henrol
      obtain ⟨htxs', hissued'⟩ := ih (active.or (some row.orgId)) u
      exact ⟨htxs'.trans htxs, hissued'.trans hissued⟩

theorem mem_commit {rest : Rest} (h : s.commit id rest = some t) {tx : Tx} (htx : tx ∈ t.txs) :
    tx ∈ s.txs := by
  cases rest with
  | count org user newRole => cases h
  | write org user newRole =>
    dsimp only [State.commit] at h
    split at h <;> cases h <;> exact (Table.mem_delete.mp htx).1
  | claim user row now =>
    dsimp only [State.commit] at h
    split at h
    case h_1 =>
      cases h
      exact State.mem_finish htx
    case h_2 henrol =>
      cases h
      obtain ⟨invite, -, -, -, htxs, -⟩ := State.enrol_eq_some henrol
      exact htxs ▸ State.mem_finish htx
  | claimAll user rows already now =>
    cases h
    have hmem := (Table.mem_delete.mp htx).1
    rwa [(enrolAll_frame rows none s).1] at hmem

theorem write_cases {minted : List TokenHash} {result : Except OrgError (Reply × OrgDb)}
    (h : s.write id minted result = some t) : (∀ hash ∈ minted, hash ∉ s.issued) ∧
      ∃ db reply, t = State.finish { s with db, issued := s.issued ++ minted } id reply ∧
        ((∃ answer, result = .ok (answer, db) ∧ reply = .ok answer) ∨
          db = s.db ∧ ∃ e, reply = .error e) := by
  unfold State.write at h
  split at h
  case isTrue => cases h
  case isFalse hready =>
    refine ⟨fun hash hminted hissued => hready (.inr (.inr (List.any_eq_true.mpr
      ⟨hash, hminted, decide_eq_true hissued⟩))), ?_⟩
    cases result with
    | ok result =>
      cases h
      exact ⟨_, _, rfl, .inl ⟨_, rfl, rfl⟩⟩
    | error e =>
      cases h
      exact ⟨_, _, rfl, .inr ⟨rfl, e, rfl⟩⟩

theorem step_target {a : OrgAct} (h : orgStep collation hashToken s a = some t) {tx : Tx}
    (htx : tx ∈ t.txs) {w : OrgId × UserId × Option Role} (hw : target? tx.rest = some w) :
    (∃ tx' ∈ s.txs, tx'.id = tx.id ∧ target? tx'.rest = some w) ∨ opens a = some (tx.id, w) := by
  have hkept (h : tx ∈ s.txs) : ∃ tx' ∈ s.txs, tx'.id = tx.id ∧ target? tx'.rest = some w :=
    ⟨tx, h, rfl, hw⟩
  have hbegin {id : TxId} {first : Except OrgError Rest} (h : s.begin id first = some t) :
      tx ∈ s.txs ∨ tx.id = id ∧ ∃ rest, first = .ok rest ∧ tx.rest = rest := by
    obtain ⟨rest, hfirst, rfl⟩ | ⟨e, rfl⟩ := State.begin_eq_some h
    · obtain rfl | ⟨htx, -⟩ := Table.mem_put.mp htx
      · exact .inr ⟨rfl, rest, hfirst, rfl⟩
      · exact .inl htx
    · exact .inl (State.mem_finish htx)
  have hwrite {id : TxId} {minted : List TokenHash} {result : Except OrgError (Reply × OrgDb)}
      (h : s.write id minted result = some t) : tx ∈ s.txs := by
    obtain ⟨-, db, reply, rfl, -⟩ := write_cases h
    exact (Table.mem_delete.mp htx).1
  cases a with
  | changeRole id org user newRole =>
    obtain hold | ⟨hid, rest, hfirst, hrest⟩ := hbegin h
    · exact .inl (hkept hold)
    · rw [hrest, guardFirst_target hfirst] at hw
      exact .inr (by rw [opens, hid, ← Option.some.inj hw])
  | removeMember id org user =>
    obtain hold | ⟨hid, rest, hfirst, hrest⟩ := hbegin h
    · exact .inl (hkept hold)
    · rw [hrest, guardFirst_target hfirst] at hw
      exact .inr (by rw [opens, hid, ← Option.some.inj hw])
  | countOwners id =>
    dsimp only [orgStep] at h
    split at h
    case h_2 => cases h
    case h_1 id' org user newRole hcount =>
      split at h
      case h_2 =>
        cases h
        exact .inl (hkept (State.mem_finish htx))
      case h_1 =>
        cases h
        obtain rfl | ⟨htx, -⟩ := Table.mem_put.mp htx
        · exact .inl ⟨_, Table.mem_of_find? hcount, Table.key_of_find? hcount, hw⟩
        · exact .inl (hkept htx)
  | acceptInvite id user token now =>
    obtain hold | ⟨-, rest, hfirst, hrest⟩ := hbegin h
    · exact .inl (hkept hold)
    · obtain ⟨row, -, rfl⟩ := map_eq_ok.mp hfirst
      rw [hrest] at hw
      cases hw
  | joinPendingInvites id user email now =>
    dsimp only [orgStep] at h
    obtain hold | ⟨-, rest, hfirst, hrest⟩ := hbegin h
    · exact .inl (hkept hold)
    · cases hfirst
      rw [hrest] at hw
      cases hw
  | insertMember id org =>
    dsimp only [orgStep] at h
    split at h
    case h_2 => cases h
    case h_1 =>
      split at h
      case isFalse => cases h
      case isTrue =>
        cases h
        obtain rfl | ⟨htx, -⟩ := Table.mem_put.mp htx
        · cases hw
        · exact .inl (hkept htx)
  | commit id =>
    obtain ⟨tx', -, h⟩ := Option.bind_eq_some_iff.mp h
    exact .inl (hkept (mem_commit h htx))
  | rollback id =>
    cases h
    exact .inl (hkept (Table.mem_delete.mp htx).1)
  | createInvites id org mints role now ttl => exact .inl (hkept (hwrite h))
  | resendInvite id org invite token now ttl => exact .inl (hkept (hwrite h))
  | revokeInvite id org invite => exact .inl (hkept (hwrite h))

end Calls

section Sending

variable {collation : Collation} {hashToken : InviteToken → TokenHash} {s t : State}
  {db db' : OrgDb} {org : OrgId} {role : Role} {now expiresAt : Time} {ttl : Duration}

theorem upsertInvite_issues {mint : Orgs.Mint} {issued : IssuedInvite}
    (h : upsertInvite collation hashToken org role now expiresAt mint db = .ok (issued, db')) :
    issued.token = mint.token ∧ ∀ r ∈ db'.invites, r ∈ db.invites ∨ r.role = role := by
  have hput {row : Invite} (hrole : row.role = role) (h : db.putInvite row = .ok db') :
      ∀ r ∈ db'.invites, r ∈ db.invites ∨ r.role = role := by
    intro r hr
    rw [(OrgDb.putInvite_eq_ok h).2] at hr
    obtain rfl | ⟨hr, -⟩ := Table.mem_put.mp hr
    · exact .inr hrole
    · exact .inl hr
  unfold upsertInvite at h
  dsimp only at h
  split at h
  case h_1 =>
    obtain ⟨db₁, hdb, h⟩ := bind_eq_ok.mp h
    cases h
    exact ⟨rfl, hput rfl hdb⟩
  case h_2 =>
    split at h
    case isTrue => cases h
    case isFalse =>
      obtain ⟨db₁, hdb, h⟩ := bind_eq_ok.mp h
      cases h
      exact ⟨rfl, hput rfl hdb⟩

theorem upsertInvites_issues {mints : List Orgs.Mint} {issued : List IssuedInvite}
    (h : upsertInvites collation hashToken org role now expiresAt mints db = .ok (issued, db')) :
    issued.map (·.token) = mints.map (·.token) ∧
      ∀ r ∈ db'.invites, r ∈ db.invites ∨ r.role = role := by
  induction mints generalizing db issued with
  | nil =>
    cases h
    exact ⟨rfl, fun r hr => .inl hr⟩
  | cons mint mints ih =>
    obtain ⟨⟨first, db₁⟩, hfirst, h⟩ := bind_eq_ok.mp h
    obtain ⟨⟨rest, db₂⟩, hrest, h⟩ := bind_eq_ok.mp h
    cases h
    obtain ⟨htoken, hrows⟩ := upsertInvite_issues hfirst
    obtain ⟨htokens, hrows'⟩ := ih hrest
    refine ⟨by rw [List.map_cons, List.map_cons, htoken, htokens], fun r hr => ?_⟩
    obtain hold | hrole := hrows' r hr
    · exact hrows r hold
    · exact .inr hrole

theorem createInvites_issues {mints : List Orgs.Mint} {issued : List IssuedInvite}
    (h : createInvites collation hashToken org mints role now ttl db = .ok (issued, db')) :
    issued.map (·.token) = mints.map (·.token) ∧
      ∀ r ∈ db'.invites, r ∈ db.invites ∨ r.role = role := by
  unfold createInvites at h
  split at h
  case isTrue => cases h
  case isFalse => exact upsertInvites_issues h

theorem resendInvite_issues {id : InviteId} {token : InviteToken} {issued : IssuedInvite}
    (h : resendInvite hashToken org id token now ttl db = .ok (issued, db')) :
    issued.token = token ∧ ∀ r ∈ db'.invites, r ∈ db.invites ∨
      ∃ old ∈ db.invites.find? id, old.orgId = org ∧ old.consumedAt = none ∧ r.role = old.role := by
  unfold resendInvite at h
  split at h
  case h_1 => cases h
  case h_2 old hold =>
    split at h
    case isFalse => cases h
    case isTrue hpending =>
      obtain ⟨db₁, hdb, h⟩ := bind_eq_ok.mp h
      cases h
      refine ⟨rfl, fun r hr => ?_⟩
      rw [(OrgDb.putInvite_eq_ok hdb).2] at hr
      obtain rfl | ⟨hr, -⟩ := Table.mem_put.mp hr
      · exact .inr ⟨old, hold, hpending.1, hpending.2, rfl⟩
      · exact .inl hr

def OrgCall.Issues (call : OrgCall) (db : OrgDb) (role : Role) : Prop :=
  match call.request with
  | .inviteMembers _ invited => role = invited
  | .resendInvite invite => ∃ old ∈ db.invites.find? invite,
      old.orgId = call.principal.activeOrgId ∧ old.consumedAt = none ∧ role = old.role
  | _ => False

structure Sent (hashToken : InviteToken → TokenHash) (call : OrgCall) (s t : State) : Prop where
  members : t.db.members = s.db.members
  tokens : ∀ invite ∈ newlyIssued s t,
    hashToken invite.token ∉ s.issued ∧ hashToken invite.token ∈ t.issued
  rows : ∀ r ∈ t.db.invites, r ∈ s.db.invites ∨ call.Issues s.db r.role
  claims : ∀ tx ∈ t.txs, ∀ user row now, tx.rest = .claim user row now → tx ∈ s.txs

theorem newlyIssued_finish {id : TxId} {reply : Except OrgError Reply} {issued : List TokenHash} :
    newlyIssued s (State.finish { s with db, issued } id reply) = issuedIn reply := by
  simp [newlyIssued, State.finish]

theorem sent_begin {call : OrgCall} {id : TxId} {user : UserId} {newRole : Option Role}
    (h : s.begin id (guardFirst s.db.members org user newRole) = some t) :
    Sent hashToken call s t := by
  obtain ⟨rest, hrest, rfl⟩ | ⟨e, rfl⟩ := State.begin_eq_some h
  · refine ⟨rfl, fun invite hinvite => ?_, fun r hr => .inl hr, fun tx htx user' row now e => ?_⟩
    · simp [newlyIssued, State.go] at hinvite
    · obtain rfl | ⟨htx, -⟩ := Table.mem_put.mp htx
      · have htarget := guardFirst_target hrest
        rw [show rest = .claim user' row now from e] at htarget
        cases htarget
      · exact htx
  · refine ⟨rfl, fun invite hinvite => ?_, fun r hr => .inl hr, fun tx htx _ _ _ _ => ?_⟩
    · have hnone : newlyIssued s (s.finish id (.error e)) = [] := newlyIssued_finish
      rw [hnone] at hinvite
      cases hinvite
    · exact State.mem_finish htx

theorem sent_write {call : OrgCall} {id : TxId} {minted : List TokenHash}
    {result : Except OrgError (Reply × OrgDb)} (h : s.write id minted result = some t)
    (hresult : ∀ answer db, result = .ok (answer, db) → db.members = s.db.members ∧
      (∀ invite ∈ issuedIn (.ok answer), hashToken invite.token ∈ minted) ∧
      ∀ r ∈ db.invites, r ∈ s.db.invites ∨ call.Issues s.db r.role) : Sent hashToken call s t := by
  obtain ⟨hfresh, db, reply, rfl, ⟨answer, hok, rfl⟩ | ⟨rfl, e, rfl⟩⟩ := write_cases h
  · obtain ⟨hmembers, htokens, hrows⟩ := hresult answer db hok
    refine ⟨hmembers, fun invite hinvite => ?_, hrows, fun tx htx _ _ _ _ => ?_⟩
    · rw [newlyIssued_finish] at hinvite
      have hminted := htokens invite hinvite
      exact ⟨hfresh _ hminted, List.mem_append_right _ hminted⟩
    · exact (Table.mem_delete.mp htx).1
  · refine ⟨rfl, fun invite hinvite => ?_, fun r hr => .inl hr, fun tx htx _ _ _ _ => ?_⟩
    · rw [newlyIssued_finish] at hinvite
      cases hinvite
    · exact (Table.mem_delete.mp htx).1

theorem sent {call : OrgCall} {minted : InviteMint} {act : OrgAct}
    (hact : call.act minted now ttl = some act) (h : orgStep collation hashToken s act = some t) :
    Sent hashToken call s t := by
  unfold OrgCall.act at hact
  dsimp only at hact
  split at hact
  case h_1 =>
    cases hact
    exact sent_begin h
  case h_2 =>
    cases hact
    exact sent_begin h
  case h_3 =>
    cases hact
    exact sent_begin h
  case h_4 emails invited hrequest =>
    split at hact
    case isFalse => cases hact
    case isTrue =>
      cases hact
      refine sent_write h fun answer db e => ?_
      obtain ⟨⟨issued, db'⟩, hcreate, e⟩ := map_eq_ok.mp e
      cases e
      obtain ⟨htokens, hrows⟩ := createInvites_issues hcreate
      refine ⟨(createInvites_writes hcreate).members, fun invite hinvite => ?_, fun r hr => ?_⟩
      · have hmem : invite.token ∈ issued.map (·.token) := List.mem_map.mpr ⟨invite, hinvite, rfl⟩
        rw [htokens] at hmem
        obtain ⟨mint, hmint, e⟩ := List.mem_map.mp hmem
        exact List.mem_map.mpr ⟨mint, hmint, congrArg hashToken e⟩
      · rw [OrgCall.Issues, hrequest]
        exact hrows r hr
  case h_5 invite hrequest =>
    cases hact
    refine sent_write h fun answer db e => ?_
    obtain ⟨⟨issued, db'⟩, hresend, e⟩ := map_eq_ok.mp e
    cases e
    obtain ⟨htoken, hrows⟩ := resendInvite_issues hresend
    refine ⟨(resendInvite_writes hresend).members, fun invite hinvite => ?_, fun r hr => ?_⟩
    · rw [List.mem_singleton.mp hinvite, htoken]
      exact List.mem_singleton.mpr rfl
    · rw [OrgCall.Issues, hrequest]
      exact hrows r hr
  case h_6 invite hrequest =>
    cases hact
    refine sent_write h fun answer db e => ?_
    obtain ⟨db', hrevoke, e⟩ := map_eq_ok.mp e
    cases e
    have hwrites := revokeInvite_writes hrevoke
    exact ⟨hwrites.members, fun invite hinvite => absurd hinvite List.not_mem_nil,
      fun r hr => .inl ((hwrites.invites r hr).resolve_right List.not_mem_nil)⟩

end Sending

section Checks

/-- What the checks of a call have shown, once it has passed them. -/
structure OrgCall.Cleared (call : OrgCall) : Prop where
  grants : call.pc ≠ .targeting → ∀ target,
    call.request.writes call.principal = some (target, some .owner) → call.role = some .owner
  seen : call.pc.seen = some .owner → call.role = some .owner
  invites : ∀ emails, call.request = .inviteMembers emails .owner → call.role = some .owner
  resends : ∀ invite, call.request = .resendInvite invite →
    call.role = some .owner ∨ call.role = some .admin
  leaves : call.request = .leaveOrg → call.role = none

theorem requireAdmin_ok {role : Role} (h : requireAdmin role = .ok ()) :
    role = .owner ∨ role = .admin := by
  cases role with
  | owner => exact .inl rfl
  | admin => exact .inr rfl
  | member => cases h

theorem cleared_admitCaller {c : TxId} {p : Principal} {role : Role} {request : OrgRequest}
    {pc : OrgPc} (hleave : request ≠ .leaveOrg) (h : admitCaller p role request = .ok pc) :
    OrgCall.Cleared ⟨c, p, some role, request, pc⟩ := by
  cases request with
  | changeRole target newRole =>
    obtain ⟨-, -, rfl⟩ := map_eq_ok.mp h
    exact ⟨fun hpc => absurd rfl hpc, by rintro ⟨⟩, by rintro _ ⟨⟩, by rintro _ ⟨⟩, by rintro ⟨⟩⟩
  | removeMember target =>
    dsimp only [admitCaller] at h
    split at h
    case isTrue =>
      cases h
      exact ⟨by rintro _ _ ⟨⟩, fun e => e, by rintro _ ⟨⟩, by rintro _ ⟨⟩, by rintro ⟨⟩⟩
    case isFalse =>
      obtain ⟨-, -, rfl⟩ := map_eq_ok.mp h
      exact ⟨fun hpc => absurd rfl hpc, by rintro ⟨⟩, by rintro _ ⟨⟩, by rintro _ ⟨⟩, by rintro ⟨⟩⟩
  | leaveOrg => exact absurd rfl hleave
  | inviteMembers emails invited =>
    dsimp only [admitCaller] at h
    split at h
    case h_1 => cases h
    case h_2 =>
      split at h
      case isTrue => cases h
      case isFalse howner =>
        split at h
        case isTrue => cases h
        case isFalse =>
          cases h
          refine ⟨by rintro _ _ ⟨⟩, by rintro ⟨⟩, ?_, by rintro _ ⟨⟩, by rintro ⟨⟩⟩
          rintro _ ⟨⟩
          exact congrArg some (not_not.mp fun hne => howner ⟨rfl, hne⟩)
  | resendInvite invite =>
    obtain ⟨⟨⟩, hadmin, rfl⟩ := map_eq_ok.mp h
    refine ⟨by rintro _ _ ⟨⟩, by rintro ⟨⟩, by rintro _ ⟨⟩, fun _ _ => ?_, by rintro ⟨⟩⟩
    exact (requireAdmin_ok hadmin).imp (congrArg some) (congrArg some)
  | revokeInvite invite =>
    obtain ⟨-, -, rfl⟩ := map_eq_ok.mp h
    exact ⟨by rintro _ _ ⟨⟩, by rintro ⟨⟩, by rintro _ ⟨⟩, by rintro _ ⟨⟩, by rintro ⟨⟩⟩

theorem cleared_admitTarget {call : OrgCall} {role target : Role} {w : UserId × Option Role}
    (hcall : call.Cleared) (hrole : call.role = some role)
    (hw : call.request.writes call.principal = some w)
    (h : admitTarget role target call.request = .ok ()) :
    OrgCall.Cleared { call with pc := .checked (some target) } := by
  have hchecked : ((∃ user, w = (user, some .owner)) ∨ target = .owner) → role = .owner := by
    intro htouches
    by_contra hne
    cases hrequest : call.request with
    | changeRole user newRole =>
      rw [hrequest] at h hw
      cases hw
      have htouches : newRole = .owner ∨ target = .owner :=
        htouches.imp_left fun ⟨_, e⟩ => by cases e; rfl
      rw [admitTarget, if_pos ⟨htouches, hne⟩] at h
      cases h
    | removeMember user =>
      rw [hrequest] at h hw
      cases hw
      have htarget : target = .owner := htouches.resolve_left fun ⟨_, e⟩ => by cases e
      rw [admitTarget, if_pos ⟨htarget, hne⟩] at h
      cases h
    | leaveOrg => cases hrole.symm.trans (hcall.leaves hrequest)
    | inviteMembers emails invited =>
      rw [hrequest] at hw
      cases hw
    | resendInvite invite =>
      rw [hrequest] at hw
      cases hw
    | revokeInvite invite =>
      rw [hrequest] at hw
      cases hw
  refine ⟨fun _ user e => ?_, fun e => ?_, hcall.invites, hcall.resends, hcall.leaves⟩
  · rw [hrole, hchecked (.inl ⟨user, Option.some.inj (hw.symm.trans e)⟩)]
  · rw [hrole, hchecked (.inr (Option.some.inj e))]

end Checks

structure RankInv (s : Workspace) : Prop where
  calls : ∀ call ∈ s.calls, call.Cleared
  writers : ∀ tx ∈ s.base.txs, ∀ org user newRole, target? tx.rest = some (org, user, newRole) →
    ∃ call ∈ s.calls, call.id = tx.id ∧ call.principal.activeOrgId = org ∧
      call.request.writes call.principal = some (user, newRole) ∧ ∃ seen, call.pc = .stored seen
  tokens : TokensKept s.disclosed s.base
  spent : ∀ p ∈ s.promoted, ∀ row, p.1 = .token row → row.tokenHash ∈ s.base.issued
  ranks : OwnersFromOwners s

section Runs

variable {collation : Collation} {hashToken : InviteToken → TokenHash} {s t : Workspace}

theorem RankInv.start (members : Table OrgMember) : RankInv (.start members) where
  calls call hcall := absurd hcall (Table.not_mem_empty call)
  writers tx htx := absurd htx (Table.not_mem_empty tx)
  tokens := ⟨fun r hr => absurd hr (Table.not_mem_empty r), fun _ hd => absurd hd List.not_mem_nil,
    fun r hr => absurd hr (Table.not_mem_empty r),
    fun tx htx => absurd htx (Table.not_mem_empty tx)⟩
  spent _ hp := absurd hp List.not_mem_nil
  ranks := ⟨fun _ hp => absurd hp List.not_mem_nil, fun _ hp => absurd hp List.not_mem_nil⟩

theorem RankInv.put {call : OrgCall} (h : RankInv s) (hcall : call.Cleared)
    (hwaiting : ∀ old ∈ s.calls, old.id = call.id → ∀ seen, old.pc ≠ .stored seen) :
    RankInv { s with calls := s.calls.put call } where
  calls c hc := by
    obtain rfl | ⟨hc, -⟩ := Table.mem_put.mp hc
    · exact hcall
    · exact h.calls c hc
  writers tx htx org user newRole hw := by
    obtain ⟨c, hc, hid, horg, hwrites, seen, hpc⟩ := h.writers tx htx org user newRole hw
    refine ⟨c, Table.mem_put.mpr (.inr ⟨hc, fun e => ?_⟩), hid, horg, hwrites, seen, hpc⟩
    exact hwaiting c hc e seen hpc
  tokens := h.tokens
  spent := h.spent
  ranks := ⟨h.ranks.promoted, h.ranks.deposed⟩

theorem RankInv.drop {call : OrgCall} (h : RankInv s) (hcall : s.calls.find? call.id = some call)
    (hwaiting : ∀ seen, call.pc ≠ .stored seen) : RankInv (s.drop call.id) where
  calls c hc := h.calls c (Table.mem_delete.mp hc).1
  writers tx htx org user newRole hw := by
    obtain ⟨c, hc, hid, horg, hwrites, seen, hpc⟩ := h.writers tx htx org user newRole hw
    refine ⟨c, Table.mem_delete.mpr ⟨hc, decide_eq_false fun e => ?_⟩, hid, horg, hwrites, seen,
      hpc⟩
    have hsame := Table.eq_of_key_eq hc (Table.mem_of_find? hcall) e
    exact hwaiting seen (hsame ▸ hpc)
  tokens := h.tokens
  spent := h.spent
  ranks := ⟨h.ranks.promoted, h.ranks.deposed⟩

theorem step_issued {s t : State} {a : OrgAct} (h : orgStep collation hashToken s a = some t)
    {hash : TokenHash} (hissued : hash ∈ s.issued) : hash ∈ t.issued := by
  cases step_effect h with
  | idle _ issued => rwa [issued]
  | go => exact hissued
  | write minted _ _ issued =>
    rw [issued]
    exact List.mem_append_left _ hissued
  | member _ _ _ _ _ _ _ issued => rwa [issued]
  | claim id user row now _ enrol reply done =>
    subst done
    obtain ⟨invite, -, -, -, -, hsame, -⟩ := State.enrol_eq_some enrol
    exact hsame ▸ hissued
  | claimAll id user rows already now _ reply done =>
    subst done
    have hsame : (State.enrolAll user already now rows none s).2.issued = s.issued :=
      (enrolAll_frame rows none s).2
    exact hsame ▸ hissued

theorem RankInv.record {a : OrgAct} {base : State} {via : Via} (h : RankInv s)
    (hstep : orgStep collation hashToken s.base a = some base)
    (hopens : ∀ id w, opens a = some (id, w) → ∃ call ∈ s.calls, call.id = id ∧
      call.principal.activeOrgId = w.1 ∧ call.request.writes call.principal = some w.2 ∧
        ∃ seen, call.pc = .stored seen)
    (hspent : ∀ row, via = .token row → row.tokenHash ∈ s.base.issued)
    (hpromoted : ∀ m ∈ newOwners s.base.db.members base.db.members, via.Licensed s.disclosed)
    (hdeposed : ∀ m ∈ lostOwners s.base.db.members base.db.members, via ≠ .route (some .admin)) :
    RankInv (s.record via base) where
  calls := h.calls
  writers tx htx org user newRole hw := by
    obtain ⟨tx', htx', hid, hw'⟩ | hopen := step_target hstep htx hw
    · rw [← hid]
      exact h.writers tx' htx' org user newRole hw'
    · exact hopens _ _ hopen
  tokens := h.tokens.step hstep
  spent p hp row e := by
    obtain hp | hp := List.mem_append.mp hp
    · exact step_issued hstep (h.spent p hp row e)
    · obtain ⟨m, -, rfl⟩ := List.mem_map.mp hp
      exact step_issued hstep (hspent row e)
  ranks := by
    refine ⟨fun p hp => ?_, fun p hp => ?_⟩
    · obtain hp | hp := List.mem_append.mp hp
      · exact h.ranks.promoted p hp
      · obtain ⟨m, hm, rfl⟩ := List.mem_map.mp hp
        exact hpromoted m hm
    · obtain hp | hp := List.mem_append.mp hp
      · exact h.ranks.deposed p hp
      · obtain ⟨m, hm, rfl⟩ := List.mem_map.mp hp
        exact hdeposed m hm

theorem opens_act {call : OrgCall} {minted : InviteMint} {now : Time} {ttl : Duration}
    {act : OrgAct} {id : TxId} {w : OrgId × UserId × Option Role}
    (hact : call.act minted now ttl = some act) (h : opens act = some (id, w)) :
    call.id = id ∧ call.principal.activeOrgId = w.1 ∧
      call.request.writes call.principal = some w.2 := by
  unfold OrgCall.act at hact
  dsimp only at hact
  split at hact
  case h_1 target role hrequest =>
    cases hact
    cases h
    exact ⟨rfl, rfl, by rw [hrequest]; rfl⟩
  case h_2 target hrequest =>
    cases hact
    cases h
    exact ⟨rfl, rfl, by rw [hrequest]; rfl⟩
  case h_3 hrequest =>
    cases hact
    cases h
    exact ⟨rfl, rfl, by rw [hrequest]; rfl⟩
  case h_4 =>
    split at hact
    case isTrue =>
      cases hact
      cases h
    case isFalse => cases hact
  case h_5 =>
    cases hact
    cases h
  case h_6 =>
    cases hact
    cases h

theorem OrgCall.Cleared.issues {call : OrgCall} {db : OrgDb} (h : call.Cleared)
    (hguard : call.role = some .admin → call.resendsOwner db = false)
    (hissues : call.Issues db .owner) : call.role = some .owner := by
  unfold OrgCall.Issues at hissues
  split at hissues
  case h_1 emails invited hrequest =>
    subst hissues
    exact h.invites emails hrequest
  case h_2 invite hrequest =>
    refine (h.resends invite hrequest).resolve_right fun hadmin => ?_
    obtain ⟨old, hold, horg, hpending, hrole⟩ := hissues
    have hfalse := hguard hadmin
    rw [OrgCall.resendsOwner, hrequest] at hfalse
    dsimp only at hfalse
    rw [show db.invites.find? invite = some old from hold] at hfalse
    simp [horg, hpending, ← hrole] at hfalse
  case h_3 => cases hissues

theorem RankInv.send {call : OrgCall} {seen : Option Role} {minted : InviteMint} {now : Time}
    {ttl : Duration} {act : OrgAct} {base : State} (h : RankInv s)
    (hcall : s.calls.find? call.id = some call) (hpc : call.pc = .checked seen)
    (hguard : call.role = some .admin → call.resendsOwner s.base.db = false)
    (hact : call.act minted now ttl = some act)
    (hstep : orgStep collation hashToken s.base act = some base) (told : Bool) :
    RankInv (if told then
        ((s.record .other base).goto call (.stored seen)).disclose hashToken call.role
          (newlyIssued s.base base)
      else (s.record .other base).goto call (.stored seen)) := by
  have hcleared := h.calls call (Table.mem_of_find? hcall)
  have hsent : Sent hashToken call s.base base := sent hact hstep
  have hstored : RankInv (s.goto call (.stored seen)) := by
    refine h.put ?_ fun old hold hid seen' hpc' => ?_
    · have hgrants := hcleared.grants (by rw [hpc]; rintro ⟨⟩)
      have hseen := hcleared.seen
      rw [hpc] at hseen
      exact ⟨fun _ => hgrants, hseen, hcleared.invites, hcleared.resends, hcleared.leaves⟩
    · obtain rfl := Table.eq_of_key_eq hold (Table.mem_of_find? hcall) hid
      cases hpc.symm.trans hpc'
  have hnone : newOwners s.base.db.members base.db.members = [] := by
    rw [hsent.members, newOwners_self]
  have ht : RankInv ((s.goto call (.stored seen)).record .other base) := by
    refine hstored.record hstep (fun id w hopens => ?_) (by rintro _ ⟨⟩) (fun m hm => ?_)
      (by rintro _ _ ⟨⟩)
    · obtain ⟨hid, horg, hwrites⟩ := opens_act hact hopens
      exact ⟨_, Table.mem_put.mpr (.inl rfl), hid, horg, hwrites, seen, rfl⟩
    · rw [show (s.goto call (.stored seen)).base = s.base from rfl, hnone] at hm
      cases hm
  cases told with
  | false => exact ht
  | true =>
    have hfresh {d : Disclosure} {hash : TokenHash} (hd : d ∈ (newlyIssued s.base base).map
        fun invite => ⟨hashToken invite.token, call.role⟩) (e : d.token = hash)
        (hissued : hash ∈ s.base.issued) : False := by
      obtain ⟨invite, hinvite, rfl⟩ := List.mem_map.mp hd
      rw [← e] at hissued
      exact (hsent.tokens invite hinvite).1 hissued
    refine ⟨ht.calls, ht.writers, ⟨ht.tokens.issued, fun d hd => ?_, fun r hr howner d hd e => ?_,
      fun tx htx user row now hrest => ?_⟩, ht.spent, fun p hp => ?_, ht.ranks.deposed⟩
    · obtain hd | hd := List.mem_append.mp hd
      · exact ht.tokens.told d hd
      · obtain ⟨invite, hinvite, rfl⟩ := List.mem_map.mp hd
        exact (hsent.tokens invite hinvite).2
    · obtain hd | hd := List.mem_append.mp hd
      · exact ht.tokens.rows r hr howner d hd e
      · obtain hold | hissues := hsent.rows r hr
        · exact (hfresh hd e (h.tokens.issued r hold)).elim
        · obtain ⟨invite, -, rfl⟩ := List.mem_map.mp hd
          exact hcleared.issues hguard (howner ▸ hissues)
    · obtain ⟨hissued, hkept⟩ := ht.tokens.held tx htx user row now hrest
      refine ⟨hissued, fun howner d hd e => ?_⟩
      obtain hd | hd := List.mem_append.mp hd
      · exact hkept howner d hd e
      · have hold := hsent.claims tx htx user row now hrest
        exact (hfresh hd e (h.tokens.held tx hold user row now hrest).1).elim
    · have hlicensed := ht.ranks.promoted p hp
      cases hvia : p.1 with
      | route role =>
        rw [hvia] at hlicensed
        exact hlicensed
      | login => trivial
      | other =>
        rw [hvia] at hlicensed
        exact hlicensed
      | token row =>
        rw [hvia] at hlicensed
        refine ⟨hlicensed.1, fun d hd e => ?_⟩
        obtain hd | hd := List.mem_append.mp hd
        · exact hlicensed.2 d hd e
        · obtain hp | hp := List.mem_append.mp hp
          · exact (hfresh hd e (h.spent p hp row hvia)).elim
          · obtain ⟨m, hm, -⟩ := List.mem_map.mp hp
            rw [hnone] at hm
            cases hm

theorem newOwners_enrol {s t : State} {user : UserId} {row : Invite} {already : List OrgId}
    {token : Option TokenHash} {now : Time} (h : s.enrol user row already token now = some t)
    {m : OrgMember} (hm : m ∈ newOwners s.db.members t.db.members) : row.role = .owner := by
  obtain ⟨⟨invite, db⟩, hclaim, rfl⟩ := Option.map_eq_some_iff.mp h
  obtain ⟨-, -, rfl⟩ := OrgDb.claimInvite_eq_some hclaim
  dsimp only at hm
  split at hm
  case isTrue =>
    rw [show (s.db.consumeInvite row.id now).members = s.db.members from rfl,
      newOwners_self] at hm
    cases hm
  case isFalse => exact newOwners_addNew hm

theorem RankInv.commit {id : TxId} {base : State} (h : RankInv s)
    (hguard : ∀ call ∈ s.calls.find? id, call.role = some .admin →
      call.outranked s.base.db.members = false)
    (hstep : orgStep collation hashToken s.base (.commit id) = some base) :
    RankInv (s.record (s.via id) base) := by
  obtain ⟨⟨id', rest⟩, htx, hcommit⟩ := Option.bind_eq_some_iff.mp hstep
  obtain rfl : id' = id := Table.key_of_find? htx
  have hmem := Table.mem_of_find? htx
  have hopens (i : TxId) (w : OrgId × UserId × Option Role)
      (e : opens (.commit id') = some (i, w)) : ∃ call ∈ s.calls, call.id = i ∧
        call.principal.activeOrgId = w.1 ∧ call.request.writes call.principal = some w.2 ∧
          ∃ seen, call.pc = .stored seen := by
    cases e
  cases rest with
  | count org user newRole => cases hcommit
  | write org user newRole =>
    obtain ⟨call, hcall, hid, rfl, hwrites, seen, hpc⟩ := h.writers _ hmem org user newRole rfl
    have hfind : s.calls.find? id' = some call := by
      rw [← show call.id = id' from hid]
      exact Table.find?_of_mem hcall
    have hvia : s.via id' = .route call.role := by
      rw [Workspace.via, htx, hfind]
      rfl
    have hcleared := h.calls call hcall
    dsimp only [State.commit] at hcommit
    split at hcommit
    case h_1 members hwrite =>
      cases hcommit
      refine h.record hstep hopens (by rw [hvia]; rintro _ ⟨⟩) (fun m hm => ?_) fun m hm e => ?_
      · rw [hvia]
        obtain rfl := newOwners_writeMember hwrite hm
        exact hcleared.grants (by rw [hpc]; rintro ⟨⟩) user hwrites
      · rw [hvia, Via.route.injEq] at e
        have hbelow := hguard call hfind e
        have htarget := lostOwners_writeMember hwrite hm
        have hrole := (mem_lostOwners.mp hm).2.1
        have hseen : call.pc.seen = some .owner := by
          simpa [OrgCall.outranked, hwrites, htarget, hrole] using hbelow
        cases e.symm.trans (hcleared.seen hseen)
    case h_2 =>
      cases hcommit
      refine h.record hstep hopens (by rw [hvia]; rintro _ ⟨⟩) (fun m hm => ?_) fun m hm => ?_
      · cases (newOwners_self s.base.db.members) ▸ hm
      · cases (lostOwners_self s.base.db.members) ▸ hm
  | claim user row now =>
    have hvia : s.via id' = .token row := by
      rw [Workspace.via, htx]
    obtain ⟨hissued, hkept⟩ := h.tokens.held _ hmem user row now rfl
    refine h.record hstep hopens (fun row' e => ?_) (fun m hm => ?_)
      fun _ _ => by rw [hvia]; rintro ⟨⟩
    · obtain rfl := Via.token.inj (hvia.symm.trans e)
      exact hissued
    · rw [hvia]
      dsimp only [State.commit] at hcommit
      split at hcommit
      case h_1 =>
        cases hcommit
        cases (newOwners_self s.base.db.members) ▸ hm
      case h_2 t henrol =>
        cases hcommit
        have hrole := newOwners_enrol henrol hm
        exact ⟨hrole, hkept hrole⟩
  | claimAll user rows already now =>
    have hvia : s.via id' = .login := by
      rw [Workspace.via, htx]
    exact h.record hstep hopens (by rw [hvia]; rintro _ ⟨⟩) (fun _ _ => by rw [hvia]; trivial)
      fun _ _ => by rw [hvia]; rintro ⟨⟩

theorem RankInv.quiet {a : OrgAct} {base : State} (h : RankInv s)
    (hstep : orgStep collation hashToken s.base a = some base) (hopens : opens a = none)
    (hcommit : ∀ id, a ≠ .commit id) : RankInv (s.record .other base) := by
  have hmembers : base.db.members = s.base.db.members := by
    cases step_effect hstep with
    | idle db => rw [db]
    | go => rfl
    | write _ _ writes => exact writes.members
    | member id => exact absurd rfl (hcommit id)
    | claim id => exact absurd rfl (hcommit id)
    | claimAll id => exact absurd rfl (hcommit id)
  refine h.record hstep (fun id w e => ?_) (by rintro _ ⟨⟩) (fun m hm => ?_) (by rintro _ _ ⟨⟩)
  · cases hopens.symm.trans e
  · rw [hmembers, newOwners_self] at hm
    cases hm

theorem RankInv.request {c : TxId} {p : Principal} {request : OrgRequest} (h : RankInv s)
    (hunused : s.unused c) : RankInv (s.request c p request) := by
  have hnone : s.calls.find? c = none := by
    simp only [Workspace.unused, Bool.and_eq_true, Option.isNone_iff_eq_none] at hunused
    exact hunused.1
  have hwaiting (call : OrgCall) (hid : call.id = c) :
      ∀ old ∈ s.calls, old.id = call.id → ∀ seen, old.pc ≠ .stored seen :=
    fun old hold e => absurd (e.trans hid) (Table.find?_eq_none.mp hnone old hold)
  unfold Workspace.request
  split
  case h_1 =>
    refine h.put ⟨fun _ _ e => ?_, by rintro ⟨⟩, by rintro _ ⟨⟩, by rintro _ ⟨⟩, fun _ => rfl⟩
      (hwaiting _ rfl)
    cases e
  case h_2 hne =>
    split
    case h_1 => exact h
    case h_2 =>
      split
      case h_1 => exact h
      case h_2 hadmit => exact h.put (cleared_admitCaller hne hadmit) (hwaiting _ rfl)

theorem RankInv.readTarget {call : OrgCall} {role : Role} {w : UserId × Option Role}
    (h : RankInv s) (hcall : s.calls.find? call.id = some call) (hpc : call.pc = .targeting)
    (hrole : call.role = some role) (hw : call.request.writes call.principal = some w) :
    RankInv (s.readTarget call w.1 role) := by
  have hwaiting (seen : Option Role) : call.pc ≠ .stored seen := by
    rw [hpc]
    rintro ⟨⟩
  unfold Workspace.readTarget
  split
  case h_1 => exact h.drop hcall hwaiting
  case h_2 m hm =>
    split
    case h_1 => exact h.drop hcall hwaiting
    case h_2 hadmit =>
      have hcleared := h.calls call (Table.mem_of_find? hcall)
      refine h.put (cleared_admitTarget hcleared hrole hw hadmit) fun old hold e => ?_
      obtain rfl := Table.eq_of_key_eq hold (Table.mem_of_find? hcall) e
      exact hwaiting

theorem rankInv_step {a : OrgRouteAct} (h : RankInv s) (hguard : Ranked s a)
    (hstep : orgRouteStep collation hashToken s a = some t) : RankInv t := by
  cases a with
  | request c p request =>
    simp only [orgRouteStep, Option.ite_none_right_eq_some, Option.some.injEq] at hstep
    obtain ⟨hunused, rfl⟩ := hstep
    exact h.request hunused
  | readTarget c =>
    simp only [orgRouteStep] at hstep
    split at hstep
    case h_2 => cases hstep
    case h_1 call hcall =>
      obtain rfl : call.id = c := Table.key_of_find? hcall
      split at hstep
      case h_2 => cases hstep
      case h_1 role target newRole hpc hrole hw =>
        cases hstep
        exact h.readTarget hcall hpc hrole hw
  | send c minted now ttl told =>
    simp only [orgRouteStep] at hstep
    split at hstep
    case h_2 => cases hstep
    case h_1 call hcall =>
      obtain rfl : call.id = c := Table.key_of_find? hcall
      split at hstep
      case h_2 => cases hstep
      case h_1 seen hpc =>
        obtain ⟨act, hact, hstep⟩ := Option.bind_eq_some_iff.mp hstep
        obtain ⟨base, hbase, rfl⟩ := Option.map_eq_some_iff.mp hstep
        exact h.send hcall hpc (hguard call hcall) hact hbase told
  | accept id user token now =>
    simp only [orgRouteStep, Option.ite_none_right_eq_some] at hstep
    obtain ⟨base, hbase, rfl⟩ := Option.map_eq_some_iff.mp hstep.2
    exact h.quiet hbase rfl (by rintro _ ⟨⟩)
  | login id user email now =>
    simp only [orgRouteStep, Option.ite_none_right_eq_some] at hstep
    obtain ⟨base, hbase, rfl⟩ := Option.map_eq_some_iff.mp hstep.2
    exact h.quiet hbase rfl (by rintro _ ⟨⟩)
  | countOwners id =>
    obtain ⟨base, hbase, rfl⟩ := Option.map_eq_some_iff.mp hstep
    exact h.quiet hbase rfl (by rintro _ ⟨⟩)
  | insertMember id org =>
    obtain ⟨base, hbase, rfl⟩ := Option.map_eq_some_iff.mp hstep
    exact h.quiet hbase rfl (by rintro _ ⟨⟩)
  | commit id =>
    obtain ⟨base, hbase, rfl⟩ := Option.map_eq_some_iff.mp hstep
    exact h.commit hguard hbase
  | rollback id =>
    dsimp only [orgRouteStep] at hstep
    obtain ⟨base, hbase, rfl⟩ := Option.map_eq_some_iff.mp hstep
    exact h.quiet hbase rfl (by rintro _ ⟨⟩)

/-- Ownership comes from owners throughout every schedule in which admins send no invite of an owner
again, and write to no account that was made an owner after they read its role. -/
theorem ownersFromOwners_of_ranked (collation : Collation) (hashToken : InviteToken → TokenHash)
    (members : Table OrgMember) (as : List OrgRouteAct)
    (h : Steps (orgRouteStep collation hashToken) Ranked (.start members) as) :
    Always (orgRouteStep collation hashToken) OwnersFromOwners (.start members) as :=
  (h.always (P := RankInv) (fun _ => True) (fun _ _ _ _ _ _ _ => trivial)
    (fun _ _ _ _ hinv hstep hguard => rankInv_step hinv hguard hstep) trivial
    (RankInv.start members)).mono fun _ hinv => hinv.ranks

end Runs

namespace Sample

def team : Table OrgMember := ⟨[⟨1, 1, .owner⟩, ⟨1, 2, .admin⟩, ⟨1, 3, .member⟩], by decide⟩

def settings : Step Workspace OrgRouteAct := orgRouteStep Orgs.Sample.exact Orgs.Sample.lengths

def mintOne (token : InviteToken) : InviteMint := ⟨[(7, token)], token⟩

def invited : List OrgRouteAct :=
  [.request 0 ⟨1, 1⟩ (.inviteMembers ["mia@example.com"] .owner), .send 0 (mintOne "a") 0 100 true]

def succession : List OrgRouteAct :=
  invited ++ [.accept 1 4 "a" 5, .commit 1,
    .request 2 ⟨4, 1⟩ (.changeRole 3 .owner), .readTarget 2, .send 2 (mintOne "") 6 100 true,
    .commit 2]

def usurpation : List OrgRouteAct :=
  invited ++ [.request 1 ⟨2, 1⟩ (.resendInvite 7), .send 1 (mintOne "bb") 5 100 true,
    .accept 2 4 "bb" 6, .commit 2]

def eviction : List OrgRouteAct :=
  [.request 0 ⟨2, 1⟩ (.removeMember 3), .readTarget 0,
    .request 1 ⟨1, 1⟩ (.changeRole 3 .owner), .readTarget 1, .send 1 (mintOne "") 5 100 true,
    .commit 1,
    .send 0 (mintOne "") 6 100 true, .countOwners 0, .commit 0]

end Sample

theorem ownersFromOwners_succession :
    (run Sample.settings (.start Sample.team) Sample.succession).isSome ∧
      Always Sample.settings OwnersFromOwners (.start Sample.team) Sample.succession :=
  ⟨by decide +kernel, ownersFromOwners_of_ranked Orgs.Sample.exact Orgs.Sample.lengths Sample.team
    Sample.succession (by decide +kernel)⟩

def Via.token? : Via → Option TokenHash
  | .token row => some row.tokenHash
  | _ => none

theorem Via.Licensed.told {disclosed : List Disclosure} {via : Via} (h : via.Licensed disclosed)
    {d : Disclosure} (hd : d ∈ disclosed) (htoken : via.token? = some d.token) :
    d.role = some .owner := by
  cases via with
  | token row => exact h.2 d hd (Option.some.inj htoken).symm
  | _ => cases htoken

/-- An account becomes an owner by a link that an admin was told, and an admin removes an owner. -/
theorem owners_from_admins :
    (∃ s, run Sample.settings (.start Sample.team) Sample.usurpation = some s ∧
      ⟨1, 4, .owner⟩ ∈ s.base.db.members ∧ ¬OwnersFromOwners s) ∧
    ∃ s, run Sample.settings (.start Sample.team) Sample.eviction = some s ∧
      (.route (some .admin), ⟨1, 3, .owner⟩) ∈ s.deposed ∧ ¬OwnersFromOwners s := by
  have husurped : (run Sample.settings (.start Sample.team) Sample.usurpation).any fun s =>
      ⟨1, 4, .owner⟩ ∈ s.base.db.members.rows ∧ ∃ p ∈ s.promoted, ∃ d ∈ s.disclosed,
        p.1.token? = some d.token ∧ d.role = some .admin := by
    decide +kernel
  have hevicted : (run Sample.settings (.start Sample.team) Sample.eviction).any fun s =>
      (.route (some .admin), ⟨1, 3, .owner⟩) ∈ s.deposed := by
    decide +kernel
  obtain ⟨s, hs, howner⟩ := (Option.any_eq_true _ _).mp husurped
  obtain ⟨howner, p, hp, d, hd, htoken, hrole⟩ := of_decide_eq_true howner
  obtain ⟨t, ht, hdeposed⟩ := (Option.any_eq_true _ _).mp hevicted
  have hdeposed := of_decide_eq_true hdeposed
  refine ⟨⟨s, hs, howner, fun h => ?_⟩, t, ht, hdeposed, fun h => h.deposed _ hdeposed rfl⟩
  cases hrole.symm.trans ((h.promoted p hp).told hd htoken)

end Patom.Http
