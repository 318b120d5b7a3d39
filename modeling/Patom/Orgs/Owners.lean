import Patom.Orgs.Store

open Patom.Auth
open Patom.Foundation

namespace Patom.Orgs

def HasOwner (org : OrgId) (members : Table OrgMember) : Prop :=
  ∃ m ∈ members, m.orgId = org ∧ m.role = .owner

instance (org : OrgId) (members : Table OrgMember) : Decidable (HasOwner org members) :=
  inferInstanceAs (Decidable (∃ m ∈ members, _))

section Members

variable {org : OrgId} {user : UserId} {newRole : Option Role} {members members' : Table OrgMember}

theorem HasOwner.mono (h : HasOwner org members) (hsub : ∀ m ∈ members, m ∈ members') :
    HasOwner org members' := by
  obtain ⟨m, hm, hrole⟩ := h
  exact ⟨m, hsub m hm, hrole⟩

theorem of_find?_member {m : OrgMember} (hm : members.find? (org, user) = some m) :
    m.orgId = org ∧ m.userId = user :=
  Prod.mk.inj (Table.key_of_find? hm)

def OtherOwner (members : Table OrgMember) (m : OrgMember) : Prop :=
  ∃ m' ∈ members, key m' ≠ key m ∧ m'.orgId = m.orgId ∧ m'.role = .owner

theorem hasOwner_iff_otherOwner {m : OrgMember} (hm : m ∈ members) :
    HasOwner m.orgId members ↔ m.role = .owner ∨ OtherOwner members m := by
  constructor
  · rintro ⟨m', hm', horg, howner⟩
    by_cases hkey : key m' = key m
    · rw [Table.eq_of_key_eq hm' hm hkey] at howner
      exact .inl howner
    · exact .inr ⟨m', hm', hkey, horg, howner⟩
  · rintro (howner | ⟨m', hm', -, horg, howner⟩)
    · exact ⟨m, hm, rfl, howner⟩
    · exact ⟨m', hm', horg, howner⟩

theorem countOwners_le_one {m : OrgMember} (hm : m ∈ members) (hrole : m.role = .owner) :
    countOwners members m.orgId ≤ 1 ↔ ¬ OtherOwner members m := by
  have hcount := Table.countP_delete hm fun m' => m'.orgId = m.orgId && m'.role = .owner
  have hzero : countOwners members m.orgId ≤ 1 ↔
      (members.delete fun m' => key m' = key m).rows.countP
        (fun m' => m'.orgId = m.orgId && m'.role = .owner) = 0 := by
    rw [countOwners, ← hcount, if_pos (by simp [hrole])]
    omega
  rw [hzero, List.countP_eq_zero]
  constructor
  · rintro hnone ⟨m', hm', hkey, horg, howner⟩
    exact hnone m' (Table.mem_delete.mpr ⟨hm', by simpa using hkey⟩) (by simp [horg, howner])
  · intro hothers m' hm' howner
    obtain ⟨hm', hkey⟩ := Table.mem_delete.mp hm'
    obtain ⟨horg, howner⟩ : m'.orgId = m.orgId ∧ m'.role = .owner := by simpa using howner
    exact hothers ⟨m', hm', by simpa using hkey, horg, howner⟩

theorem hasOwner_writeMember_iff {m : OrgMember} (hm : members.find? (org, user) = some m)
    (hwrite : writeMember members org user newRole = .ok members') :
    HasOwner org members' ↔ newRole = some .owner ∨ OtherOwner members m := by
  obtain ⟨rfl, rfl⟩ := of_find?_member hm
  simp only [writeMember, hm] at hwrite
  cases newRole with
  | some role =>
    cases hwrite
    have hput : { m with role } ∈ members.put { m with role } := Table.mem_put.mpr (.inl rfl)
    refine (hasOwner_iff_otherOwner hput).trans (or_congr (by simp) ?_)
    constructor
    · rintro ⟨m', hm', hkey, horg, howner⟩
      obtain rfl | ⟨hm', -⟩ := Table.mem_put.mp hm'
      · exact absurd rfl hkey
      · exact ⟨m', hm', hkey, horg, howner⟩
    · rintro ⟨m', hm', hkey, horg, howner⟩
      exact ⟨m', Table.mem_put.mpr (.inr ⟨hm', hkey⟩), hkey, horg, howner⟩
  | none =>
    cases hwrite
    refine Iff.trans ?_ (or_iff_right (by simp)).symm
    constructor
    · rintro ⟨m', hm', horg, howner⟩
      obtain ⟨hm', hkey⟩ := Table.mem_delete.mp hm'
      refine ⟨m', hm', fun e => ?_, horg, howner⟩
      simp [horg, (Prod.mk.inj e).2] at hkey
    · rintro ⟨m', hm', hkey, horg, howner⟩
      refine ⟨m', Table.mem_delete.mpr ⟨hm', ?_⟩, horg, howner⟩
      have huser : m'.userId ≠ m.userId := fun e => hkey (Prod.ext horg e)
      simp [huser]

theorem lastOwnerGuard_protects {m : OrgMember} (hm : members.find? (org, user) = some m) :
    lastOwnerGuard members org user newRole = .error .lastOwnerProtected ↔
      newRole ≠ some .owner ∧ m.role = .owner ∧ ¬ OtherOwner members m := by
  obtain ⟨org', user', role⟩ := m
  obtain ⟨rfl, rfl⟩ := of_find?_member hm
  cases role with
  | owner =>
    rw [← countOwners_le_one (Table.mem_of_find? hm) rfl]
    simp only [lastOwnerGuard, guardTarget, hm, guardCount]
    by_cases hnew : newRole = some .owner <;> by_cases hcount : countOwners members org' ≤ 1 <;>
      simp [hnew, hcount, bind, Except.bind, pure, Except.pure]
  | admin => simp [lastOwnerGuard, guardTarget, hm, bind, Except.bind, pure, Except.pure]
  | member => simp [lastOwnerGuard, guardTarget, hm, bind, Except.bind, pure, Except.pure]

theorem hasOwner_writeMember (h : HasOwner org members)
    (hwrite : writeMember members org user newRole = .ok members') :
    HasOwner org members' ↔
      lastOwnerGuard members org user newRole ≠ .error .lastOwnerProtected := by
  cases hm : members.find? (org, user) with
  | none => simp [writeMember, hm] at hwrite
  | some m =>
    have hall := (hasOwner_iff_otherOwner (Table.mem_of_find? hm)).mp
    rw [(of_find?_member hm).1] at hall
    rw [hasOwner_writeMember_iff hm hwrite, Ne, lastOwnerGuard_protects hm]
    have hor := hall h
    tauto

theorem hasOwner_writeMember_ne {org' : OrgId} (hne : org' ≠ org) (h : HasOwner org members)
    (hwrite : writeMember members org' user newRole = .ok members') : HasOwner org members' := by
  obtain ⟨m', hm', horg, howner⟩ := h
  refine ⟨m', ?_, horg, howner⟩
  unfold writeMember at hwrite
  split at hwrite
  · cases hwrite
  · next m hm =>
    have hkey : key m' ≠ key m := fun e =>
      hne ((of_find?_member hm).1.symm.trans ((Prod.mk.inj e).1.symm.trans horg))
    split at hwrite
    · cases hwrite
      exact Table.mem_put.mpr (.inr ⟨hm', hkey⟩)
    · cases hwrite
      refine Table.mem_delete.mpr ⟨hm', ?_⟩
      simp [horg, hne.symm]

end Members

section Runs

variable (collation : Collation) (hashToken : InviteToken → TokenHash) (org : OrgId)

/-- A write to the org finds what its guard found: not the last owner. -/
def Rest.Guarded (members : Table OrgMember) : Rest → Prop
  | .write org' user newRole =>
    org' = org → lastOwnerGuard members org user newRole ≠ .error .lastOwnerProtected
  | _ => True

instance (members : Table OrgMember) : (rest : Rest) → Decidable (rest.Guarded org members)
  | .write .. => inferInstanceAs (Decidable (_ → _))
  | .count .. | .claim .. | .claimAll .. => .isTrue trivial

def Guarded (s : State) : OrgAct → Prop
  | .commit id => ∀ tx ∈ s.txs.find? id, tx.rest.Guarded org s.db.members
  | _ => True

instance (s : State) : (a : OrgAct) → Decidable (Guarded org s a)
  | .commit _ => inferInstanceAs (Decidable (∀ tx ∈ _, _))
  | .changeRole .. | .removeMember .. | .countOwners .. | .acceptInvite .. | .joinPendingInvites ..
  | .insertMember .. | .rollback .. | .createInvites .. | .resendInvite .. | .revokeInvite .. =>
    .isTrue trivial

variable {s t : State}

theorem State.members_enrol {user : UserId} {row : Invite} {already : List OrgId}
    {token : Option TokenHash} {now : Time} (h : s.enrol user row already token now = some t) :
    ∀ m ∈ s.db.members, m ∈ t.db.members := by
  obtain ⟨⟨invite, db⟩, hclaim, rfl⟩ := Option.map_eq_some_iff.mp h
  obtain ⟨-, -, rfl⟩ := OrgDb.claimInvite_eq_some hclaim
  intro m hm
  dsimp only
  split
  · exact hm
  · exact Table.mem_addNew_of_mem hm

theorem State.members_enrolAll (user : UserId) (already : List OrgId) (now : Time)
    (rows : List Invite) (active : Option OrgId) (s : State) :
    ∀ m ∈ s.db.members, m ∈ (enrolAll user already now rows active s).2.db.members := by
  induction rows generalizing active s with
  | nil => exact fun _ hm => hm
  | cons row rows ih =>
    intro m hm
    unfold enrolAll
    split
    · exact ih _ _ m hm
    · next u henrol => exact ih _ _ m (members_enrol henrol m hm)

theorem hasOwner_step {a : OrgAct} (hs : HasOwner org s.db.members)
    (h : orgStep collation hashToken s a = some t) :
    HasOwner org t.db.members ↔ Guarded org s a := by
  constructor
  · intro ht
    cases a with
    | commit id =>
      intro tx htx
      obtain ⟨u, hu, hcommit⟩ := Option.bind_eq_some_iff.mp h
      rw [show s.txs.find? id = some tx from htx] at hu
      cases hu
      obtain ⟨id', rest⟩ := tx
      cases rest with
      | write org' user newRole =>
        rintro rfl hprotects
        cases hwrite : writeMember s.db.members org' user newRole with
        | ok members =>
          simp only [State.commit, hwrite] at hcommit
          cases hcommit
          exact (hasOwner_writeMember hs hwrite).mp ht hprotects
        | error e =>
          cases hm : s.db.members.find? (org', user) with
          | none => simp [lastOwnerGuard, guardTarget, hm, bind, Except.bind] at hprotects
          | some m => cases newRole <;> simp [writeMember, hm] at hwrite
      | _ => trivial
    | _ => trivial
  · intro hguard
    cases step_effect h with
    | idle db => rwa [db]
    | go => exact hs
    | write _ _ writes => rwa [writes.members]
    | member id org' user newRole tx written =>
      by_cases horg : org' = org
      · subst horg
        exact (hasOwner_writeMember hs written).mpr (hguard _ tx rfl)
      · exact hasOwner_writeMember_ne horg hs written
    | claim id user row now _ enrol _ done =>
      have hmembers := State.members_enrol enrol
      rw [done]
      exact HasOwner.mono hs hmembers
    | claimAll id user rows already now _ _ done =>
      have hmembers := State.members_enrolAll user already now rows none s
      rw [done]
      exact HasOwner.mono hs hmembers

/-- An organisation keeps an owner through a schedule exactly when no write of it meets, as the
last owner, the one it takes the role from. -/
theorem keepsOwner_iff (db : OrgDb) (h : HasOwner org db.members) (acts : List OrgAct) :
    Always (orgStep collation hashToken) (fun s => HasOwner org s.db.members) (.start db) acts ↔
      Steps (orgStep collation hashToken) (Guarded org) (.start db) acts :=
  always_iff_steps (fun _ => True) (fun _ _ _ _ _ _ _ => trivial)
    (fun _ _ _ _ hs e => hasOwner_step collation hashToken org hs e) trivial h acts

end Runs

namespace Sample

def collation : Collation := ⟨fun email => email, fun email email' => email = email'⟩

def hashToken (token : InviteToken) : TokenHash := .ofNat 256 token.length

def owners : OrgDb where
  members := (Table.single ⟨1, 10, .owner⟩).put ⟨1, 11, .owner⟩
  invites := .empty
  tokenHashIdx := OrgDb.tokenHashIdx_empty

def demotions : List OrgAct :=
  [.changeRole 0 1 10 .member, .removeMember 1 1 11, .countOwners 0, .countOwners 1, .commit 0,
    .commit 1]

def turns : List OrgAct :=
  [.changeRole 0 1 10 .member, .countOwners 0, .commit 0, .removeMember 1 1 11, .countOwners 1]

end Sample

theorem keepsOwner_turns : Always (orgStep Sample.collation Sample.hashToken)
    (fun s => HasOwner 1 s.db.members) (.start Sample.owners) Sample.turns :=
  (keepsOwner_iff Sample.collation Sample.hashToken 1 Sample.owners (by decide) _).mpr
    (by decide +kernel)

theorem owners_lost : ¬ ∀ (collation : Collation) (hashToken : InviteToken → TokenHash)
    (org : OrgId) (db : OrgDb), HasOwner org db.members → ∀ acts : List OrgAct,
      Always (orgStep collation hashToken) (fun s => HasOwner org s.db.members) (.start db)
        acts := by
  intro h
  have hlost : ∃ t ∈ run (orgStep Sample.collation Sample.hashToken) (.start Sample.owners)
      Sample.demotions, ¬ HasOwner 1 t.db.members := by
    decide +kernel
  obtain ⟨t, hrun, hnone⟩ := hlost
  have hkept := h Sample.collation Sample.hashToken 1 Sample.owners (by decide) Sample.demotions
  exact hnone (hkept.run hrun)

end Patom.Orgs
