import Patom.Orgs.Store

open Patom.Auth
open Patom.Foundation

namespace Patom.Orgs

/-- Every token admits once and while it is the invite's own, and a member gets the invite's
role. -/
structure Sound (admissions : List Admission) : Prop where
  once : (admissions.map Admission.token).Nodup
  live : ∀ a ∈ admissions, a.token = a.invite.tokenHash
  role : ∀ a ∈ admissions, ∀ role ∈ a.granted, role = a.invite.role

theorem sound_nil : Sound [] := ⟨List.nodup_nil, by simp, by simp⟩

theorem sound_snoc {admissions : List Admission} {a : Admission} :
    Sound (admissions ++ [a]) ↔ Sound admissions ∧ (∀ a' ∈ admissions, a'.token ≠ a.token) ∧
      a.token = a.invite.tokenHash ∧ ∀ role ∈ a.granted, role = a.invite.role := by
  constructor
  · rintro ⟨honce, hlive, hrole⟩
    rw [List.map_append, List.nodup_append] at honce
    refine ⟨⟨honce.1, fun b hb => hlive b (List.mem_append_left _ hb),
      fun b hb => hrole b (List.mem_append_left _ hb)⟩, fun b hb => ?_, ?_, ?_⟩
    · exact honce.2.2 _ (List.mem_map_of_mem hb) _ (by simp)
    · exact hlive a (by simp)
    · exact hrole a (by simp)
  · rintro ⟨⟨honce, hlive, hrole⟩, hnew, hlive', hrole'⟩
    refine ⟨?_, ?_, ?_⟩
    · rw [List.map_append, List.nodup_append]
      refine ⟨honce, List.nodup_singleton _, fun token htoken token' htoken' => ?_⟩
      obtain ⟨b, hb, rfl⟩ := List.mem_map.mp htoken
      rw [List.mem_singleton.mp htoken']
      exact hnew b hb
    · simpa [or_imp, forall_and] using ⟨hlive, hlive'⟩
    · simpa [or_imp, forall_and] using ⟨hrole, hrole'⟩

theorem Sound.of_append {admissions rest : List Admission} (h : Sound (admissions ++ rest)) :
    Sound admissions := by
  induction rest generalizing admissions with
  | nil => simpa using h
  | cons a rest ih =>
    rw [List.append_cons] at h
    exact (sound_snoc.mp (ih h)).1

/-- What is known of a token that was issued and is held by a claim, or was claimed: an invite
that still has it is the same one. -/
structure Known (s : State) : Prop where
  issued : ∀ r ∈ s.db.invites, r.tokenHash ∈ s.issued
  held : ∀ tx ∈ s.txs, ∀ user row now, tx.rest = .claim user row now →
    row.tokenHash ∈ s.issued ∧
      ∀ r ∈ s.db.invites, r.tokenHash = row.tokenHash → r.role = row.role
  claimed : ∀ a ∈ s.admissions, a.token ∈ s.issued ∧
    ∀ r ∈ s.db.invites, r.tokenHash = a.token → r.consumedAt ≠ none

section Admitting

variable {s t : State} {user : UserId} {row : Invite} {already : List OrgId}
  {token : Option TokenHash} {now : Time}

def Agrees (s : State) (user : UserId) (row : Invite) (already : List OrgId) (invite : Invite) :
    Option TokenHash → Prop
  | some tokenHash => tokenHash = invite.tokenHash
  | none => (row.orgId ∈ already ∨ (s.db.members.find? (row.orgId, user)).isSome) ∨
      row.role = invite.role

def Stands (s : State) (user : UserId) (row : Invite) (already : List OrgId)
    (token : Option TokenHash) : Prop :=
  ∀ invite ∈ s.db.invites.find? row.id, invite.consumedAt = none →
    Agrees s user row already invite token

theorem State.enrol_eq_none (h : s.enrol user row already token now = none) :
    Stands s user row already token := by
  intro invite hinvite hpending
  exact absurd hpending (OrgDb.claimInvite_eq_none (Option.map_eq_none_iff.mp h) invite hinvite)

theorem State.enrol_eq_some (h : s.enrol user row already token now = some t) :
    ∃ invite, s.db.invites.find? row.id = some invite ∧ invite.consumedAt = none ∧
      t.db.invites = (s.db.consumeInvite row.id now).invites ∧ t.txs = s.txs ∧
      t.issued = s.issued ∧
      t.admissions = s.admissions ++ [⟨token.getD invite.tokenHash, invite, user,
        if row.orgId ∈ already ∨ (s.db.members.find? (row.orgId, user)).isSome then none
        else some row.role⟩] := by
  obtain ⟨⟨invite, db⟩, hclaim, rfl⟩ := Option.map_eq_some_iff.mp h
  obtain ⟨hinvite, hpending, rfl⟩ := OrgDb.claimInvite_eq_some hclaim
  refine ⟨invite, hinvite, hpending, ?_, rfl, rfl, rfl⟩
  dsimp only
  split <;> rfl

theorem sound_enrol (hs : Known s) (hsound : Sound s.admissions)
    (hrow : token = none ∨ token = some row.tokenHash ∧
      ∀ r ∈ s.db.invites, r.tokenHash = row.tokenHash → r.role = row.role)
    (h : s.enrol user row already token now = some t) :
    Sound t.admissions ↔ Stands s user row already token := by
  obtain ⟨invite, hinvite, hpending, -, -, -, hadmissions⟩ := State.enrol_eq_some h
  have hmem := Table.mem_of_find? hinvite
  have hother : ∀ a ∈ s.admissions, a.token ≠ invite.tokenHash := fun a ha e =>
    (hs.claimed a ha).2 invite hmem e.symm hpending
  have hstands : Stands s user row already token ↔ Agrees s user row already invite token := by
    unfold Stands
    rw [hinvite]
    exact ⟨fun h => h invite rfl hpending, fun h _ e _ => by cases e; exact h⟩
  rw [hadmissions, sound_snoc, and_iff_right hsound, hstands]
  obtain rfl | ⟨rfl, hrole⟩ := hrow
  · simp only [Option.getD_none, true_and, Agrees]
    rw [and_iff_right hother]
    split
    · next hmember => exact iff_of_true (fun _ e => by cases e) (.inl hmember)
    · next hmember =>
      rw [or_iff_right hmember]
      exact ⟨fun hgranted => hgranted row.role rfl, fun e _ hgranted => by cases hgranted; exact e⟩
  · simp only [Option.getD_some, Agrees]
    constructor
    · exact fun hnew => hnew.2.1
    · intro e
      refine ⟨by rwa [e], e, fun role hgranted => ?_⟩
      rw [hrole invite hmem e.symm]
      split at hgranted
      · cases hgranted
      · cases hgranted
        rfl

theorem known_enrol (hs : Known s) (h : s.enrol user row already token now = some t)
    (hsound : Sound t.admissions) : Known t := by
  obtain ⟨invite, hinvite, hpending, hinvites, htxs, hissued, hadmissions⟩ := State.enrol_eq_some h
  have hrows : ∀ r ∈ t.db.invites, ∃ r' ∈ s.db.invites, r'.consume row.id now = r := fun r hr => by
    rw [hinvites] at hr
    exact OrgDb.mem_consumeInvite.mp hr
  refine ⟨?_, ?_, ?_⟩
  · intro r hr
    obtain ⟨r', hr', rfl⟩ := hrows r hr
    rw [Invite.consume_tokenHash, hissued]
    exact hs.issued r' hr'
  · intro tx htx user' row' now' hrest
    obtain ⟨hheld, hrole⟩ := hs.held tx (htxs ▸ htx) user' row' now' hrest
    refine ⟨hissued ▸ hheld, fun r hr e => ?_⟩
    obtain ⟨r', hr', rfl⟩ := hrows r hr
    rw [Invite.consume_role]
    exact hrole r' hr' (by rwa [Invite.consume_tokenHash] at e)
  · rw [hadmissions] at hsound ⊢
    obtain ⟨-, -, hlive, -⟩ := sound_snoc.mp hsound
    intro a ha
    obtain ha | ha := List.mem_append.mp ha
    · obtain ⟨hclaimed, hconsumed⟩ := hs.claimed a ha
      refine ⟨hissued ▸ hclaimed, fun r hr e => ?_⟩
      obtain ⟨r', hr', rfl⟩ := hrows r hr
      rw [Invite.consume_tokenHash] at e
      exact Invite.consume_ne_none (hconsumed r' hr' e)
    · rw [List.mem_singleton] at ha
      have htoken : a.token = invite.tokenHash := by rw [ha]; exact hlive
      have hmem := Table.mem_of_find? hinvite
      rw [htoken]
      refine ⟨hissued ▸ hs.issued invite hmem, fun r hr e => ?_⟩
      obtain ⟨r', hr', rfl⟩ := hrows r hr
      rw [Invite.consume_tokenHash] at e
      rw [s.db.tokenHashIdx r' hr' invite hmem e, ← Table.key_of_find? hinvite]
      exact Invite.consume_self

def AllStand (user : UserId) (already : List OrgId) (now : Time) : List Invite → State → Prop
  | [], _ => True
  | row :: rows, s => Stands s user row already none ∧
      AllStand user already now rows ((s.enrol user row already none now).getD s)

theorem State.admissions_enrolAll (user : UserId) (already : List OrgId) (now : Time)
    (rows : List Invite) (active : Option OrgId) (s : State) :
    ∃ rest, (enrolAll user already now rows active s).2.admissions = s.admissions ++ rest := by
  induction rows generalizing active s with
  | nil => exact ⟨[], (List.append_nil _).symm⟩
  | cons row rows ih =>
    unfold enrolAll
    split
    · exact ih _ _
    · next u henrol =>
      obtain ⟨invite, -, -, -, -, -, hadmissions⟩ := enrol_eq_some henrol
      obtain ⟨rest, hrest⟩ := ih (active.or (some row.orgId)) u
      rw [hrest, hadmissions, List.append_assoc]
      exact ⟨_, rfl⟩

theorem sound_enrolAll (rows : List Invite) (active : Option OrgId) (hs : Known s)
    (hsound : Sound s.admissions) :
    Sound (State.enrolAll user already now rows active s).2.admissions ↔
      AllStand user already now rows s := by
  induction rows generalizing active s with
  | nil => exact iff_of_true hsound trivial
  | cons row rows ih =>
    unfold State.enrolAll AllStand
    cases henrol : s.enrol user row already none now with
    | none =>
      rw [and_iff_right (State.enrol_eq_none henrol)]
      exact ih _ hs hsound
    | some u =>
      rw [← sound_enrol hs hsound (.inl rfl) henrol]
      constructor
      · intro hall
        obtain ⟨rest, hrest⟩ := State.admissions_enrolAll user already now rows
          (active.or (some row.orgId)) u
        have hu : Sound u.admissions := Sound.of_append (hrest ▸ hall)
        exact ⟨hu, (ih _ (known_enrol hs henrol hu) hu).mp hall⟩
      · rintro ⟨hu, hall⟩
        exact (ih _ (known_enrol hs henrol hu) hu).mpr hall

theorem known_enrolAll (rows : List Invite) (active : Option OrgId) (hs : Known s)
    (hsound : Sound (State.enrolAll user already now rows active s).2.admissions) :
    Known (State.enrolAll user already now rows active s).2 := by
  induction rows generalizing active s with
  | nil => exact hs
  | cons row rows ih =>
    unfold State.enrolAll at hsound ⊢
    cases henrol : s.enrol user row already none now with
    | none =>
      simp only [henrol] at hsound ⊢
      exact ih _ hs hsound
    | some u =>
      simp only [henrol] at hsound ⊢
      obtain ⟨rest, hrest⟩ := State.admissions_enrolAll user already now rows
        (active.or (some row.orgId)) u
      exact ih _ (known_enrol hs henrol (Sound.of_append (hrest ▸ hsound))) hsound

end Admitting

section Runs

variable (collation : Collation) (hashToken : InviteToken → TokenHash) {s t : State}

/-- Nothing that a transaction read of the invites it claims has been replaced since. -/
def Rest.Stands (s : State) : Rest → Prop
  | .claim user row _ => Orgs.Stands s user row [] (some row.tokenHash)
  | .claimAll user rows already now => AllStand user already now rows s
  | _ => True

def Standing (s : State) : OrgAct → Prop
  | .commit id => ∀ tx ∈ s.txs.find? id, tx.rest.Stands s
  | _ => True

theorem Known.write (hs : Known s) (minted : List TokenHash)
    (hfresh : ∀ hash ∈ minted, hash ∉ s.issued)
    (hinvites : ∀ r ∈ t.db.invites, r ∈ s.db.invites ∨ r.tokenHash ∈ minted)
    (hissued : t.issued = s.issued ++ minted) (hadmissions : t.admissions = s.admissions)
    (htxs : ∀ tx ∈ t.txs, tx ∈ s.txs) : Known t := by
  have hold : ∀ hash ∈ s.issued, ∀ r ∈ t.db.invites, r.tokenHash = hash → r ∈ s.db.invites := by
    intro hash hhash r hr e
    refine (hinvites r hr).resolve_right fun hminted => ?_
    rw [e] at hminted
    exact hfresh hash hminted hhash
  refine ⟨fun r hr => ?_, fun tx htx user row now hrest => ?_, fun a ha => ?_⟩
  · rw [hissued, List.mem_append]
    exact (hinvites r hr).imp_left (hs.issued r)
  · obtain ⟨hheld, hrole⟩ := hs.held tx (htxs tx htx) user row now hrest
    rw [hissued]
    exact ⟨List.mem_append_left _ hheld, fun r hr e => hrole r (hold _ hheld r hr e) e⟩
  · rw [hadmissions] at ha
    obtain ⟨hclaimed, hconsumed⟩ := hs.claimed a ha
    rw [hissued]
    exact ⟨List.mem_append_left _ hclaimed, fun r hr e => hconsumed r (hold _ hclaimed r hr e) e⟩

theorem Known.finish {id : TxId} {reply : Except OrgError Reply} (hs : Known s) :
    Known (s.finish id reply) :=
  hs.write [] (by simp) (fun r hr => .inl hr) (List.append_nil _).symm rfl
    fun _ => State.mem_finish

theorem Known.go {id : TxId} {rest : Rest} (hs : Known s)
    (hread : ∀ user row now, rest = .claim user row now → row ∈ s.db.invites) :
    Known (s.go id rest) := by
  refine ⟨hs.issued, fun tx htx user row now hrest => ?_, hs.claimed⟩
  obtain rfl | ⟨htx, -⟩ := Table.mem_put.mp htx
  · have hrow := hread user row now hrest
    refine ⟨hs.issued row hrow, fun r hr e => ?_⟩
    rw [s.db.tokenHashIdx r hr row hrow e]
  · exact hs.held tx htx user row now hrest

theorem known_step {a : OrgAct} (hs : Known s) (h : orgStep collation hashToken s a = some t)
    (hsound : Sound t.admissions) : Known t := by
  cases step_effect h with
  | idle db issued admissions txs =>
    exact hs.write [] (by simp) (fun r hr => .inl (db ▸ hr))
      (issued.trans (List.append_nil _).symm) admissions txs
  | go id rest read => exact hs.go read
  | write minted fresh writes issued admissions txs =>
    exact hs.write minted fresh writes.invites issued admissions txs
  | member id org user newRole _ _ invites issued admissions txs =>
    exact hs.write [] (by simp) (fun r hr => .inl (invites ▸ hr))
      (issued.trans (List.append_nil _).symm) admissions txs
  | claim id user row now _ enrol reply done =>
    subst done
    exact (known_enrol hs enrol hsound).finish
  | claimAll id user rows already now _ reply done =>
    subst done
    exact (known_enrolAll rows none hs hsound).finish

theorem sound_step {a : OrgAct} (hs : Known s) (hsound : Sound s.admissions)
    (h : orgStep collation hashToken s a = some t) : Sound t.admissions ↔ Standing s a := by
  cases a with
  | commit id =>
    obtain ⟨tx, htx, hcommit⟩ := Option.bind_eq_some_iff.mp h
    have hstanding : Standing s (.commit id) ↔ tx.rest.Stands s := by
      refine ⟨fun hall => hall tx htx, fun hstands tx' htx' => ?_⟩
      rwa [← Option.some.inj (htx.symm.trans htx')]
    rw [hstanding]
    have hmem := Table.mem_of_find? htx
    obtain ⟨id', rest⟩ := tx
    cases rest with
    | count org user newRole => cases hcommit
    | write org user newRole =>
      dsimp only [State.commit] at hcommit
      split at hcommit <;> cases hcommit <;> exact iff_of_true hsound trivial
    | claim user row now =>
      dsimp only [State.commit] at hcommit
      split at hcommit
      · next henrol =>
        cases hcommit
        exact iff_of_true hsound (State.enrol_eq_none henrol)
      · next u henrol =>
        have hadmits := sound_enrol hs hsound
          (.inr ⟨rfl, (hs.held _ hmem user row now rfl).2⟩) henrol
        cases hcommit
        exact hadmits
    | claimAll user rows already now =>
      cases hcommit
      exact sound_enrolAll rows none hs hsound
  | _ =>
    refine iff_of_true ?_ trivial
    cases step_effect h with
    | idle _ _ admissions => rwa [admissions]
    | go => exact hsound
    | write _ _ _ _ admissions => rwa [admissions]

theorem known_start (db : OrgDb) : Known (.start db) where
  issued _ hr := List.mem_map_of_mem hr
  held tx htx := absurd htx (Table.not_mem_empty tx)
  claimed _ ha := absurd ha List.not_mem_nil

/-- Invites are single-use and revocable through a schedule exactly when no claim overtakes the
rotation of what it read. -/
theorem singleUse_iff (db : OrgDb) (acts : List OrgAct) :
    Always (orgStep collation hashToken) (fun s => Sound s.admissions) (.start db) acts ↔
      Steps (orgStep collation hashToken) Standing (.start db) acts :=
  always_iff_steps Known (fun _ _ _ hs _ e hsound => known_step collation hashToken hs e hsound)
    (fun _ _ _ hs hsound e => sound_step collation hashToken hs hsound e) (known_start db) sound_nil
    acts

end Runs

namespace Sample

def lengths (token : InviteToken) : TokenHash := .ofNat 256 token.length

def exact : Collation := ⟨fun email => email, fun email email' => email = email'⟩

def noOrgs : OrgDb where
  members := .empty
  invites := .empty
  tokenHashIdx := OrgDb.tokenHashIdx_empty

def overtaken : List OrgAct :=
  [.createInvites 0 1 [⟨"ann@example.com", 7, "a"⟩] .member 0 100, .acceptInvite 1 20 "a" 5,
    .resendInvite 2 1 7 "bb" 6 100, .commit 1]

end Sample

theorem withdrawn_token_admits : ¬ ∀ (collation : Collation) (hashToken : InviteToken → TokenHash)
    (db : OrgDb) (acts : List OrgAct),
    Always (orgStep collation hashToken) (fun s => Sound s.admissions) (.start db) acts := by
  intro h
  have hrun : ∃ t ∈ run (orgStep Sample.exact Sample.lengths) (.start Sample.noOrgs)
      Sample.overtaken, ∃ a ∈ t.admissions, a.token ≠ a.invite.tokenHash := by
    decide +kernel
  obtain ⟨t, hrun, a, ha, hne⟩ := hrun
  have hsound := h Sample.exact Sample.lengths Sample.noOrgs Sample.overtaken
  exact hne ((hsound.run hrun).live a ha)

end Patom.Orgs
