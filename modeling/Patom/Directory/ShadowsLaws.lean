import Patom.Directory.Store

open Patom.Auth (Email)
open Patom.Foundation
open Patom.Orgs (OrgMember)

namespace Patom.Directory

variable {fold : Email → String}

def Links (db : DirectoryDb fold) : OrgId × ExternalUser → ColleagueId → Prop
  | (org, .discord user), k =>
    ∃ h ∈ db.discordHandles, h.orgId = org ∧ h.discordUserId = user ∧ h.colleagueId = k
  | (org, .lark tenant user), k =>
    ∃ h ∈ db.larkHandles, h.orgId = org ∧ h.tenantKey = tenant ∧ h.larkUserId = user ∧
      h.colleagueId = k

/-- Every call succeeds, with the one colleague of its person in its organization. -/
structure Shadows (s : Shadowing fold) : Prop where
  succeeds : ∀ a ∈ s.answers, ∃ shadow, a.result = .ok shadow
  one : ∀ a ∈ s.answers, ∀ a' ∈ s.answers, ∀ shadow shadow', a.result = .ok shadow →
    a'.result = .ok shadow' →
      (a.request.key = a'.request.key ↔ shadow.colleagueId = shadow'.colleagueId)
  home : ∀ a ∈ s.answers, ∀ shadow, a.result = .ok shadow →
    ∃ c ∈ s.db.colleagues, c.id = shadow.colleagueId ∧ c.orgId = a.request.key.1

section Guard

variable (db : DirectoryDb fold)

def ownOrg : ShadowRequest → Bool
  | .discord .. => true
  | .lark org tenant user _ _ => (db.larkHandles.find? (tenant, user)).all fun h => h.orgId = org

def userTakes (user : UserId) (name : String) : Bool :=
  (db.users.find? user).all fun u => u.displayName.isSome || userNameCheck name

def handleTakes (request : ShadowRequest) (name : String) : Bool :=
  match request with
  | .discord org user _ => (db.discordHandles.find? (org, user)).all fun h =>
      h.displayName = some name || handleNameCheck name
  | .lark .. => true

def refreshable (request : ShadowRequest) : Bool :=
  request.displayName.all fun name => handleTakes db request name &&
    (request.handle db).all fun colleague => (db.colleagues.find? colleague).all fun c =>
      c.userId.all fun user => userTakes db user name

def nameable (request : ShadowRequest) : Bool :=
  request.displayName.all fun name => userNameCheck name &&
    match request with
    | .discord .. => handleNameCheck name
    | .lark .. => true

end Guard

/-- A call finds the handle of its own organization, or is the first sight of an address in any. -/
def Clear (s : Shadowing fold) : ShadowAct → Prop
  | .read c => ∀ call ∈ s.calls.find? c, call.minting = false →
      ownOrg s.db call.request = true ∧ refreshable s.db call.request = true
  | .mint c _ _ => ∀ call ∈ s.calls.find? c, call.minting = true →
      ¬s.db.EmailTaken call.request.key.2.syntheticEmail ∧ nameable call.request = true
  | _ => True

instance clearDecidable (s : Shadowing fold) : (a : ShadowAct) → Decidable (Clear s a)
  | .read c => inferInstanceAs (Decidable (∀ call ∈ s.calls.find? c, call.minting = false →
      ownOrg s.db call.request = true ∧ refreshable s.db call.request = true))
  | .mint c _ _ => inferInstanceAs (Decidable (∀ call ∈ s.calls.find? c, call.minting = true →
      ¬s.db.EmailTaken call.request.key.2.syntheticEmail ∧ nameable call.request = true))
  | .begin .. | .drop _ => .isTrue trivial

section Refreshing

variable {db db' db'' : DirectoryDb fold}

theorem links_unique {p : OrgId × ExternalUser} {k k' : ColleagueId} (h : Links db p k)
    (h' : Links db p k') : k = k' := by
  obtain ⟨org, external⟩ := p
  cases external with
  | discord user =>
    obtain ⟨r, hr, horg, huser, rfl⟩ := h
    obtain ⟨r', hr', horg', huser', rfl⟩ := h'
    rw [Table.eq_of_key_eq hr hr' (Prod.ext (horg.trans horg'.symm) (huser.trans huser'.symm))]
  | lark tenant user =>
    obtain ⟨r, hr, -, htenant, huser, rfl⟩ := h
    obtain ⟨r', hr', -, htenant', huser', rfl⟩ := h'
    rw [Table.eq_of_key_eq hr hr'
      (Prod.ext (htenant.trans htenant'.symm) (huser.trans huser'.symm))]

structure Refreshed (db db' : DirectoryDb fold) : Prop where
  colleagues : db'.colleagues = db.colleagues
  links : ∀ p k, Links db' p k ↔ Links db p k
  users : ∀ u ∈ db.users, ∃ u' ∈ db'.users, u'.id = u.id ∧ u'.email = u.email

theorem Refreshed.refl (db : DirectoryDb fold) : Refreshed db db :=
  ⟨rfl, fun _ _ => Iff.rfl, fun u hu => ⟨u, hu, rfl, rfl⟩⟩

theorem Refreshed.trans (h : Refreshed db db') (h' : Refreshed db' db'') : Refreshed db db'' := by
  refine ⟨h'.colleagues.trans h.colleagues, fun p k => (h'.links p k).trans (h.links p k),
    fun u hu => ?_⟩
  obtain ⟨u', hu', hid, hemail⟩ := h.users u hu
  obtain ⟨u'', hu'', hid', hemail'⟩ := h'.users u' hu'
  exact ⟨u'', hu'', hid'.trans hid, hemail'.trans hemail⟩

theorem nameUser_ok {user : UserId} {name : String} (h : userTakes db user name) :
    ∃ db', db.nameUser user name = .ok db' ∧ Refreshed db db' := by
  unfold DirectoryDb.nameUser
  split
  case h_1 => exact ⟨db, rfl, .refl db⟩
  case h_2 u hu =>
    split
    case isTrue => exact ⟨db, rfl, .refl db⟩
    case isFalse hnone =>
      have hname : userNameCheck name = true := by
        simpa [userTakes, hu, hnone] using h
      rw [if_pos hname]
      refine ⟨_, rfl, rfl, fun _ _ => Iff.rfl, fun u' hu' => ?_⟩
      by_cases e : u'.id = u.id
      · refine ⟨_, Table.mem_put.mpr (.inl rfl), e.symm, ?_⟩
        rw [Table.eq_of_key_eq hu' (Table.mem_of_find? hu) e]
      · exact ⟨u', Table.mem_put.mpr (.inr ⟨hu', e⟩), rfl, rfl⟩

theorem links_putDiscordHandle {h old : DiscordHandle}
    {hc : ∃ c ∈ db.colleagues, c.id = h.colleagueId}
    (hold : old ∈ db.discordHandles) (horg : h.orgId = old.orgId)
    (huser : h.discordUserId = old.discordUserId) (hcolleague : h.colleagueId = old.colleagueId)
    (p : OrgId × ExternalUser) (k : ColleagueId) :
    Links (db.putDiscordHandle h hc) p k ↔ Links db p k := by
  obtain ⟨org, external⟩ := p
  cases external with
  | lark tenant user => exact Iff.rfl
  | discord user =>
    constructor
    · rintro ⟨r, hr, hrest⟩
      obtain rfl | ⟨hr, -⟩ := Table.mem_put.mp hr
      · exact ⟨old, hold, by rwa [← horg, ← huser, ← hcolleague]⟩
      · exact ⟨r, hr, hrest⟩
    · rintro ⟨r, hr, hrest⟩
      by_cases e : key r = key h
      · have hkey : key r = key old := e.trans (Prod.ext horg huser)
        obtain rfl := Table.eq_of_key_eq hr hold hkey
        exact ⟨h, Table.mem_put.mpr (.inl rfl), by rwa [horg, huser, hcolleague]⟩
      · exact ⟨r, Table.mem_put.mpr (.inr ⟨hr, e⟩), hrest⟩

theorem links_putLarkHandle {h old : LarkHandle} {hc : ∃ c ∈ db.colleagues, c.id = h.colleagueId}
    (hold : old ∈ db.larkHandles) (horg : h.orgId = old.orgId)
    (htenant : h.tenantKey = old.tenantKey)
    (huser : h.larkUserId = old.larkUserId) (hcolleague : h.colleagueId = old.colleagueId)
    (p : OrgId × ExternalUser) (k : ColleagueId) :
    Links (db.putLarkHandle h hc) p k ↔ Links db p k := by
  obtain ⟨org, external⟩ := p
  cases external with
  | discord user => exact Iff.rfl
  | lark tenant user =>
    constructor
    · rintro ⟨r, hr, hrest⟩
      obtain rfl | ⟨hr, -⟩ := Table.mem_put.mp hr
      · exact ⟨old, hold, by rwa [← horg, ← htenant, ← huser, ← hcolleague]⟩
      · exact ⟨r, hr, hrest⟩
    · rintro ⟨r, hr, hrest⟩
      by_cases e : key r = key h
      · have hkey : key r = key old := e.trans (Prod.ext htenant huser)
        obtain rfl := Table.eq_of_key_eq hr hold hkey
        exact ⟨h, Table.mem_put.mpr (.inl rfl), by rwa [horg, htenant, huser, hcolleague]⟩
      · exact ⟨r, Table.mem_put.mpr (.inr ⟨hr, e⟩), hrest⟩

theorem renameDiscordHandle_ok {org : OrgId} {user : Discord.DiscordUserId} {name : String}
    (h : (db.discordHandles.find? (org, user)).all fun h =>
      h.displayName = some name || handleNameCheck name) :
    ∃ db', db.renameDiscordHandle org user name = .ok db' ∧ Refreshed db db' ∧
      db'.users = db.users := by
  unfold DirectoryDb.renameDiscordHandle
  split
  case h_1 => exact ⟨db, rfl, .refl db, rfl⟩
  case h_2 old hold =>
    split
    case isTrue => exact ⟨db, rfl, .refl db, rfl⟩
    case isFalse hne =>
      have hname : handleNameCheck name = true := by
        simpa [hold, hne] using h
      rw [if_pos hname]
      exact ⟨_, rfl, ⟨rfl, links_putDiscordHandle (Table.mem_of_find? hold) rfl rfl rfl,
        fun u hu => ⟨u, hu, rfl, rfl⟩⟩, rfl⟩

theorem refreshOpenId_refreshed (db : DirectoryDb fold) (tenant : Lark.TenantKey)
    (user : Lark.LarkUserId) (openId : Lark.LarkOpenId) :
    Refreshed db (db.refreshOpenId tenant user openId) ∧
      (db.refreshOpenId tenant user openId).users = db.users := by
  unfold DirectoryDb.refreshOpenId
  split
  case h_1 => exact ⟨.refl db, rfl⟩
  case h_2 old hold =>
    exact ⟨⟨rfl, links_putLarkHandle (Table.mem_of_find? hold) rfl rfl rfl rfl,
      fun u hu => ⟨u, hu, rfl, rfl⟩⟩, rfl⟩

theorem refresh_ok {request : ShadowRequest} {shadow : ShadowColleague}
    (hhandle : ∀ name ∈ request.displayName, handleTakes db request name)
    (huser : ∀ name ∈ request.displayName, userTakes db shadow.userId name) :
    ∃ db', refresh db request shadow = .ok db' ∧ Refreshed db db' := by
  cases request with
  | discord org user name =>
    simp only [refresh]
    split
    case h_1 => exact ⟨db, rfl, .refl db⟩
    case h_2 n hn =>
      obtain ⟨db₁, hrename, hrefreshed, husers⟩ := renameDiscordHandle_ok (hhandle n hn)
      have htakes : userTakes db₁ shadow.userId n := by
        rw [userTakes, husers]
        exact huser n hn
      obtain ⟨db₂, hname, hrefreshed'⟩ := nameUser_ok htakes
      exact ⟨db₂, by rw [hrename]; exact hname, hrefreshed.trans hrefreshed'⟩
  | lark org tenant user openId name =>
    obtain ⟨hrefreshed, husers⟩ := refreshOpenId_refreshed db tenant user openId
    simp only [refresh]
    split
    case h_1 => exact ⟨_, rfl, hrefreshed⟩
    case h_2 n hn =>
      have htakes : userTakes (db.refreshOpenId tenant user openId) shadow.userId n := by
        rw [userTakes, husers]
        exact huser n hn
      obtain ⟨db₂, hname, hrefreshed'⟩ := nameUser_ok htakes
      exact ⟨db₂, hname, hrefreshed.trans hrefreshed'⟩

end Refreshing

section Minting

variable {db : DirectoryDb fold} {request : ShadowRequest} {user : UserId} {colleague : ColleagueId}

theorem emailCheck_synthetic (external : ExternalUser) : emailCheck external.syntheticEmail := by
  cases external with
  | discord user =>
    have hsize : (ExternalUser.discord user).syntheticEmail.utf8ByteSize =
        8 + user.asStr.utf8ByteSize + 15 := by
      simp only [ExternalUser.syntheticEmail, String.utf8ByteSize_append]
      rfl
    have hle := user.bounded
    rw [Discord.DISCORD_SNOWFLAKE_MAX_LEN] at hle
    simp only [emailCheck, hsize, Bool.and_eq_true, decide_eq_true_eq]
    omega
  | lark tenant user =>
    have hsize : (ExternalUser.lark tenant user).syntheticEmail.utf8ByteSize =
        5 + user.asStr.utf8ByteSize + 15 := by
      simp only [ExternalUser.syntheticEmail, String.utf8ByteSize_append]
      rfl
    have hle := user.bounded
    rw [Lark.LARK_ID_MAX_LEN] at hle
    simp only [emailCheck, hsize, Bool.and_eq_true, decide_eq_true_eq]
    omega

structure MintedShadow (db db' : DirectoryDb fold) (request : ShadowRequest) (user : UserId)
    (colleague : ColleagueId) : Prop where
  colleagues : db.colleagues.insert? (DirectoryDb.human colleague request.key.1 user) =
    some db'.colleagues
  links : ∀ p k, Links db' p k ↔ Links db p k ∨ p = request.key ∧ k = colleague
  users : ∀ u ∈ db.users, u ∈ db'.users
  user : ∃ u ∈ db'.users, u.id = user ∧ u.email = request.key.2.syntheticEmail

theorem upsertHandle_ok (hname : nameable request) (hnone : request.handle db = none)
    (hcolleague : ∃ c ∈ db.colleagues, c.id = colleague) :
    ∃ db', upsertHandle db request colleague = .ok db' ∧ db'.colleagues = db.colleagues ∧
      db'.users = db.users ∧
        ∀ p k, Links db' p k ↔ Links db p k ∨ p = request.key ∧ k = colleague := by
  cases request with
  | discord org user name =>
    have hfresh : db.discordHandles.find? (org, user) = none := Option.map_eq_none_iff.mp hnone
    have hcheck : (ShadowRequest.displayName (.discord org user name)).all handleNameCheck := by
      simp only [nameable, Option.all_eq_true, Bool.and_eq_true] at hname ⊢
      exact fun n hn => (hname n hn).2
    simp only [upsertHandle, DirectoryDb.upsertDiscordHandle]
    rw [if_neg (by simpa using hcheck)]
    split
    case h_1 old hold => cases hfresh.symm.trans hold
    case h_2 =>
      rw [dif_pos hcolleague]
      refine ⟨_, rfl, rfl, rfl, fun p k => ?_⟩
      obtain ⟨org', external⟩ := p
      cases external with
      | lark tenant user' =>
        refine ⟨.inl, ?_⟩
        rintro (h | ⟨e, -⟩)
        · exact h
        · cases e
      | discord user' =>
        constructor
        · rintro ⟨r, hr, horg, huser, hk⟩
          obtain rfl | ⟨hr, -⟩ := Table.mem_put.mp hr
          · exact .inr ⟨Prod.ext horg.symm (by rw [← huser]; rfl), hk.symm⟩
          · exact .inl ⟨r, hr, horg, huser, hk⟩
        · rintro (⟨r, hr, horg, huser, hk⟩ | ⟨e, rfl⟩)
          · refine ⟨r, Table.mem_put.mpr (.inr ⟨hr, fun e => ?_⟩), horg, huser, hk⟩
            exact Table.find?_eq_none.mp hfresh r hr e
          · cases e
            exact ⟨_, Table.mem_put.mpr (.inl rfl), rfl, rfl, rfl⟩
  | lark org tenant user openId name =>
    have hfresh : db.larkHandles.find? (tenant, user) = none := Option.map_eq_none_iff.mp hnone
    simp only [upsertHandle, DirectoryDb.upsertLarkHandle]
    split
    case h_1 old hold => cases hfresh.symm.trans hold
    case h_2 =>
      rw [dif_pos hcolleague]
      refine ⟨_, rfl, rfl, rfl, fun p k => ?_⟩
      obtain ⟨org', external⟩ := p
      cases external with
      | discord user' =>
        refine ⟨.inl, ?_⟩
        rintro (h | ⟨e, -⟩)
        · exact h
        · cases e
      | lark tenant' user' =>
        constructor
        · rintro ⟨r, hr, horg, htenant, huser, hk⟩
          obtain rfl | ⟨hr, -⟩ := Table.mem_put.mp hr
          · refine .inr ⟨Prod.ext horg.symm ?_, hk.symm⟩
            rw [← htenant, ← huser]
            rfl
          · exact .inl ⟨r, hr, horg, htenant, huser, hk⟩
        · rintro (⟨r, hr, horg, htenant, huser, hk⟩ | ⟨e, rfl⟩)
          · refine ⟨r, Table.mem_put.mpr (.inr ⟨hr, fun e => ?_⟩), horg, htenant, huser, hk⟩
            exact Table.find?_eq_none.mp hfresh r hr e
          · cases e
            exact ⟨_, Table.mem_put.mpr (.inl rfl), rfl, rfl, rfl, rfl⟩

theorem insertUser_ok (row : UserRow) (hcheck : emailCheck row.email)
    (hname : row.displayName.all userNameCheck) (hnew : db.users.find? row.id = none)
    (hfree : ¬db.EmailTaken row.email) :
    ∃ db', db.insertUser row = .ok db' ∧ db'.users = db.users.put row ∧ db'.members = db.members ∧
      db'.colleagues = db.colleagues ∧ db'.discordHandles = db.discordHandles ∧
        db'.larkHandles = db.larkHandles := by
  unfold DirectoryDb.insertUser
  rw [if_neg (by simpa using hcheck), if_neg (by simpa using hname), if_neg (by simp [hnew]),
    dif_neg hfree]
  exact ⟨_, rfl, rfl, rfl, rfl, rfl, rfl⟩

theorem insertMember_ok (m : OrgMember) (huser : ∃ u ∈ db.users, u.id = m.userId)
    (hmember : db.members.find? (m.orgId, m.userId) = none)
    (hnew : ∀ c ∈ db.colleagues, c.userId ≠ some m.userId)
    (hfresh : db.colleagues.find? colleague = none) :
    ∃ db', db.insertMember m colleague = .ok db' ∧ db'.users = db.users ∧
      db.colleagues.insert? (DirectoryDb.human colleague m.orgId m.userId) = some db'.colleagues ∧
        db'.discordHandles = db.discordHandles ∧ db'.larkHandles = db.larkHandles := by
  unfold DirectoryDb.insertMember
  rw [dif_pos huser]
  split
  case h_1 hnone => exact absurd hmember (Table.insert?_eq_none.mp hnone)
  case h_2 members hmembers =>
    have hno : db.hasColleague m.orgId m.userId = false := by
      simp only [DirectoryDb.hasColleague, List.any_eq_false, Bool.and_eq_true, decide_eq_true_eq]
      exact fun c hc e => hnew c hc e.2
    simp only [hno, Bool.false_eq_true, if_false]
    split
    case h_1 hnone => exact absurd hfresh (Table.insert?_eq_none.mp hnone)
    case h_2 hins => exact ⟨_, rfl, rfl, hins, rfl, rfl⟩

theorem colleagueOf_minted {org : OrgId} {colleagues : Table Threads.ColleagueRow}
    (hins : colleagues.insert? (DirectoryDb.human colleague org user) = some db.colleagues)
    (hnew : ∀ c ∈ colleagues, c.userId ≠ some user) : db.colleagueOf org user = .ok colleague := by
  unfold DirectoryDb.colleagueOf
  split
  case h_1 c hc =>
    have hp := List.find?_some hc
    simp only [Bool.and_eq_true, decide_eq_true_eq] at hp
    obtain hold | rfl := (Table.mem_insert? hins).mp (List.mem_of_find?_eq_some hc)
    · exact absurd hp.2 (hnew c hold)
    · rfl
  case h_2 hnone =>
    have hmem := (Table.mem_insert? hins).mpr (.inr rfl)
    have hno := List.find?_eq_none.mp hnone _ hmem
    simp [DirectoryDb.human] at hno

theorem links_of_handles {db db' : DirectoryDb fold}
    (hdiscord : db'.discordHandles = db.discordHandles) (hlark : db'.larkHandles = db.larkHandles)
    (p : OrgId × ExternalUser) (k : ColleagueId) : Links db' p k ↔ Links db p k := by
  obtain ⟨org, external⟩ := p
  cases external with
  | discord user =>
    unfold Links
    rw [hdiscord]
  | lark tenant user =>
    unfold Links
    rw [hlark]

theorem handle_of_handles {db db' : DirectoryDb fold}
    (hdiscord : db'.discordHandles = db.discordHandles) (hlark : db'.larkHandles = db.larkHandles) :
    request.handle db' = request.handle db := by
  cases request with
  | discord => simp only [ShadowRequest.handle, hdiscord]
  | lark => simp only [ShadowRequest.handle, hlark]

theorem mintShadow_ok (hfree : ¬db.EmailTaken request.key.2.syntheticEmail)
    (hname : nameable request) (huser : db.users.find? user = none)
    (hcolleague : db.colleagues.find? colleague = none) (hnone : request.handle db = none) :
    ∃ db', mintShadow db request user colleague = .ok (db', ⟨colleague, user⟩) ∧
      MintedShadow db db' request user colleague := by
  have hnames : request.displayName.all userNameCheck := by
    simp only [nameable, Option.all_eq_true, Bool.and_eq_true] at hname ⊢
    exact fun n hn => (hname n hn).1
  have hunknown : ∀ u ∈ db.users, u.id ≠ user := Table.find?_eq_none.mp huser
  obtain ⟨db₁, hinsert, husers₁, hmembers₁, hcolleagues₁, hdiscord₁, hlark₁⟩ :=
    insertUser_ok ⟨user, request.key.2.syntheticEmail, request.displayName⟩
      (emailCheck_synthetic _) hnames huser hfree
  have hnew : ∀ c ∈ db₁.colleagues, c.userId ≠ some user := by
    rw [hcolleagues₁]
    intro c hc e
    obtain ⟨u, hu, hid⟩ := db.colleagueUser c hc user e
    exact hunknown u hu hid
  have hmember : db₁.members.find? (request.key.1, user) = none := by
    rw [hmembers₁]
    refine Table.find?_eq_none.mpr fun m hm e => ?_
    obtain ⟨u, hu, hid⟩ := db.memberUser m hm
    exact hunknown u hu (hid.trans (congrArg Prod.snd e))
  obtain ⟨db₂, hgrant, husers₂, hcolleagues₂, hdiscord₂, hlark₂⟩ :=
    insertMember_ok ⟨request.key.1, user, .member⟩
      ⟨_, by rw [husers₁]; exact Table.mem_put.mpr (.inl rfl), rfl⟩ hmember hnew
      (by rw [hcolleagues₁]; exact hcolleague)
  have hof : db₂.colleagueOf request.key.1 user = .ok colleague :=
    colleagueOf_minted hcolleagues₂ hnew
  have hnone₂ : request.handle db₂ = none := by
    rw [handle_of_handles (hdiscord₂.trans hdiscord₁) (hlark₂.trans hlark₁)]
    exact hnone
  have hcol₂ : ∃ c ∈ db₂.colleagues, c.id = colleague :=
    ⟨_, (Table.mem_insert? hcolleagues₂).mpr (.inr rfl), rfl⟩
  obtain ⟨db₃, hupsert, hcolleagues₃, husers₃, hlinks⟩ := upsertHandle_ok hname hnone₂ hcol₂
  refine ⟨db₃, ?_, ?_⟩
  · simp only [mintShadow, hinsert, hgrant, hof, hupsert, bind, Except.bind]
    rfl
  · have husers : db₃.users = db.users.put ⟨user, request.key.2.syntheticEmail,
        request.displayName⟩ := husers₃.trans (husers₂.trans husers₁)
    refine ⟨?_, fun p k => ?_, fun u hu => ?_, ?_⟩
    · rw [hcolleagues₃, ← hcolleagues₂, hcolleagues₁]
    · rw [hlinks, links_of_handles (hdiscord₂.trans hdiscord₁) (hlark₂.trans hlark₁)]
    · rw [husers]
      exact Table.mem_put.mpr (.inr ⟨hu, hunknown u hu⟩)
    · rw [husers]
      exact ⟨_, Table.mem_put.mpr (.inl rfl), rfl, rfl⟩

end Minting

section Runs

variable {s t : Shadowing fold}

/-- A linked colleague is of the organization, and stands for the address of its person. -/
def Stands (db : DirectoryDb fold) (p : OrgId × ExternalUser) (k : ColleagueId) : Prop :=
  ∃ c ∈ db.colleagues, c.id = k ∧ c.orgId = p.1 ∧
    ∃ u ∈ db.users, c.userId = some u.id ∧ fold u.email = fold p.2.syntheticEmail

structure DirectoryInv (s : Shadowing fold) : Prop where
  stands : ∀ p k, Links s.db p k → Stands s.db p k
  apart : ∀ p p' k, Links s.db p k → Links s.db p' k → p = p'
  answers : ∀ a ∈ s.answers, ∃ shadow, a.result = .ok shadow ∧
    Links s.db a.request.key shadow.colleagueId

theorem DirectoryInv.start (db : DirectoryDb fold) : DirectoryInv (.start db) := by
  have hnone (p : OrgId × ExternalUser) (k : ColleagueId) : ¬Links (Shadowing.start db).db p k := by
    obtain ⟨org, external⟩ := p
    cases external <;> rintro ⟨h, hh, -⟩ <;> exact Table.not_mem_empty h hh
  exact ⟨fun p k h => absurd h (hnone p k), fun p _ k h => absurd h (hnone p k),
    fun _ ha => absurd ha List.not_mem_nil⟩

theorem DirectoryInv.calls {calls : Table ShadowCall} (h : DirectoryInv s) :
    DirectoryInv { s with calls } :=
  ⟨h.stands, h.apart, h.answers⟩

theorem Stands.mono {db db' : DirectoryDb fold} {p : OrgId × ExternalUser} {k : ColleagueId}
    (h : Stands db p k) (hcolleagues : ∀ c ∈ db.colleagues, c ∈ db'.colleagues)
    (husers : ∀ u ∈ db.users, ∃ u' ∈ db'.users, u'.id = u.id ∧ u'.email = u.email) :
    Stands db' p k := by
  obtain ⟨c, hc, hid, horg, u, hu, huser, hemail⟩ := h
  obtain ⟨u', hu', hid', hemail'⟩ := husers u hu
  exact ⟨c, hcolleagues c hc, hid, horg, u', hu', by rw [huser, hid'], by rw [hemail', hemail]⟩

theorem DirectoryInv.answer {call : ShadowCall} {shadow : ShadowColleague} (h : DirectoryInv s)
    (hlink : Links s.db call.request.key shadow.colleagueId) :
    DirectoryInv (s.answer call (.ok shadow)) := by
  refine ⟨h.stands, h.apart, fun a ha => ?_⟩
  obtain ha | ha := List.mem_append.mp ha
  · exact h.answers a ha
  · rw [List.mem_singleton.mp ha]
    exact ⟨shadow, rfl, hlink⟩

theorem DirectoryInv.refresh {db : DirectoryDb fold} (h : DirectoryInv s)
    (hrefreshed : Refreshed s.db db) : DirectoryInv { s with db } := by
  refine ⟨fun p k hlink => ?_, fun p p' k hlink hlink' => ?_, fun a ha => ?_⟩
  · refine (h.stands p k ((hrefreshed.links p k).mp hlink)).mono (fun c hc => ?_) hrefreshed.users
    rw [hrefreshed.colleagues]
    exact hc
  · exact h.apart p p' k ((hrefreshed.links p k).mp hlink) ((hrefreshed.links p' k).mp hlink')
  · obtain ⟨shadow, hresult, hlink⟩ := h.answers a ha
    exact ⟨shadow, hresult, (hrefreshed.links _ _).mpr hlink⟩

theorem DirectoryInv.mint {db : DirectoryDb fold} {request : ShadowRequest} {user : UserId}
    {colleague : ColleagueId} (h : DirectoryInv s)
    (hminted : MintedShadow s.db db request user colleague) : DirectoryInv { s with db } := by
  have hkept : ∀ c ∈ s.db.colleagues, c ∈ db.colleagues := fun c hc =>
    (Table.mem_insert? hminted.colleagues).mpr (.inl hc)
  have hfresh (p : OrgId × ExternalUser) : ¬Links s.db p colleague := by
    intro hlink
    obtain ⟨c, hc, hid, -⟩ := h.stands p colleague hlink
    have hnone := Table.insert?_isSome.mp (by rw [hminted.colleagues]; rfl)
    exact Table.find?_eq_none.mp hnone c hc hid
  refine ⟨fun p k hlink => ?_, fun p p' k hlink hlink' => ?_, fun a ha => ?_⟩
  · obtain hold | ⟨rfl, rfl⟩ := (hminted.links p k).mp hlink
    · exact (h.stands p k hold).mono hkept fun u hu => ⟨u, hminted.users u hu, rfl, rfl⟩
    · obtain ⟨u, hu, hid, hemail⟩ := hminted.user
      exact ⟨_, (Table.mem_insert? hminted.colleagues).mpr (.inr rfl), rfl, rfl, u, hu,
        congrArg some hid.symm, congrArg fold hemail⟩
  · obtain hold | ⟨rfl, rfl⟩ := (hminted.links p k).mp hlink <;>
      obtain hold' | ⟨rfl, hk⟩ := (hminted.links p' k).mp hlink'
    · exact h.apart p p' k hold hold'
    · exact absurd (hk ▸ hold) (hfresh p)
    · exact absurd hold' (hfresh p')
    · rfl
  · obtain ⟨shadow, hresult, hlink⟩ := h.answers a ha
    exact ⟨shadow, hresult, (hminted.links _ _).mpr (.inl hlink)⟩

theorem links_of_handle {db : DirectoryDb fold} {request : ShadowRequest} {k : ColleagueId}
    (hhandle : request.handle db = some k) :
    ∃ org, Links db (org, request.key.2) k ∧ (ownOrg db request = true → org = request.key.1) := by
  cases request with
  | discord org user name =>
    obtain ⟨h, hh, rfl⟩ := Option.map_eq_some_iff.mp hhandle
    obtain ⟨hmem, hkey⟩ := Table.find?_eq_some.mp hh
    exact ⟨org, ⟨h, hmem, congrArg Prod.fst hkey, congrArg Prod.snd hkey, rfl⟩, fun _ => rfl⟩
  | lark org tenant user openId name =>
    obtain ⟨h, hh, rfl⟩ := Option.map_eq_some_iff.mp hhandle
    obtain ⟨hmem, hkey⟩ := Table.find?_eq_some.mp hh
    refine ⟨h.orgId, ⟨h, hmem, rfl, congrArg Prod.fst hkey, congrArg Prod.snd hkey, rfl⟩,
      fun hown => ?_⟩
    rw [ownOrg, hh] at hown
    exact of_decide_eq_true hown

theorem DirectoryInv.read {request : ShadowRequest} {colleague : ColleagueId} (h : DirectoryInv s)
    (hhandle : request.handle s.db = some colleague) (hown : ownOrg s.db request = true)
    (hname : refreshable s.db request = true) :
    ∃ user db, existing s.db request = .ok (some ⟨colleague, user⟩) ∧
      Patom.Directory.refresh s.db request ⟨colleague, user⟩ = .ok db ∧ Refreshed s.db db ∧
        Links s.db request.key colleague := by
  obtain ⟨org, hlink, horg⟩ := links_of_handle hhandle
  obtain rfl := horg hown
  obtain ⟨c, hc, rfl, -, u, hu, huser, -⟩ := h.stands _ _ hlink
  have hfind := Table.find?_of_mem hc
  have hshadow : existing s.db request = .ok (some ⟨c.id, u.id⟩) := by
    rw [existing, hhandle]
    simp only [shadowOf]
    rw [show s.db.colleagues.find? c.id = some c from hfind]
    simp only [huser]
  simp only [refreshable, hhandle, Option.all_eq_true, Bool.and_eq_true] at hname
  obtain ⟨db, hrefresh, hrefreshed⟩ : ∃ db,
      Patom.Directory.refresh s.db request ⟨c.id, u.id⟩ = .ok db ∧ Refreshed s.db db :=
    refresh_ok (fun n hn => (hname n hn).1) fun n hn => (hname n hn).2 c.id rfl c hfind u.id huser
  exact ⟨u.id, db, hshadow, hrefresh, hrefreshed, hlink⟩

theorem directoryInv_step {a : ShadowAct} (h : DirectoryInv s) (hclear : Clear s a)
    (hstep : shadowStep s a = some t) : DirectoryInv t := by
  cases a with
  | begin c request =>
    simp only [shadowStep] at hstep
    split at hstep
    case isTrue => cases hstep
    case isFalse =>
      cases hstep
      exact h.calls
  | read c =>
    simp only [shadowStep] at hstep
    split at hstep
    case h_2 => cases hstep
    case h_1 id request hcall =>
      obtain ⟨hown, hname⟩ := hclear _ hcall rfl
      cases hhandle : request.handle s.db with
      | none =>
        have hnone : existing s.db request = .ok none := by
          rw [existing, hhandle]
        rw [hnone] at hstep
        cases hstep
        exact h.calls
      | some colleague =>
        obtain ⟨user, db, hexisting, hrefresh, hrefreshed, hlink⟩ := h.read hhandle hown hname
        rw [hexisting] at hstep
        simp only [hrefresh] at hstep
        cases hstep
        have hlink' := (hrefreshed.links _ _).mpr hlink
        have hanswer : DirectoryInv (Shadowing.answer { s with db } ⟨c, request, false⟩
            (.ok ⟨colleague, user⟩)) := (h.refresh hrefreshed).answer hlink'
        exact hanswer
  | mint c user colleague =>
    simp only [shadowStep] at hstep
    split at hstep
    case isTrue => cases hstep
    case isFalse hunused =>
      split at hstep
      case h_2 => cases hstep
      case h_1 id request hcall =>
        obtain ⟨hfree, hname⟩ := hclear _ hcall rfl
        simp only [not_or, Option.not_isSome_iff_eq_none] at hunused
        have hnone : request.handle s.db = none := by
          refine Option.eq_none_iff_forall_ne_some.mpr fun k hhandle => hfree ?_
          obtain ⟨org, hlink, -⟩ := links_of_handle hhandle
          obtain ⟨c, -, -, -, u, hu, -, hemail⟩ := h.stands _ _ hlink
          exact ⟨u, hu, hemail⟩
        obtain ⟨db, hmint, hminted⟩ := mintShadow_ok hfree hname hunused.1 hunused.2 hnone
        rw [hmint] at hstep
        cases hstep
        have hlink := (hminted.links request.key colleague).mpr (.inr ⟨rfl, rfl⟩)
        have hanswer : DirectoryInv (Shadowing.answer { s with db } ⟨c, request, true⟩
            (.ok ⟨colleague, user⟩)) := (h.mint hminted).answer hlink
        exact hanswer
  | drop c =>
    cases hstep
    exact h.calls

theorem DirectoryInv.shadows (h : DirectoryInv s) : Shadows s where
  succeeds a ha := by
    obtain ⟨shadow, hresult, -⟩ := h.answers a ha
    exact ⟨shadow, hresult⟩
  one a ha a' ha' shadow shadow' hresult hresult' := by
    obtain ⟨_, hok, hlink⟩ := h.answers a ha
    obtain ⟨_, hok', hlink'⟩ := h.answers a' ha'
    obtain rfl := Except.ok.inj (hresult.symm.trans hok)
    obtain rfl := Except.ok.inj (hresult'.symm.trans hok')
    constructor
    · intro e
      rw [e] at hlink
      exact links_unique hlink hlink'
    · intro e
      rw [e] at hlink
      exact h.apart _ _ _ hlink hlink'
  home a ha shadow hresult := by
    obtain ⟨_, hok, hlink⟩ := h.answers a ha
    obtain rfl := Except.ok.inj (hresult.symm.trans hok)
    obtain ⟨c, hc, hid, horg, -⟩ := h.stands _ _ hlink
    exact ⟨c, hc, hid, horg⟩

/-- Every call succeeds with the one colleague of its person throughout every schedule whose calls
find handles of their own organization, or are the first of their address in any. -/
theorem shadows_of_clear (db : DirectoryDb fold) (as : List ShadowAct)
    (h : Steps shadowStep Clear (.start db) as) : Always shadowStep Shadows (.start db) as :=
  (h.always (P := DirectoryInv) (fun _ => True) (fun _ _ _ _ _ _ _ => trivial)
    (fun _ _ _ _ hinv hstep hclear => directoryInv_step hinv hclear hstep) trivial
    (DirectoryInv.start db)).mono fun _ hinv => hinv.shadows

end Runs

namespace Sample

def lower (email : Email) : String := String.ofList (email.toList.map Char.toLower)

def empty : DirectoryDb lower where
  users := .empty
  members := .empty
  colleagues := .empty
  discordHandles := .empty
  larkHandles := .empty
  emailIdx u hu := absurd hu (Table.not_mem_empty u)
  memberUser m hm := absurd hm (Table.not_mem_empty m)
  colleagueUser c hc := absurd hc (Table.not_mem_empty c)
  discordColleague h hh := absurd hh (Table.not_mem_empty h)
  larkColleague h hh := absurd hh (Table.not_mem_empty h)

def nelly : Discord.DiscordUserId :=
  ⟨"80351110224678913", by decide, by decide, by decide, by decide⟩

def tenant : Lark.TenantKey := ⟨"acme", by decide, by decide, by decide⟩

def employee : Lark.LarkUserId := ⟨"e1", by decide, by decide, by decide⟩

def tag : Lark.LarkOpenId := ⟨"ou_1", by decide, by decide, by decide⟩

def sight (org : OrgId) : ShadowRequest := .discord org nelly (some "Nelly")

def encounter (org : OrgId) : ShadowRequest := .lark org tenant employee tag none

def returning : List ShadowAct :=
  [.begin 0 (sight 1), .read 0, .mint 0 100 200, .begin 1 (sight 1), .read 1]

def elsewhere : List ShadowAct :=
  [.begin 0 (sight 1), .read 0, .mint 0 100 200, .begin 1 (sight 2), .read 1, .mint 1 101 201]

def shared : List ShadowAct :=
  [.begin 0 (encounter 1), .read 0, .mint 0 100 200, .begin 1 (encounter 2), .read 1]

def together : List ShadowAct :=
  [.begin 0 (encounter 1), .begin 1 (encounter 1), .read 0, .read 1, .mint 0 100 200,
    .mint 1 101 201]

def last (s : Shadowing lower) : Option (Except DirectoryError Bool) :=
  s.answers.getLast?.map fun a => a.result.map fun shadow =>
    s.db.colleagues.rows.any fun c => c.id = shadow.colleagueId && c.orgId = a.request.key.1

end Sample

theorem shadows_returning : (run shadowStep (.start Sample.empty) Sample.returning).isSome ∧
    Always shadowStep Shadows (.start Sample.empty) Sample.returning :=
  ⟨by decide +kernel, shadows_of_clear Sample.empty Sample.returning (by decide +kernel)⟩

theorem last_of_shadows {s : Shadowing Sample.lower} (h : Shadows s) :
    ∀ answer ∈ Sample.last s, answer = .ok true := by
  intro answer hanswer
  obtain ⟨a, ha, rfl⟩ := Option.map_eq_some_iff.mp hanswer
  have hmem := List.mem_of_getLast? ha
  obtain ⟨shadow, hshadow⟩ := h.succeeds a hmem
  obtain ⟨c, hc, hid, horg⟩ := h.home a hmem shadow hshadow
  rw [hshadow]
  refine congrArg Except.ok (List.any_eq_true.mpr ⟨c, hc, ?_⟩)
  simp [hid, horg]

/-- An account is refused for a person who has one elsewhere, or is being given one; and a colleague
of one organization is returned to another. -/
theorem shadows_collide :
    (∃ s, run shadowStep (.start Sample.empty) Sample.elsewhere = some s ∧
      Sample.last s = some (.error (.db "users_email_key")) ∧ ¬Shadows s) ∧
    (∃ s, run shadowStep (.start Sample.empty) Sample.shared = some s ∧
      Sample.last s = some (.ok false) ∧ ¬Shadows s) ∧
    ∃ s, run shadowStep (.start Sample.empty) Sample.together = some s ∧
      Sample.last s = some (.error (.db "users_email_key")) ∧ ¬Shadows s := by
  have hrun {acts : List ShadowAct} {answer : Except DirectoryError Bool} (hne : answer ≠ .ok true)
      (h : (run shadowStep (.start Sample.empty) acts).any fun s => Sample.last s = some answer) :
      ∃ s, run shadowStep (.start Sample.empty) acts = some s ∧ Sample.last s = some answer ∧
        ¬Shadows s := by
    obtain ⟨s, hs, hlast⟩ := (Option.any_eq_true _ _).mp h
    have hlast := of_decide_eq_true hlast
    exact ⟨s, hs, hlast, fun hshadows => hne (last_of_shadows hshadows answer hlast)⟩
  exact ⟨hrun (by decide) (by decide +kernel), hrun (by decide) (by decide +kernel),
    hrun (by decide) (by decide +kernel)⟩

end Patom.Directory
