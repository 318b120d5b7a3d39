import Patom.Discord.Connection
import Patom.Foundation.Transition
import Patom.Lark.Mention
import Patom.Orgs.Store
import Patom.Threads.Visibility

open Patom.Auth (Email Role)
open Patom.Discord (DiscordUserId)
open Patom.Foundation
open Patom.Lark (LarkOpenId LarkUserId TenantKey)
open Patom.Orgs (OrgMember)
open Patom.Threads (ColleagueRow)

namespace Patom.Directory

def DISCORD_DISPLAY_NAME_MAX : Nat := 256

structure UserRow where
  id : UserId
  email : Email
  displayName : Option String
  deriving DecidableEq

structure DiscordHandle where
  orgId : OrgId
  discordUserId : DiscordUserId
  displayName : Option String
  colleagueId : ColleagueId
  deriving DecidableEq

structure LarkHandle where
  orgId : OrgId
  tenantKey : TenantKey
  larkUserId : LarkUserId
  openId : LarkOpenId
  colleagueId : ColleagueId
  deriving DecidableEq

instance userKeyed : Keyed UserRow UserId := ⟨UserRow.id⟩

instance discordHandleKeyed : Keyed DiscordHandle (OrgId × DiscordUserId) :=
  ⟨fun h => (h.orgId, h.discordUserId)⟩

instance larkHandleKeyed : Keyed LarkHandle (TenantKey × LarkUserId) :=
  ⟨fun h => (h.tenantKey, h.larkUserId)⟩

inductive DirectoryError
  | db (constraint : String)
  | rowNotFound
  | unexpectedNull (column : String)
  deriving DecidableEq

structure DirectoryDb (fold : Email → String) where
  users : Table UserRow
  members : Table OrgMember
  colleagues : Table ColleagueRow
  discordHandles : Table DiscordHandle
  larkHandles : Table LarkHandle
  emailIdx : ∀ u ∈ users, ∀ u' ∈ users, fold u.email = fold u'.email → u = u'
  memberUser : ∀ m ∈ members, ∃ u ∈ users, u.id = m.userId
  colleagueUser : ∀ c ∈ colleagues, ∀ id ∈ c.userId, ∃ u ∈ users, u.id = id
  discordColleague : ∀ h ∈ discordHandles, ∃ c ∈ colleagues, c.id = h.colleagueId
  larkColleague : ∀ h ∈ larkHandles, ∃ c ∈ colleagues, c.id = h.colleagueId

def emailCheck (email : Email) : Bool := 3 ≤ email.utf8ByteSize && email.utf8ByteSize ≤ 320

def userNameCheck (name : String) : Bool := name.utf8ByteSize ≤ 200

def handleNameCheck (name : String) : Bool := 1 ≤ name.utf8ByteSize && name.utf8ByteSize ≤ 256

namespace DirectoryDb

variable {fold : Email → String} (db : DirectoryDb fold)

def EmailTaken (email : Email) : Prop := ∃ u ∈ db.users, fold u.email = fold email

instance emailTakenDecidable (email : Email) : Decidable (db.EmailTaken email) :=
  inferInstanceAs (Decidable (∃ u ∈ db.users, fold u.email = fold email))

def putUser (row : UserRow)
    (h : ∀ u ∈ db.users, fold u.email = fold row.email → u.id = row.id) : DirectoryDb fold where
  users := db.users.put row
  members := db.members
  colleagues := db.colleagues
  discordHandles := db.discordHandles
  larkHandles := db.larkHandles
  emailIdx u hu u' hu' e := by
    obtain hrow | ⟨hu, hne⟩ := Table.mem_put.mp hu <;>
      obtain hrow' | ⟨hu', hne'⟩ := Table.mem_put.mp hu'
    · rw [hrow, hrow']
    · exact absurd (h u' hu' (by rw [← e, hrow])) hne'
    · exact absurd (h u hu (by rw [e, hrow'])) hne
    · exact db.emailIdx u hu u' hu' e
  memberUser m hm := by
    obtain ⟨u, hu, hid⟩ := db.memberUser m hm
    by_cases e : u.id = row.id
    · exact ⟨row, Table.mem_put.mpr (.inl rfl), e.symm.trans hid⟩
    · exact ⟨u, Table.mem_put.mpr (.inr ⟨hu, e⟩), hid⟩
  colleagueUser c hc id hid := by
    obtain ⟨u, hu, hid⟩ := db.colleagueUser c hc id hid
    by_cases e : u.id = row.id
    · exact ⟨row, Table.mem_put.mpr (.inl rfl), e.symm.trans hid⟩
    · exact ⟨u, Table.mem_put.mpr (.inr ⟨hu, e⟩), hid⟩
  discordColleague := db.discordColleague
  larkColleague := db.larkColleague

def insertUser (row : UserRow) : Except DirectoryError (DirectoryDb fold) :=
  if ¬emailCheck row.email then .error (.db "users_email_check")
  else if ¬row.displayName.all userNameCheck then .error (.db "users_display_name_check")
  else if (db.users.find? row.id).isSome then .error (.db "users_pkey")
  else if h : db.EmailTaken row.email then .error (.db "users_email_key")
  else .ok (db.putUser row fun u hu e => absurd ⟨u, hu, e⟩ h)

/-- `UPDATE users SET display_name … WHERE display_name IS NULL`. -/
def nameUser (id : UserId) (name : String) : Except DirectoryError (DirectoryDb fold) :=
  match h : db.users.find? id with
  | none => .ok db
  | some u =>
    if u.displayName.isSome then .ok db
    else if userNameCheck name then
      .ok (db.putUser { u with displayName := some name } fun u' hu' e => by
        rw [db.emailIdx u' hu' u (Table.mem_of_find? h) e])
    else .error (.db "users_display_name_check")

def human (id : ColleagueId) (org : OrgId) (user : UserId) : ColleagueRow :=
  ⟨id, org, .human, some user, none, .inl ⟨rfl, rfl, rfl⟩⟩

def hasColleague (org : OrgId) (user : UserId) : Bool :=
  db.colleagues.rows.any fun c => c.orgId = org && c.userId = some user

def insertMember (m : OrgMember) (id : ColleagueId) : Except DirectoryError (DirectoryDb fold) :=
  if hu : ∃ u ∈ db.users, u.id = m.userId then
    match hm : db.members.insert? m with
    | none => .error (.db "org_members_pkey")
    | some members =>
      have memberUser : ∀ m' ∈ members, ∃ u ∈ db.users, u.id = m'.userId := by
        intro m' hm'
        obtain hm' | rfl := (Table.mem_insert? hm).mp hm'
        · exact db.memberUser m' hm'
        · exact hu
      if db.hasColleague m.orgId m.userId then .ok { db with members, memberUser }
      else
        match hc : db.colleagues.insert? (human id m.orgId m.userId) with
        | none => .error (.db "colleagues_pkey")
        | some colleagues =>
          .ok { db with
            members
            memberUser
            colleagues
            colleagueUser := fun c hc' user huser => by
              obtain hc' | rfl := (Table.mem_insert? hc).mp hc'
              · exact db.colleagueUser c hc' user huser
              · cases huser
                exact hu
            discordColleague := fun h hh => by
              obtain ⟨c, hc', hid⟩ := db.discordColleague h hh
              exact ⟨c, (Table.mem_insert? hc).mpr (.inl hc'), hid⟩
            larkColleague := fun h hh => by
              obtain ⟨c, hc', hid⟩ := db.larkColleague h hh
              exact ⟨c, (Table.mem_insert? hc).mpr (.inl hc'), hid⟩ }
  else .error (.db "org_members_user_id_fkey")

def colleagueOf (org : OrgId) (user : UserId) : Except DirectoryError ColleagueId :=
  match db.colleagues.rows.find? fun c => c.orgId = org && c.userId = some user with
  | some c => .ok c.id
  | none => .error .rowNotFound

def putDiscordHandle (h : DiscordHandle) (hc : ∃ c ∈ db.colleagues, c.id = h.colleagueId) :
    DirectoryDb fold :=
  { db with
    discordHandles := db.discordHandles.put h
    discordColleague := fun h' hh' => by
      obtain rfl | ⟨hh', -⟩ := Table.mem_put.mp hh'
      · exact hc
      · exact db.discordColleague h' hh' }

def putLarkHandle (h : LarkHandle) (hc : ∃ c ∈ db.colleagues, c.id = h.colleagueId) :
    DirectoryDb fold :=
  { db with
    larkHandles := db.larkHandles.put h
    larkColleague := fun h' hh' => by
      obtain rfl | ⟨hh', -⟩ := Table.mem_put.mp hh'
      · exact hc
      · exact db.larkColleague h' hh' }

def upsertDiscordHandle (h : DiscordHandle) : Except DirectoryError (DirectoryDb fold) :=
  if ¬h.displayName.all handleNameCheck then
    .error (.db "discord_user_handles_display_name_check")
  else
    match hold : db.discordHandles.find? (h.orgId, h.discordUserId) with
    | some old =>
      .ok (db.putDiscordHandle { old with displayName := h.displayName }
        (db.discordColleague old (Table.mem_of_find? hold)))
    | none =>
      if hc : ∃ c ∈ db.colleagues, c.id = h.colleagueId then .ok (db.putDiscordHandle h hc)
      else .error (.db "discord_user_handles_colleague_id_fkey")

def upsertLarkHandle (h : LarkHandle) : Except DirectoryError (DirectoryDb fold) :=
  match hold : db.larkHandles.find? (h.tenantKey, h.larkUserId) with
  | some old =>
    .ok (db.putLarkHandle { old with openId := h.openId }
      (db.larkColleague old (Table.mem_of_find? hold)))
  | none =>
    if hc : ∃ c ∈ db.colleagues, c.id = h.colleagueId then .ok (db.putLarkHandle h hc)
    else .error (.db "lark_user_handles_colleague_id_fkey")

def renameDiscordHandle (org : OrgId) (user : DiscordUserId) (name : String) :
    Except DirectoryError (DirectoryDb fold) :=
  match hold : db.discordHandles.find? (org, user) with
  | none => .ok db
  | some old =>
    if old.displayName = some name then .ok db
    else if handleNameCheck name then
      .ok (db.putDiscordHandle { old with displayName := some name }
        (db.discordColleague old (Table.mem_of_find? hold)))
    else .error (.db "discord_user_handles_display_name_check")

def refreshOpenId (tenant : TenantKey) (user : LarkUserId) (openId : LarkOpenId) :
    DirectoryDb fold :=
  match hold : db.larkHandles.find? (tenant, user) with
  | none => db
  | some old =>
    db.putLarkHandle { old with openId } (db.larkColleague old (Table.mem_of_find? hold))

end DirectoryDb

/-! `resolve_or_mint`, each call one privileged transaction under `READ COMMITTED`: what it reads
first is what is committed then, and its writes meet the unique keys when they commit. -/

structure ShadowColleague where
  colleagueId : ColleagueId
  userId : UserId
  deriving DecidableEq

inductive ExternalUser
  | discord (user : DiscordUserId)
  | lark (tenant : TenantKey) (user : LarkUserId)
  deriving DecidableEq

inductive ShadowRequest
  | discord (org : OrgId) (user : DiscordUserId) (name : Option String)
  | lark (org : OrgId) (tenant : TenantKey) (user : LarkUserId) (openId : LarkOpenId)
      (name : Option String)
  deriving DecidableEq

def ShadowRequest.key : ShadowRequest → OrgId × ExternalUser
  | .discord org user _ => (org, .discord user)
  | .lark org tenant user _ _ => (org, .lark tenant user)

/-- Unroutable, and without an identity to log in with. -/
def ExternalUser.syntheticEmail : ExternalUser → Email
  | .discord user => "discord-" ++ user.asStr ++ "@shadow.invalid"
  | .lark _ user => "lark-" ++ user.asStr ++ "@shadow.invalid"

def ShadowRequest.displayName : ShadowRequest → Option String
  | .discord _ _ name => name.map fun n => String.ofList (n.toList.take DISCORD_DISPLAY_NAME_MAX)
  | .lark _ _ _ _ name => name

section Transaction

variable {fold : Email → String}

def shadowOf (db : DirectoryDb fold) (colleague : ColleagueId) :
    Except DirectoryError (Option ShadowColleague) :=
  match db.colleagues.find? colleague with
  | none => .ok none
  | some c =>
    match c.userId with
    | some user => .ok (some ⟨colleague, user⟩)
    | none => .error (.unexpectedNull "user_id")

def ShadowRequest.handle (db : DirectoryDb fold) : ShadowRequest → Option ColleagueId
  | .discord org user _ => (db.discordHandles.find? (org, user)).map (·.colleagueId)
  | .lark _ tenant user _ _ => (db.larkHandles.find? (tenant, user)).map (·.colleagueId)

def existing (db : DirectoryDb fold) (request : ShadowRequest) :
    Except DirectoryError (Option ShadowColleague) :=
  match request.handle db with
  | none => .ok none
  | some colleague => shadowOf db colleague

def refresh (db : DirectoryDb fold) (request : ShadowRequest) (shadow : ShadowColleague) :
    Except DirectoryError (DirectoryDb fold) :=
  match request with
  | .discord org user _ =>
    match request.displayName with
    | none => .ok db
    | some name => (db.renameDiscordHandle org user name).bind (·.nameUser shadow.userId name)
  | .lark _ tenant user openId _ =>
    let db := db.refreshOpenId tenant user openId
    match request.displayName with
    | none => .ok db
    | some name => db.nameUser shadow.userId name

def upsertHandle (db : DirectoryDb fold) (request : ShadowRequest) (colleague : ColleagueId) :
    Except DirectoryError (DirectoryDb fold) :=
  match request with
  | .discord org user _ => db.upsertDiscordHandle ⟨org, user, request.displayName, colleague⟩
  | .lark org tenant user openId _ => db.upsertLarkHandle ⟨org, tenant, user, openId, colleague⟩

def mintShadow (db : DirectoryDb fold) (request : ShadowRequest) (user : UserId)
    (colleague : ColleagueId) : Except DirectoryError (DirectoryDb fold × ShadowColleague) := do
  let (org, external) := request.key
  let db ← db.insertUser ⟨user, external.syntheticEmail, request.displayName⟩
  let db ← db.insertMember ⟨org, user, .member⟩ colleague
  let colleague ← db.colleagueOf org user
  let db ← upsertHandle db request colleague
  return (db, ⟨colleague, user⟩)

end Transaction

abbrev CallId := Nat

/-- A call that has begun; one that is `minting` has found no handle. -/
structure ShadowCall where
  id : CallId
  request : ShadowRequest
  minting : Bool
  deriving DecidableEq

instance shadowCallKeyed : Keyed ShadowCall CallId := ⟨ShadowCall.id⟩

structure Answer where
  request : ShadowRequest
  result : Except DirectoryError ShadowColleague

structure Shadowing (fold : Email → String) where
  db : DirectoryDb fold
  calls : Table ShadowCall
  answers : List Answer

inductive ShadowAct
  | begin (c : CallId) (request : ShadowRequest)
  | read (c : CallId)
  | mint (c : CallId) (user : UserId) (colleague : ColleagueId)
  | drop (c : CallId)

variable {fold : Email → String}

def Shadowing.start (db : DirectoryDb fold) : Shadowing fold where
  db := { db with
    discordHandles := .empty
    larkHandles := .empty
    discordColleague := fun h hh => absurd hh (Table.not_mem_empty h)
    larkColleague := fun h hh => absurd hh (Table.not_mem_empty h) }
  calls := .empty
  answers := []

namespace Shadowing

variable (s : Shadowing fold)

/-- The advisory lock of a Discord user in an organization is held by another call. -/
def locked : ShadowRequest → Bool
  | .discord org user _ => s.calls.rows.any fun call => call.request.key = (org, .discord user)
  | .lark .. => false

def leave (c : CallId) : Shadowing fold :=
  { s with calls := s.calls.delete fun call => call.id = c }

def answer (call : ShadowCall) (result : Except DirectoryError ShadowColleague) : Shadowing fold :=
  { s.leave call.id with answers := s.answers ++ [⟨call.request, result⟩] }

end Shadowing

def shadowStep : Step (Shadowing fold) ShadowAct
  | s, .begin c request =>
    if (s.calls.find? c).isSome ∨ s.locked request then none
    else some { s with calls := s.calls.put ⟨c, request, false⟩ }
  | s, .read c =>
    match s.calls.find? c with
    | some ⟨_, request, false⟩ =>
      match existing s.db request with
      | .error e => some (s.answer ⟨c, request, false⟩ (.error e))
      | .ok none => some { s with calls := s.calls.put ⟨c, request, true⟩ }
      | .ok (some shadow) =>
        match refresh s.db request shadow with
        | .error e => some (s.answer ⟨c, request, false⟩ (.error e))
        | .ok db => some { s.answer ⟨c, request, false⟩ (.ok shadow) with db }
    | _ => none
  | s, .mint c user colleague =>
    if (s.db.users.find? user).isSome ∨ (s.db.colleagues.find? colleague).isSome then none
    else
      match s.calls.find? c with
      | some ⟨_, request, true⟩ =>
        match mintShadow s.db request user colleague with
        | .error e => some (s.answer ⟨c, request, true⟩ (.error e))
        | .ok (db, shadow) => some { s.answer ⟨c, request, true⟩ (.ok shadow) with db }
      | _ => none
  | s, .drop c => some (s.leave c)

end Patom.Directory
