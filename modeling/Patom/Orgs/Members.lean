import Patom.Foundation.Pages
import Patom.Foundation.Slice
import Patom.Orgs.Store

open Patom.Auth
open Patom.Foundation
open Patom.Foundation.Pages

namespace Patom.Orgs

def MAX_MEMBERS_PER_PAGE : Nat := 50

inductive MemberStatus
  | active
  | invited
  | expired
  deriving DecidableEq

structure User where
  id : UserId
  email : Email
  displayName : Option String
  avatarUrl : Option String
  deriving DecidableEq

instance userKeyed : Keyed User UserId := ⟨User.id⟩

structure Membership extends OrgMember where
  createdAt : Time
  deriving DecidableEq

instance membershipKeyed : Keyed Membership (OrgId × UserId) := ⟨fun m => (m.orgId, m.userId)⟩

structure Roster where
  users : Table User
  members : Table Membership
  invites : Table Invite
  known : ∀ m ∈ members, ∃ u, users.find? m.userId = some u

structure InviteRow where
  inviteId : InviteId
  email : Email
  role : Role
  status : MemberStatus
  invitedAt : Time
  expiresAt : Time
  deriving DecidableEq

inductive MemberRow
  | member (userId : UserId) (email : Email) (displayName avatarUrl : Option String) (role : Role)
      (joinedAt : Time)
  | invite (row : InviteRow)
  deriving DecidableEq

namespace MemberRow

def email : MemberRow → Email
  | .member _ email _ _ _ _ => email
  | .invite row => row.email

def role : MemberRow → Role
  | .member _ _ _ _ role _ => role
  | .invite row => row.role

def joinedAt : MemberRow → Time
  | .member _ _ _ _ _ joinedAt => joinedAt
  | .invite row => row.invitedAt

def status : MemberRow → MemberStatus
  | .member .. => .active
  | .invite row => row.status

end MemberRow

structure MemberFilter where
  query : Option String
  status : Option MemberStatus
  role : Option Role
  page : Nat
  perPage : Nat

structure MemberPage where
  rows : List MemberRow
  total : Nat
  activeCount : Nat
  invitedCount : Nat
  expiredCount : Nat
  deriving DecidableEq

def escapeChar (c : Char) (text : List Char) : List Char :=
  text.flatMap fun c' => if c' = c then ['\\', c'] else [c']

def queryPattern (query : String) : String :=
  String.ofList ('%' :: escapeChar '_' (escapeChar '%' (escapeChar '\\' query.toList)) ++ ['%'])

namespace MemberFilter

def limit (f : MemberFilter) : Nat := min (max f.perPage 1) MAX_MEMBERS_PER_PAGE

def offset (f : MemberFilter) : Nat := (max f.page 1 - 1) * f.limit

/-- The `WHERE` of the list; `ilike` is the comparison of the database. -/
def passes (ilike : String → Email → Bool) (f : MemberFilter) (row : MemberRow) : Bool :=
  f.query.all (fun query => ilike (queryPattern query) row.email) &&
    f.role.all (fun role => row.role = role) && f.status.all fun status => row.status = status

end MemberFilter

def Invite.statusAt (now : Time) (i : Invite) : MemberStatus :=
  if i.expiresAt < now then .expired else .invited

namespace Roster

variable (r : Roster) (org : OrgId) (now : Time)

def pending : List Invite := r.invites.rows.filter fun i => i.orgId = org && i.consumedAt.isNone

def membersOf : List Membership := r.members.rows.filter fun m => m.orgId = org

def memberRow (m : Membership) : Option MemberRow :=
  (r.users.find? m.userId).map fun u =>
    .member m.userId u.email u.displayName u.avatarUrl m.role m.createdAt

def inviteRow (i : Invite) : MemberRow :=
  .invite ⟨i.id, i.email, i.role, i.statusAt now, i.createdAt, i.expiresAt⟩

def unified : List MemberRow :=
  (r.membersOf org).filterMap r.memberRow ++ (r.pending org).map (inviteRow now)

def matching (ilike : String → Email → Bool) (filter : MemberFilter) : List MemberRow :=
  (r.unified org now).filter (filter.passes ilike)

def countStatus (status : MemberStatus) : Nat :=
  (if status = .active then (r.membersOf org).length else 0) +
    (r.pending org).countP fun i => i.statusAt now = status

/-- A page out of the matching rows as the database has `ordered` them; the total is read off the
page's first row. -/
def listMembers (filter : MemberFilter) (ordered : List MemberRow) : MemberPage :=
  let rows := (ordered.drop filter.offset).take filter.limit
  ⟨rows, rows.head?.elim 0 fun _ => ordered.length, r.countStatus org now .active,
    r.countStatus org now .invited, r.countStatus org now .expired⟩

end Roster

/-- Pages `1` to `K`, each read under an order that the database may choose anew, hold every
matching row once as soon as they reach the end, and tell the same numbers. -/
structure PagesTile (ilike : String → Email → Bool) (r : Roster) (org : OrgId) (now : Time)
    (filter : MemberFilter) (K : Nat) (pages : Nat → MemberPage) : Prop where
  rows : (r.matching org now ilike filter).length ≤ K * filter.limit →
    ((List.range K).flatMap fun n => (pages n).rows).Perm (r.matching org now ilike filter)
  total : ∀ n < K, (pages n).total = (r.matching org now ilike filter).length
  counts : ∀ n < K, (pages n).activeCount + (pages n).invitedCount + (pages n).expiredCount
    = (r.membersOf org).length + (r.pending org).length

section Unified

variable {r : Roster} {org : OrgId} {now : Time}

theorem membersOf_distinct (r : Roster) (org : OrgId) :
    (r.membersOf org).Pairwise fun m m' => m.userId ≠ m'.userId := by
  have hkeys := List.pairwise_map.mp (r.members.nodup.sublist
    (List.filter_sublist (p := fun m : Membership => decide (m.orgId = org)) |>.map key))
  refine hkeys.imp_of_mem fun {m m'} hm hm' hne he => hne ?_
  have horg : m.orgId = org := by simpa using (List.mem_filter.mp hm).2
  have horg' : m'.orgId = org := by simpa using (List.mem_filter.mp hm').2
  exact Prod.ext (horg.trans horg'.symm) he

theorem memberRow_eq {m : Membership} {row : MemberRow} (h : r.memberRow m = some row) :
    ∃ email displayName avatarUrl role joinedAt,
      row = .member m.userId email displayName avatarUrl role joinedAt := by
  obtain ⟨u, -, rfl⟩ := Option.map_eq_some_iff.mp h
  exact ⟨_, _, _, _, _, rfl⟩

theorem unified_nodup (r : Roster) (org : OrgId) (now : Time) : (r.unified org now).Nodup := by
  refine List.nodup_append'.mpr ⟨?_, ?_, fun row hrow hrow' => ?_⟩
  · refine (membersOf_distinct r org).filterMap _ fun m m' hne row hrow row' hrow' he => hne ?_
    obtain ⟨_, _, _, _, _, rfl⟩ := memberRow_eq hrow
    obtain ⟨_, _, _, _, _, rfl⟩ := memberRow_eq hrow'
    exact (MemberRow.member.inj he).1
  · have hids : ((r.pending org).map Invite.id).Nodup :=
      r.invites.nodup.sublist (List.filter_sublist.map _)
    refine List.Nodup.of_map (fun row : MemberRow => match row with
      | .member .. => none
      | .invite i => some i.inviteId) ?_
    have hsome := hids.map (Option.some_injective _)
    rw [List.map_map] at hsome ⊢
    exact hsome
  · obtain ⟨m, -, hm⟩ := List.mem_filterMap.mp hrow
    obtain ⟨i, -, rfl⟩ := List.mem_map.mp hrow'
    obtain ⟨_, _, _, _, _, he⟩ := memberRow_eq hm
    cases he

theorem countStatus_sum (r : Roster) (org : OrgId) (now : Time) :
    r.countStatus org now .active + r.countStatus org now .invited + r.countStatus org now .expired
      = (r.membersOf org).length + (r.pending org).length := by
  have hactive : (r.pending org).countP (fun i => i.statusAt now = .active) = 0 := by
    refine List.countP_eq_zero.mpr fun i _ => ?_
    unfold Invite.statusAt
    split <;> decide
  have hsplit : (r.pending org).countP (fun i => i.statusAt now = .invited)
      + (r.pending org).countP (fun i => i.statusAt now = .expired) = (r.pending org).length := by
    rw [List.length_eq_countP_add_countP (fun i => i.statusAt now = .invited)]
    congr 1
    refine List.countP_congr fun i _ => ?_
    unfold Invite.statusAt
    split <;> decide
  simp only [Roster.countStatus, hactive, if_true, reduceCtorEq, if_false]
  omega

end Unified

section Tiles

variable {ilike : String → Email → Bool} {r : Roster} {org : OrgId} {now : Time}
  {filter : MemberFilter} {order : Nat → List MemberRow}

theorem limit_pos (f : MemberFilter) : 0 < f.limit := by
  unfold MemberFilter.limit MAX_MEMBERS_PER_PAGE
  omega

theorem listMembers_rows (filter : MemberFilter) (n : Nat) (ordered : List MemberRow) :
    (r.listMembers org now { filter with page := n + 1 } ordered).rows
      = page filter.limit n ordered := by
  have hoffset : MemberFilter.offset { filter with page := n + 1 } = n * filter.limit := by
    have hpage : max (n + 1) 1 - 1 = n := by omega
    rw [MemberFilter.offset, hpage]
    rfl
  rw [Roster.listMembers, page, hoffset]
  rfl

theorem listMembers_total (filter : MemberFilter) (n : Nat) (ordered : List MemberRow) :
    (r.listMembers org now { filter with page := n + 1 } ordered).total
      = if n * filter.limit < ordered.length then ordered.length else 0 := by
  have hrows : (r.listMembers org now { filter with page := n + 1 } ordered).rows
      = page filter.limit n ordered := listMembers_rows filter n ordered
  have htotal : (r.listMembers org now { filter with page := n + 1 } ordered).total
      = (page filter.limit n ordered).head?.elim 0 fun _ => ordered.length := by
    rw [← hrows]
    rfl
  have hpos := limit_pos filter
  rw [htotal]
  cases hpage : page filter.limit n ordered with
  | nil =>
    have := page_eq_nil.mp hpage
    rw [if_neg (by omega)]
    rfl
  | cons row rows =>
    have hne : ¬ page filter.limit n ordered = [] := by simp [hpage]
    rw [page_eq_nil] at hne
    rw [if_pos (by omega)]
    rfl

theorem members_tile_iff (ilike : String → Email → Bool) (r : Roster) (org : OrgId) (now : Time)
    (filter : MemberFilter) (K : Nat) :
    (∀ order : Nat → List MemberRow,
      (∀ n, Descending MemberRow.joinedAt (r.matching org now ilike filter) (order n)) →
      PagesTile ilike r org now filter K fun n =>
        r.listMembers org now { filter with page := n + 1 } (order n)) ↔
    ((r.matching org now ilike filter).length ≤ K * filter.limit →
      ∀ n, ¬ Straddled MemberRow.joinedAt (r.matching org now ilike filter) filter.limit n) ∧
    ∀ n < K, n * filter.limit < (r.matching org now ilike filter).length ∨
      r.matching org now ilike filter = [] := by
  have hnodup : (r.matching org now ilike filter).Nodup := (unified_nodup r org now).filter _
  obtain ⟨s, hs⟩ := exists_descending MemberRow.joinedAt (r.matching org now ilike filter)
  constructor
  · intro h
    constructor
    · intro hK
      refine (pages_perm_iff hnodup hs hK).mp fun order horder => ?_
      have hrows := (h order horder).rows hK
      simpa only [listMembers_rows] using hrows
    · intro n hn
      have htotal := (h (fun _ => s) fun _ => hs).total n hn
      rw [listMembers_total, hs.perm.length_eq] at htotal
      split at htotal
      · next hlt => exact .inl hlt
      · exact .inr (List.length_eq_zero_iff.mp htotal.symm)
  · rintro ⟨hties, hbeyond⟩ order horder
    refine ⟨fun hK => ?_, fun n hn => ?_, fun n _ => countStatus_sum r org now⟩
    · simp only [listMembers_rows]
      exact pages_perm horder hK (hties hK)
    · rw [listMembers_total, (horder n).perm.length_eq]
      split
      · rfl
      · next hge =>
        rw [(hbeyond n hn).resolve_left hge]
        rfl

end Tiles

section Batch

def batchInvite (id : InviteId) (email : Email) (token : TokenHash) : Invite where
  id := id
  orgId := 1
  email := email
  role := .member
  tokenHash := token
  createdAt := 10
  expiresAt := 20
  consumedAt := none

def batchRoster : Roster where
  users := .empty
  members := .empty
  invites := ⟨[batchInvite 1 "ada@corp.test" 1, batchInvite 2 "bob@corp.test" 2], by decide⟩
  known m hm := absurd hm (Table.not_mem_empty m)

def onePerPage : MemberFilter := ⟨none, none, none, 1, 1⟩

def batchRow (id : InviteId) (email : Email) : MemberRow := .invite ⟨id, email, .member, .invited, 10, 20⟩

theorem batch_matching : batchRoster.matching 1 15 (fun _ _ => true) onePerPage
    = [batchRow 1 "ada@corp.test", batchRow 2 "bob@corp.test"] := by decide

def batchOrder (n : Nat) : List MemberRow :=
  if n = 1 then [batchRow 2 "bob@corp.test", batchRow 1 "ada@corp.test"]
  else [batchRow 1 "ada@corp.test", batchRow 2 "bob@corp.test"]

theorem batchOrder_descending (n : Nat) :
    Descending MemberRow.joinedAt (batchRoster.matching 1 15 (fun _ _ => true) onePerPage)
      (batchOrder n) := by
  rw [batch_matching]
  unfold batchOrder
  split
  · exact ⟨.swap _ _ _, by decide⟩
  · exact ⟨.refl _, by decide⟩

/-- The second page repeats the row of the first, and the page behind them tells of no rows. -/
theorem members_do_not_tile :
    ¬ ∀ order : Nat → List MemberRow, (∀ n, Descending MemberRow.joinedAt
      (batchRoster.matching 1 15 (fun _ _ => true) onePerPage) (order n)) →
      ∀ K, PagesTile (fun _ _ => true) batchRoster 1 15 onePerPage K fun n =>
        batchRoster.listMembers 1 15 { onePerPage with page := n + 1 } (order n) := by
  intro h
  have hrows := (h batchOrder batchOrder_descending 2).rows (by decide)
  have hmem := hrows.mem_iff (a := batchRow 2 "bob@corp.test")
  exact absurd hmem (by decide)

end Batch

end Patom.Orgs
