import Patom.Approvals.Desk
import Patom.Threads.Store
import Patom.Tools.AskApproval

open Patom.Approvals
open Patom.Foundation
open Patom.Threads (ColleagueRow NewThreadMessage ThreadMessageRow appendMessage
  appendMessage_frame appendMessage_unkeyed)

namespace Patom.Tools

section
variable (digest : String → String) (want : Wanted)

def IsRow (r : PendingApproval) : Prop :=
  r.orgId = want.orgId ∧ r.idempotencyKey = want.key digest

def Filed (db : ApprovalDb) : Prop := ∃ r ∈ db.pendingApproval, IsRow digest want r

structure IsRequest (m : ThreadMessageRow) : Prop where
  thread : m.threadId = want.thread
  kind : m.kind = .posted
  body : m.body = .user [.text (requestText want.action.asStr)]

def Shown (s : AskSt) : Prop :=
  ∃ id ∈ s.posts, ∃ m ∈ s.threads.threadMessages, m.id = id ∧ IsRequest want m

/-- One row, one request in the feed, and that one there once a call has succeeded. -/
structure Visible (s : AskSt) : Prop where
  row : ∀ r ∈ s.approvals.pendingApproval, ∀ r' ∈ s.approvals.pendingApproval,
    IsRow digest want r → IsRow digest want r' → r = r'
  post : s.posts.length ≤ 1
  shown : ∀ out, .ok out ∈ s.returned → Shown want s

/-- No call comes upon the row while its request is missing. -/
def FindsShown (s : AskSt) : AskAct → Prop
  | .create _ _ => Filed digest want s.approvals → Shown want s
  | _ => True

instance isRowDecidable (r : PendingApproval) : Decidable (IsRow digest want r) :=
  inferInstanceAs (Decidable (_ ∧ _))

theorem shown_iff_any {s : AskSt} : Shown want s ↔
    s.posts.any fun id => s.threads.threadMessages.rows.any fun m =>
      m.id = id && m.threadId = want.thread && m.kind = .posted &&
        m.body = .user [.text (requestText want.action.asStr)] := by
  simp only [Shown, List.any_eq_true, Bool.and_eq_true, decide_eq_true_eq]
  refine exists_congr fun id => and_congr_right fun _ => exists_congr fun m => ?_
  exact and_congr_right fun _ =>
    ⟨fun ⟨hid, h⟩ => ⟨⟨⟨hid, h.thread⟩, h.kind⟩, h.body⟩,
      fun ⟨⟨⟨hid, hthread⟩, hkind⟩, hbody⟩ => ⟨hid, hthread, hkind, hbody⟩⟩

instance shownDecidable (s : AskSt) : Decidable (Shown want s) :=
  decidable_of_iff _ (shown_iff_any want).symm

instance filedDecidable (db : ApprovalDb) : Decidable (Filed digest want db) :=
  inferInstanceAs (Decidable (∃ r ∈ db.pendingApproval, IsRow digest want r))

instance findsShownDecidable (s : AskSt) : (a : AskAct) → Decidable (FindsShown digest want s a)
  | .create _ _ => inferInstanceAs (Decidable (_ → _))
  | .ask .. | .post .. | .card .. | .finish _ | .stop _ | .file .. | .decide .. | .expire _
  | .append .. => .isTrue trivial

def AskPc.isPrepared : AskPc → Bool
  | .prepared => true
  | .created _ | .posted _ | .carded _ => false

def AskPc.hasPosted : AskPc → Bool
  | .posted _ | .carded _ => true
  | .prepared | .created _ => false

structure AskInv (s : AskSt) : Prop where
  row : ∀ r ∈ s.approvals.pendingApproval, ∀ r' ∈ s.approvals.pendingApproval,
    IsRow digest want r → IsRow digest want r' → r = r'
  calls : ∀ c ∈ s.calls, want.Is c.ctx.orgId c.new ∧ c.new.idempotencyKey = want.key digest
  posts : ∀ id ∈ s.posts, ∃ m ∈ s.threads.threadMessages, m.id = id ∧ IsRequest want m
  post : s.posts.length ≤ 1
  unfiled : ¬ Filed digest want s.approvals → s.posts = [] ∧ ∀ c ∈ s.calls, c.pc.isPrepared
  creator : ∀ c ∈ s.calls, ∀ c' ∈ s.calls, c.pc.isPrepared = false → c'.pc.isPrepared = false →
    c = c'
  unposted : ∀ c ∈ s.calls, c.pc.isPrepared = false → c.pc.hasPosted = false → s.posts = []
  posted : ∀ c ∈ s.calls, c.pc.hasPosted → s.posts ≠ []

variable {digest want} {colleagues : Table ColleagueRow} {s t : AskSt} {c : AskCall}

theorem selectByIdem_isSome {db : ApprovalDb} :
    (selectByIdem want.orgId (want.key digest) db).isSome ↔ Filed digest want db := by
  simp only [selectByIdem, List.find?_isSome, Bool.and_eq_true, decide_eq_true_eq]
  exact Iff.rfl

theorem shown_iff (h : AskInv digest want s) : Shown want s ↔ s.posts ≠ [] := by
  constructor
  · rintro ⟨id, hid, -⟩ hnil
    rw [hnil] at hid
    cases hid
  · intro hne
    obtain ⟨id, hid⟩ := List.exists_mem_of_ne_nil _ hne
    exact ⟨id, hid, h.posts id hid⟩

structure SameRows (digest : String → String) (want : Wanted) (db db' : ApprovalDb) : Prop where
  filed : Filed digest want db' ↔ Filed digest want db
  row : (∀ r ∈ db.pendingApproval, ∀ r' ∈ db.pendingApproval,
      IsRow digest want r → IsRow digest want r' → r = r') →
    ∀ r ∈ db'.pendingApproval, ∀ r' ∈ db'.pendingApproval,
      IsRow digest want r → IsRow digest want r' → r = r'

theorem SameRows.refl (db : ApprovalDb) : SameRows digest want db db := ⟨Iff.rfl, id⟩

theorem sameRows_modify {db db' : ApprovalDb} {f : PendingApproval → PendingApproval}
    (hf : ∀ r, key (f r) = key r)
    (hrows : db'.pendingApproval = db.pendingApproval.modify f hf)
    (hsame : ∀ r, IsRow digest want (f r) ↔ IsRow digest want r) : SameRows digest want db db' where
  filed := by
    simp only [Filed, hrows, Table.mem_modify]
    constructor
    · rintro ⟨_, ⟨r, hr, rfl⟩, hrow⟩
      exact ⟨r, hr, (hsame r).mp hrow⟩
    · rintro ⟨r, hr, hrow⟩
      exact ⟨f r, ⟨r, hr, rfl⟩, (hsame r).mpr hrow⟩
  row hold r hr r' hr' h h' := by
    rw [hrows] at hr hr'
    obtain ⟨a, ha, rfl⟩ := Table.mem_modify.mp hr
    obtain ⟨b, hb, rfl⟩ := Table.mem_modify.mp hr'
    rw [hold a ha b hb ((hsame a).mp h) ((hsame b).mp h')]

theorem sameRows_insert {db db' : ApprovalDb} {row : PendingApproval}
    (hins : db.pendingApproval.insert? row = some db'.pendingApproval)
    (hrow : ¬ IsRow digest want row) : SameRows digest want db db' where
  filed := by
    simp only [Filed, Table.mem_insert? hins]
    constructor
    · rintro ⟨r, hr | rfl, h⟩
      · exact ⟨r, hr, h⟩
      · exact absurd h hrow
    · rintro ⟨r, hr, h⟩
      exact ⟨r, .inl hr, h⟩
  row hold r hr r' hr' h h' := by
    obtain hr | rfl := (Table.mem_insert? hins).mp hr
    · obtain hr' | rfl := (Table.mem_insert? hins).mp hr'
      · exact hold r hr r' hr' h h'
      · exact absurd h' hrow
    · exact absurd h hrow

theorem setMessage_isRow (org : OrgId) (id : ApprovalId) (message : PlatformMessageId)
    (r : PendingApproval) :
    IsRow digest want (setMessage org id message r) ↔ IsRow digest want r := by
  unfold setMessage
  split <;> exact Iff.rfl

theorem setDecided_isRow (org : OrgId) (id : ApprovalId) (decision : Decision)
    (clicker : ColleagueId) (now : Time) (r : PendingApproval) :
    IsRow digest want (setDecided org id decision clicker now r) ↔ IsRow digest want r := by
  unfold setDecided
  split <;> exact Iff.rfl

theorem setExpired_isRow (batch : List ApprovalId) (r : PendingApproval) :
    IsRow digest want (setExpired batch r) ↔ IsRow digest want r := by
  unfold setExpired
  split <;> exact Iff.rfl

theorem sameRows_attachMessage {org : OrgId} {id : ApprovalId} {message : PlatformMessageId}
    {db db' : ApprovalDb} (h : attachMessage org id message db = .ok db') :
    SameRows digest want db db' := by
  unfold attachMessage at h
  cases hread : Approvals.read org id db with
  | error e =>
    rw [hread] at h
    cases h
  | ok r =>
    rw [hread] at h
    cases h
    exact sameRows_modify (setMessage_key org id message) rfl (setMessage_isRow org id message)

theorem sameRows_decide {org : OrgId} {id : ApprovalId} {decision : Decision}
    {clicker : ColleagueId} {now : Time} {db db' : ApprovalDb} {outcome : DecideOutcome}
    (h : Approvals.decide org id decision clicker now db = .ok (db', outcome)) :
    SameRows digest want db db' := by
  unfold Approvals.decide at h
  cases hread : Approvals.read org id db with
  | error e =>
    rw [hread] at h
    cases h
  | ok r =>
    rw [hread] at h
    simp only [bind, Except.bind] at h
    repeat' split at h
    all_goals cases h
    all_goals first
      | exact .refl db
      | exact sameRows_modify (setDecided_key org id decision clicker now) rfl
          (setDecided_isRow org id decision clicker now)

theorem sameRows_create {org : OrgId} {now : Time} {new : NewApproval} {db db' : ApprovalDb}
    {outcome : CreateOutcome} (h : create org now new db = .ok (db', outcome))
    (hother : ¬ (org = want.orgId ∧ new.idempotencyKey = want.key digest)) :
    SameRows digest want db db' := by
  cases outcome with
  | created record =>
    obtain ⟨rfl, hins, -⟩ := create_created h
    exact sameRows_insert hins hother
  | existing record =>
    unfold create at h
    split at h
    case h_1 =>
      cases h
      exact .refl db
    case h_2 => split at h <;> cases h

theorem AskInv.elsewhere (h : AskInv digest want s)
    (hrows : SameRows digest want s.approvals t.approvals) (hcalls : ∀ c ∈ t.calls, c ∈ s.calls)
    (hposts : t.posts = s.posts)
    (hfeed : ∀ m ∈ s.threads.threadMessages, m ∈ t.threads.threadMessages) :
    AskInv digest want t where
  row := hrows.row h.row
  calls c hc := h.calls c (hcalls c hc)
  posts id hid := by
    rw [hposts] at hid
    obtain ⟨m, hm, hrequest⟩ := h.posts id hid
    exact ⟨m, hfeed m hm, hrequest⟩
  post := hposts ▸ h.post
  unfiled hnot := by
    obtain ⟨hnil, hprepared⟩ := h.unfiled (hrows.filed.not.mp hnot)
    exact ⟨hposts.trans hnil, fun c hc => hprepared c (hcalls c hc)⟩
  creator c hc c' hc' := h.creator c (hcalls c hc) c' (hcalls c' hc')
  unposted c hc hpast hpost := hposts.trans (h.unposted c (hcalls c hc) hpast hpost)
  posted c hc hpost := hposts ▸ h.posted c (hcalls c hc) hpost

theorem prepareAsk_key {ctx : AgentCore.ToolCallContext} {input : AskApprovalInput}
    {target : Except String (Option PlatformTarget)} {approval : ApprovalId} {now : Time}
    {new : NewApproval} (h : prepareAsk digest colleagues ctx input target approval now = .ok new)
    (hwant : want.Is ctx.orgId new) : new.idempotencyKey = want.key digest := by
  have hkey : new.idempotencyKey = idempotencyKey digest new.threadId new.rootRequestId
      new.gatedTool new.actionSummary.asStr := by
    unfold prepareAsk at h
    simp only [bind, Except.bind] at h
    repeat' split at h
    all_goals cases h
    rfl
  obtain ⟨-, hthread, hroot, htool, haction⟩ := hwant
  rw [hkey, hthread, hroot, htool, haction, Wanted.key]

theorem mem_advance {pc : AskPc} {d : AskCall} (hd : d ∈ (s.advance c pc).calls) :
    d = { c with pc } ∨ d ∈ s.calls ∧ d.id ≠ c.id :=
  Table.mem_put.mp hd

inductive AskCreated (s : AskSt) (c : AskCall) (now : Time) : AskSt → Prop
  | failed (e : ToolError) : selectByIdem c.ctx.orgId c.new.idempotencyKey s.approvals = none →
      AskCreated s c now (s.answer c (.error e))
  | created (approvals : ApprovalDb) :
      selectByIdem c.ctx.orgId c.new.idempotencyKey s.approvals = none →
      s.approvals.pendingApproval.insert? (c.new.row c.ctx.orgId now)
        = some approvals.pendingApproval →
      AskCreated s c now
        { s.advance c (.created (c.new.row c.ctx.orgId now)) with approvals }
  | existing (record : PendingApproval) :
      selectByIdem c.ctx.orgId c.new.idempotencyKey s.approvals = some record →
      AskCreated s c now (s.answer c (.ok (askOutput record)))

theorem askCreate_created {now : Time} (h : askCreate s c now = some t) :
    c.pc = .prepared ∧ AskCreated s c now t := by
  unfold askCreate at h
  split at h
  case h_2 => cases h
  case h_1 hpc =>
    refine ⟨hpc, ?_⟩
    cases hsel : selectByIdem c.ctx.orgId c.new.idempotencyKey s.approvals with
    | some record =>
      have hcreate : create c.ctx.orgId now c.new s.approvals =
          .ok (s.approvals, .existing record) := by
        simp only [create, hsel]
      rw [hcreate] at h
      cases h
      exact .existing record hsel
    | none =>
      cases hcreate : create c.ctx.orgId now c.new s.approvals with
      | error e =>
        rw [hcreate] at h
        cases h
        exact .failed _ hsel
      | ok res =>
        obtain ⟨approvals, outcome⟩ := res
        rw [hcreate] at h
        cases outcome with
        | created record =>
          cases h
          obtain ⟨rfl, hins, -⟩ := create_created hcreate
          exact .created approvals hsel hins
        | existing record =>
          simp only [create, hsel] at hcreate
          split at hcreate <;> cases hcreate

theorem AskInv.answer (h : AskInv digest want s) (c : AskCall)
    (result : Except ToolError AskApprovalOutput) : AskInv digest want (s.answer c result) :=
  h.elsewhere (.refl _) (fun _ hd => (Table.mem_delete.mp hd).1) rfl fun _ hm => hm

theorem AskInv.created (h : AskInv digest want s) (hc : c ∈ s.calls) {approvals : ApprovalDb}
    {now : Time} (hnone : selectByIdem c.ctx.orgId c.new.idempotencyKey s.approvals = none)
    (hins : s.approvals.pendingApproval.insert? (c.new.row c.ctx.orgId now)
      = some approvals.pendingApproval) :
    AskInv digest want { s.advance c (.created (c.new.row c.ctx.orgId now)) with approvals } := by
  obtain ⟨hwant, hkey⟩ := h.calls c hc
  have hunfiled : ¬ Filed digest want s.approvals := by
    rw [← selectByIdem_isSome, ← hwant.1, ← hkey, hnone]
    exact Bool.false_ne_true
  have hrow : IsRow digest want (c.new.row c.ctx.orgId now) := ⟨hwant.1, hkey⟩
  obtain ⟨hposts, hprepared⟩ := h.unfiled hunfiled
  have honly : ∀ d ∈ (s.advance c (.created (c.new.row c.ctx.orgId now))).calls,
      d.pc.isPrepared = false → d = { c with pc := .created (c.new.row c.ctx.orgId now) } := by
    intro d hd hpast
    obtain rfl | ⟨hd, -⟩ := mem_advance hd
    · rfl
    · rw [hprepared d hd] at hpast
      cases hpast
  constructor
  case row =>
    intro r hr r' hr' hisrow hisrow'
    obtain hr | rfl := (Table.mem_insert? hins).mp hr
    · exact absurd ⟨r, hr, hisrow⟩ hunfiled
    · obtain hr' | rfl := (Table.mem_insert? hins).mp hr'
      · exact absurd ⟨r', hr', hisrow'⟩ hunfiled
      · rfl
  case calls =>
    intro d hd
    obtain rfl | ⟨hd, -⟩ := mem_advance hd
    · exact ⟨hwant, hkey⟩
    · exact h.calls d hd
  case posts => exact h.posts
  case post => exact h.post
  case unfiled =>
    exact fun hnot => absurd ⟨_, (Table.mem_insert? hins).mpr (.inr rfl), hrow⟩ hnot
  case creator =>
    intro d hd d' hd' hpast hpast'
    rw [honly d hd hpast, honly d' hd' hpast']
  case unposted => exact fun _ _ _ _ => hposts
  case posted =>
    intro d hd hpost
    have hpast : d.pc.isPrepared = false := by
      cases hpc : d.pc <;> rw [hpc] at hpost <;> first | rfl | cases hpost
    rw [honly d hd hpast] at hpost
    cases hpost

theorem AskInv.moved (h : AskInv digest want s) (hc : c ∈ s.calls) {pc : AskPc}
    (hpast : c.pc.isPrepared = false) (hposted : pc.hasPosted)
    (hshown : t.posts ≠ []) (hcalls : t.calls = (s.advance c pc).calls)
    (hrows : SameRows digest want s.approvals t.approvals)
    (hposts : ∀ id ∈ t.posts, ∃ m ∈ t.threads.threadMessages, m.id = id ∧ IsRequest want m)
    (hpost : t.posts.length ≤ 1) : AskInv digest want t := by
  have honly : ∀ d ∈ t.calls, d.pc.isPrepared = false → d = { c with pc } := by
    intro d hd hd'
    rw [hcalls] at hd
    obtain rfl | ⟨hd, hne⟩ := mem_advance hd
    · rfl
    · exact absurd (congrArg AskCall.id (h.creator d hd c hc hd' hpast)) hne
  constructor
  case row => exact hrows.row h.row
  case calls =>
    intro d hd
    rw [hcalls] at hd
    obtain rfl | ⟨hd, -⟩ := mem_advance hd
    · exact h.calls c hc
    · exact h.calls d hd
  case posts => exact hposts
  case post => exact hpost
  case unfiled =>
    intro hnot
    have hprepared := (h.unfiled (hrows.filed.not.mp hnot)).2 c hc
    rw [hpast] at hprepared
    cases hprepared
  case creator =>
    intro d hd d' hd' hp hp'
    rw [honly d hd hp, honly d' hd' hp']
  case unposted =>
    intro d hd hp hnot
    rw [honly d hd hp] at hnot
    exact absurd hposted (Bool.eq_false_iff.mp hnot)
  case posted => exact fun _ _ _ => hshown

theorem AskCall.request_isRequest (hwant : want.Is c.ctx.orgId c.new) {m : ThreadMessageRow}
    (hthread : m.threadId = c.new.threadId) (hm : m.toNewThreadMessage = c.request) :
    IsRequest want m where
  thread := hthread.trans hwant.2.1
  kind := congrArg (·.kind) hm
  body := by
    have hbody : m.body = c.request.body := congrArg (·.body) hm
    have hrequest : c.request.body = .user [.text (requestText c.new.actionSummary.asStr)] := rfl
    rw [hbody, hrequest, hwant.2.2.2.2]

theorem appendMessage_posted {message id : ThreadMessageId} {now : Time} {org : OrgId}
    {thread : ThreadId} {new : NewThreadMessage} {db db' : Threads.ThreadDb}
    (hkey : new.idempotencyKey = none)
    (h : appendMessage message now org thread new db = (db', .ok id)) :
    ∃ m ∈ db'.threadMessages, m.id = id ∧ m.threadId = thread ∧ m.toNewThreadMessage = new := by
  unfold appendMessage at h
  simp only [hkey, Option.bind_none] at h
  split at h
  case h_1 => cases h
  case h_2 t ht =>
    simp only [Option.isSome_none, Bool.false_eq_true, if_false] at h
    split at h
    case h_1 => cases h
    case h_2 hins =>
      cases h
      exact ⟨_, (Table.mem_insert? hins).mpr (.inr rfl), rfl, rfl, rfl⟩

structure AskStepped (digest : String → String) (want : Wanted) (s : AskSt) (a : AskAct)
    (t : AskSt) : Prop where
  inv : AskInv digest want t
  posts : s.posts ⊆ t.posts
  feed : ∀ m ∈ s.threads.threadMessages, m ∈ t.threads.threadMessages
  answers : ∀ out, .ok out ∈ t.returned → .ok out ∈ s.returned ∨ s.posts ≠ [] ∨
    (∃ id now, a = .create id now) ∧ Filed digest want s.approvals
  finds : ∀ id now, a = .create id now → Filed digest want s.approvals →
    (∃ out, .ok out ∈ t.returned) ∧ t.posts = s.posts

theorem mem_answer {out : AskApprovalOutput} {result : Except ToolError AskApprovalOutput}
    (h : .ok out ∈ (s.answer c result).returned) : .ok out ∈ s.returned ∨ .ok out = result := by
  obtain h | h := List.mem_append.mp h
  · exact .inl h
  · exact .inr (List.mem_singleton.mp h)

theorem AskInv.aside (h : AskInv digest want s) {a : AskAct}
    (hrows : SameRows digest want s.approvals t.approvals) (hcalls : ∀ c ∈ t.calls, c ∈ s.calls)
    (hposts : t.posts = s.posts)
    (hfeed : ∀ m ∈ s.threads.threadMessages, m ∈ t.threads.threadMessages)
    (hreturned : ∀ out, .ok out ∈ t.returned → .ok out ∈ s.returned)
    (ha : ∀ id now, a ≠ .create id now) : AskStepped digest want s a t where
  inv := h.elsewhere hrows hcalls hposts hfeed
  posts := hposts ▸ List.Subset.refl _
  feed := hfeed
  answers out hout := .inl (hreturned out hout)
  finds id now hact := absurd hact (ha id now)

theorem AskInv.create (h : AskInv digest want s) (hc : c ∈ s.calls) {id : Uuid} {now : Time}
    (hstep : askCreate s c now = some t) : AskStepped digest want s (.create id now) t := by
  obtain ⟨hwant, hkey⟩ := h.calls c hc
  obtain ⟨hpc, hcreated⟩ := askCreate_created hstep
  have hsel : selectByIdem c.ctx.orgId c.new.idempotencyKey s.approvals =
      selectByIdem want.orgId (want.key digest) s.approvals := by rw [hwant.1, hkey]
  have hunfiled (hnone : selectByIdem c.ctx.orgId c.new.idempotencyKey s.approvals = none) :
      ¬ Filed digest want s.approvals := by
    rw [← selectByIdem_isSome, ← hsel, hnone]
    exact Bool.false_ne_true
  cases hcreated with
  | failed e hnone =>
    exact {
      inv := h.answer c _
      posts := List.Subset.refl _
      feed := fun _ hm => hm
      answers := fun out hout => (mem_answer hout).elim .inl fun heq => by cases heq
      finds := fun _ _ _ hfiled => absurd hfiled (hunfiled hnone) }
  | created approvals hnone hins =>
    exact {
      inv := h.created hc hnone hins
      posts := List.Subset.refl _
      feed := fun _ hm => hm
      answers := fun out hout => .inl hout
      finds := fun _ _ _ hfiled => absurd hfiled (hunfiled hnone) }
  | existing record hsome =>
    have hfiled : Filed digest want s.approvals := by
      rw [← selectByIdem_isSome, ← hsel, hsome]
      rfl
    exact {
      inv := h.answer c _
      posts := List.Subset.refl _
      feed := fun _ hm => hm
      answers := fun out hout =>
        (mem_answer hout).elim .inl fun _ => .inr (.inr ⟨⟨id, now, rfl⟩, hfiled⟩)
      finds := fun _ _ _ _ =>
        ⟨⟨_, List.mem_append.mpr (.inr (List.mem_singleton.mpr rfl))⟩, rfl⟩ }

theorem AskInv.posts_step (h : AskInv digest want s) (hc : c ∈ s.calls) {id : Uuid}
    {message : ThreadMessageId} {now : Time} (hstep : askPost s c message now = some t) :
    AskStepped digest want s (.post id message now) t := by
  obtain ⟨hwant, hkey⟩ := h.calls c hc
  unfold askPost at hstep
  split at hstep
  case h_2 => cases hstep
  case h_1 record hpc =>
    split at hstep
    case isTrue => cases hstep
    case isFalse =>
      have hframe := (appendMessage_frame message now c.ctx.orgId c.new.threadId c.request
        s.threads).2.2
      split at hstep
      case h_1 threads e happend =>
        cases hstep
        rw [happend] at hframe
        exact h.aside (.refl _) (fun _ hd => (Table.mem_delete.mp hd).1) rfl hframe
          (fun out hout =>
            (mem_answer (c := c) hout).elim (fun hold => hold) fun heq => by cases heq)
          fun _ _ heq => by cases heq
      case h_2 threads posted happend =>
        cases hstep
        rw [happend] at hframe
        have hpast : c.pc.isPrepared = false := by rw [hpc]; rfl
        have hnil : s.posts = [] := h.unposted c hc hpast (by rw [hpc]; rfl)
        obtain ⟨m, hm, hid, hthread, hnew⟩ := appendMessage_posted rfl happend
        exact {
          inv := h.moved hc hpast rfl (by simp) rfl (.refl _) (by
            intro id hid'
            have hid' : id ∈ s.posts ++ [posted] := hid'
            rw [hnil, List.nil_append, List.mem_singleton] at hid'
            exact ⟨m, hm, hid.trans hid'.symm, AskCall.request_isRequest hwant hthread hnew⟩)
            (by simp [hnil])
          posts := List.subset_append_left _ _
          feed := hframe
          answers := fun out hout => .inl hout
          finds := fun _ _ heq => by cases heq }

theorem AskInv.card (h : AskInv digest want s) (hc : c ∈ s.calls) {id : Uuid}
    {message : Option PlatformMessageId} (hstep : askCard s c message = some t) :
    AskStepped digest want s (.card id message) t := by
  unfold askCard at hstep
  split at hstep
  case h_2 => cases hstep
  case h_1 record hpc =>
    have hpast : c.pc.isPrepared = false := by rw [hpc]; rfl
    have hshown : s.posts ≠ [] := h.posted c hc (by rw [hpc]; rfl)
    have hrows : SameRows digest want s.approvals t.approvals ∧ t.posts = s.posts ∧
        t.threads = s.threads ∧ t.returned = s.returned ∧
        t.calls = (s.advance c (.carded record)).calls := by
      cases hstep
      refine ⟨?_, rfl, rfl, rfl, rfl⟩
      dsimp only
      split
      · exact .refl _
      · split
        case h_1 hattach => exact sameRows_attachMessage hattach
        case h_2 => exact .refl _
    obtain ⟨hrows, hposts, hthreads, hreturned, hcalls⟩ := hrows
    exact {
      inv := h.moved hc hpast rfl (hposts ▸ hshown) hcalls hrows
        (by rw [hposts, hthreads]; exact h.posts) (hposts ▸ h.post)
      posts := hposts ▸ List.Subset.refl _
      feed := by rw [hthreads]; exact fun _ hm => hm
      answers := fun out hout => .inl (hreturned ▸ hout)
      finds := fun _ _ heq => by cases heq }

theorem AskInv.finish (h : AskInv digest want s) (hc : c ∈ s.calls) {id : Uuid}
    (hstep : askFinish s c = some t) : AskStepped digest want s (.finish id) t := by
  unfold askFinish at hstep
  split at hstep
  case h_2 => cases hstep
  case h_1 record hpc =>
    cases hstep
    exact {
      inv := h.answer c _
      posts := List.Subset.refl _
      feed := fun _ hm => hm
      answers := fun _ _ => .inr (.inl (h.posted c hc (by rw [hpc]; rfl)))
      finds := fun _ _ heq => by cases heq }

theorem AskInv.ask (h : AskInv digest want s) {new : NewApproval}
    (hnew : want.Is c.ctx.orgId new ∧ new.idempotencyKey = want.key digest)
    (hcall : c.new = new) (hpc : c.pc = .prepared) :
    AskInv digest want { s with calls := s.calls.put c } := by
  subst hcall
  have hmem : ∀ d ∈ s.calls.put c, d = c ∨ d ∈ s.calls := fun d hd =>
    (Table.mem_put.mp hd).imp_right And.left
  have hold : ∀ d ∈ s.calls.put c, d.pc.isPrepared = false → d ∈ s.calls := fun d hd hpast => by
    obtain rfl | hd := hmem d hd
    · rw [hpc] at hpast
      cases hpast
    · exact hd
  have hposted : ∀ d ∈ s.calls.put c, d.pc.hasPosted → d ∈ s.calls := fun d hd hpost =>
    hold d hd (by cases hd' : d.pc <;> rw [hd'] at hpost <;> first | rfl | cases hpost)
  exact {
    row := h.row
    calls := fun d hd => (hmem d hd).elim (fun heq => heq ▸ hnew) (h.calls d)
    posts := h.posts
    post := h.post
    unfiled := fun hnot => ⟨(h.unfiled hnot).1, fun d hd => (hmem d hd).elim
      (fun heq => by rw [heq, hpc]; rfl) ((h.unfiled hnot).2 d)⟩
    creator := fun d hd d' hd' hp hp' =>
      h.creator d (hold d hd hp) d' (hold d' hd' hp') hp hp'
    unposted := fun d hd hp => h.unposted d (hold d hd hp) hp
    posted := fun d hd hp => h.posted d (hposted d hd hp) hp }

theorem AskInv.step (h : AskInv digest want s) {a : AskAct}
    (hstep : askStep digest colleagues want s a = some t) : AskStepped digest want s a t := by
  cases a with
  | ask id ctx input target approval now =>
    simp only [askStep, Option.ite_none_left_eq_some] at hstep
    obtain ⟨-, hstep⟩ := hstep
    split at hstep
    case h_1 e =>
      cases hstep
      refine h.aside (.refl _) (fun _ hd => hd) rfl (fun _ hm => hm) (fun out hout => ?_)
        fun _ _ heq => by cases heq
      obtain hout | hout := List.mem_append.mp hout
      · exact hout
      · cases List.mem_singleton.mp hout
    case h_2 new hprepare =>
      obtain ⟨hwant, hstep⟩ := Option.ite_none_right_eq_some.mp hstep
      cases hstep
      exact {
        inv := h.ask ⟨hwant, prepareAsk_key hprepare hwant⟩ rfl rfl
        posts := List.Subset.refl _
        feed := fun _ hm => hm
        answers := fun out hout => .inl hout
        finds := fun _ _ heq => by cases heq }
  | create id now =>
    obtain ⟨c, hc, hstep⟩ := Option.bind_eq_some_iff.mp hstep
    exact h.create (Table.mem_of_find? hc) hstep
  | post id message now =>
    obtain ⟨c, hc, hstep⟩ := Option.bind_eq_some_iff.mp hstep
    exact h.posts_step (Table.mem_of_find? hc) hstep
  | card id message =>
    obtain ⟨c, hc, hstep⟩ := Option.bind_eq_some_iff.mp hstep
    exact h.card (Table.mem_of_find? hc) hstep
  | finish id =>
    obtain ⟨c, hc, hstep⟩ := Option.bind_eq_some_iff.mp hstep
    exact h.finish (Table.mem_of_find? hc) hstep
  | stop id =>
    cases hstep
    exact h.aside (.refl _) (fun _ hd => (Table.mem_delete.mp hd).1) rfl (fun _ hm => hm)
      (fun _ hout => hout) fun _ _ heq => by cases heq
  | file org new now =>
    simp only [askStep, Option.ite_none_left_eq_some] at hstep
    obtain ⟨hother, hstep⟩ := hstep
    split at hstep
    case h_1 => cases hstep
    case h_2 hcreate =>
      cases hstep
      exact h.aside (sameRows_create hcreate hother) (fun _ hd => hd) rfl (fun _ hm => hm)
        (fun _ hout => hout) fun _ _ heq => by cases heq
  | decide org approval decision clicker now =>
    simp only [askStep] at hstep
    split at hstep
    case h_1 => cases hstep
    case h_2 hdecide =>
      cases hstep
      exact h.aside (sameRows_decide hdecide) (fun _ hd => hd) rfl (fun _ hm => hm)
        (fun _ hout => hout) fun _ _ heq => by cases heq
  | expire batch =>
    cases hstep
    exact h.aside (sameRows_modify (setExpired_key batch) rfl (setExpired_isRow batch))
      (fun _ hd => hd) rfl (fun _ hm => hm) (fun _ hout => hout) fun _ _ heq => by cases heq
  | append message org thread new now =>
    cases hstep
    exact h.aside (.refl _) (fun _ hd => hd) rfl
      (appendMessage_frame message now org thread new s.threads).2.2 (fun _ hout => hout)
      fun _ _ heq => by cases heq

theorem Shown.stepped (h : Shown want s) {a : AskAct} (hstep : AskStepped digest want s a t) :
    Shown want t := by
  obtain ⟨id, hid, m, hm, hrequest⟩ := h
  exact ⟨id, hstep.posts hid, m, hstep.feed m hm, hrequest⟩

theorem visible_step {a : AskAct} (h : AskInv digest want s) (hvisible : Visible digest want s)
    (hstep : askStep digest colleagues want s a = some t) :
    Visible digest want t ↔ FindsShown digest want s a := by
  have hstepped := h.step hstep
  have hinv := hstepped.inv
  constructor
  · intro ht
    cases a with
    | create id now =>
      intro hfiled
      obtain ⟨⟨out, hout⟩, hposts⟩ := hstepped.finds id now rfl hfiled
      rw [shown_iff h, ← hposts, ← shown_iff hinv]
      exact ht.shown out hout
    | _ => trivial
  · intro hfinds
    refine ⟨hinv.row, hinv.post, fun out hout => ?_⟩
    obtain hold | hposts | ⟨⟨id, now, rfl⟩, hfiled⟩ := hstepped.answers out hout
    · exact (hvisible.shown out hold).stepped hstepped
    · exact ((shown_iff h).mpr hposts).stepped hstepped
    · exact (hfinds hfiled).stepped hstepped

theorem AskInv.start {approvals : ApprovalDb} {threads : Threads.ThreadDb}
    (h : ¬ Filed digest want approvals) : AskInv digest want (.start approvals threads) where
  row r hr _ _ hrow := absurd ⟨r, hr, hrow⟩ h
  calls c hc := absurd hc (Table.not_mem_empty c)
  posts id hid := by cases hid
  post := Nat.zero_le 1
  unfiled _ := ⟨rfl, fun c hc => absurd hc (Table.not_mem_empty c)⟩
  creator c hc := absurd hc (Table.not_mem_empty c)
  unposted _ _ _ _ := rfl
  posted c hc := absurd hc (Table.not_mem_empty c)

/-- Throughout a run the request is visible, exactly if no call of the run comes upon the row
while its request is missing. -/
theorem visible_iff_findsShown (digest : String → String) (colleagues : Table ColleagueRow)
    (want : Wanted) {approvals : ApprovalDb} {threads : Threads.ThreadDb}
    (h : ¬ Filed digest want approvals) (as : List AskAct) :
    Always (askStep digest colleagues want) (Visible digest want) (.start approvals threads) as ↔
      Steps (askStep digest colleagues want) (FindsShown digest want) (.start approvals threads)
        as := by
  have hstart : AskInv digest want (.start approvals threads) := .start h
  exact always_iff_steps (AskInv digest want) (fun _ _ _ hinv _ hstep _ => (hinv.step hstep).inv)
    (fun _ _ _ hinv hvisible hstep => visible_step hinv hvisible hstep) hstart
    ⟨hstart.row, Nat.zero_le 1, fun _ hout => by cases hout⟩ as

end

namespace Refund

def sha256 (_ : String) : String :=
  "f4aa9060f9114fab0fae50dc5d133d9812c6e254a5e63da3de2fd887409812bc"

def wanted : Wanted where
  orgId := 1
  thread := 2
  root := 8
  gatedTool := ⟨"void_invoice", by decide, by decide, by decide⟩
  action := ⟨"Void invoice 12", by decide, by decide⟩

def working : AgentCore.ToolCallContext where
  orgId := 1
  actingUserId := 10
  threadId := some 2
  viewer := .agent 4 3
  rootRequestId := 8
  requestId := 9

def input : AskApprovalInput := ⟨"Void invoice 12", "void_invoice", [], none⟩

def feed : Threads.ThreadDb := { Threads.ThreadDb.empty with threads := .single ⟨2, 1⟩ }

def asked (call approval : Uuid) : AskAct := .ask call working input (.ok none) approval 0

def whole : List AskAct :=
  [asked 0 7, .create 0 1, .post 0 41 2, .card 0 none, .finish 0, asked 1 17, .create 1 3]

def broken : List AskAct := [asked 0 7, .create 0 1, .stop 0, asked 1 17, .create 1 3]

end Refund

theorem not_filed_empty (digest : String → String) (want : Wanted) :
    ¬ Filed digest want .empty := by
  rintro ⟨r, hr, -⟩
  exact Table.not_mem_empty r hr

theorem visible_whole :
    Always (askStep Refund.sha256 .empty Refund.wanted) (Visible Refund.sha256 Refund.wanted)
      (.start .empty Refund.feed) Refund.whole := by
  refine (visible_iff_findsShown Refund.sha256 .empty Refund.wanted
    (not_filed_empty Refund.sha256 Refund.wanted) Refund.whole).mpr ?_
  decide +kernel

/-- The second call answers that the approval is pending; no one has been asked. -/
theorem asked_in_silence : ∃ s,
    run (askStep Refund.sha256 .empty Refund.wanted) (.start .empty Refund.feed) Refund.broken
      = some s ∧
    s.returned.filterMap Except.toOption = [⟨7, "pending", 86400000000⟩] ∧
    s.approvals.pendingApproval.rows.length = 1 ∧ s.threads.threadMessages.rows = [] ∧
    ¬ Visible Refund.sha256 Refund.wanted s := by
  have hrun : (run (askStep Refund.sha256 .empty Refund.wanted) (.start .empty Refund.feed)
      Refund.broken).any fun s =>
        s.returned.filterMap Except.toOption = [⟨7, "pending", 86400000000⟩] ∧
        s.approvals.pendingApproval.rows.length = 1 ∧ s.threads.threadMessages.rows.length = 0 ∧
        s.posts = [] := by
    decide +kernel
  obtain ⟨s, hs, hfacts⟩ := (Option.any_eq_true _ _).mp hrun
  obtain ⟨hanswers, hrow, hfeed, hposts⟩ := of_decide_eq_true hfacts
  refine ⟨s, hs, hanswers, hrow, List.eq_nil_of_length_eq_zero hfeed, fun h => ?_⟩
  have hmem : (⟨7, "pending", 86400000000⟩ : AskApprovalOutput) ∈
      s.returned.filterMap Except.toOption := hanswers ▸ List.mem_singleton.mpr rfl
  obtain ⟨r, hr, hok⟩ := List.mem_filterMap.mp hmem
  cases r with
  | error e => cases hok
  | ok out =>
    obtain ⟨id, hid, -⟩ := h.shown _ hr
    rw [hposts] at hid
    cases hid

end Patom.Tools
