import Patom.Approvals.Budgeted
import Patom.Tools.SendMessage

open Patom.AgentCore (ToolCallContext)
open Patom.Foundation
open Patom.Runtime (enqueueTrigger_cases PromptRequestId)
open Patom.Tools (Send)

namespace Patom.Approvals

def holdsSend (root : PromptRequestId) (d : Send) : Bool :=
  root = d.ctx.rootRequestId ∧ holdsUnit d.pc = true

def holdsAttempt (root : PromptRequestId) (a : Attempt) : Bool :=
  root = a.record.rootRequestId ∧ a.pc.paid = true

/-- The units of a root's budget that running calls hold. -/
def St.held (s : St) (root : PromptRequestId) : Nat :=
  s.sends.rows.countP (holdsSend root) + s.attempts.rows.countP (holdsAttempt root)

theorem countP_settleSend {sends : Table Send} {d : Send} (hd : d ∈ sends) (p : Tools.SendProgress)
    (root : PromptRequestId) :
    (Tools.settleSend d sends p).rows.countP (holdsSend root) +
        (if root = d.ctx.rootRequestId ∧ holdsUnit d.pc then 1 else 0) =
      sends.rows.countP (holdsSend root) +
        if root = d.ctx.rootRequestId ∧ sendHolds p then 1 else 0 := by
  cases p with
  | running pc =>
    have hcount := @Table.countP_put _ _ _ _ sends d { d with pc } hd rfl (holdsSend root)
    simp only [holdsSend, decide_eq_true_eq] at hcount
    exact hcount
  | returned r =>
    have hcount := Table.countP_delete hd (holdsSend root)
    simp only [holdsSend, decide_eq_true_eq] at hcount
    simp only [sendHolds, Bool.false_eq_true, and_false, if_false, Nat.add_zero]
    exact hcount

theorem countP_settleAttempt {attempts : Table Attempt} {a : Attempt} (ha : a ∈ attempts) (p : Progress)
    (root : PromptRequestId) :
    (settleAttempt a attempts p).rows.countP (holdsAttempt root) +
        (if root = a.record.rootRequestId ∧ a.pc.paid then 1 else 0) =
      attempts.rows.countP (holdsAttempt root) +
        if root = a.record.rootRequestId ∧ p.paid then 1 else 0 := by
  cases p with
  | running pc =>
    have hcount := @Table.countP_put _ _ _ _ attempts a { a with pc } ha rfl (holdsAttempt root)
    simp only [holdsAttempt, decide_eq_true_eq] at hcount
    exact hcount
  | returned r =>
    have hcount := Table.countP_delete ha (holdsAttempt root)
    simp only [holdsAttempt, decide_eq_true_eq] at hcount
    simp only [Progress.paid, Bool.false_eq_true, and_false, if_false, Nat.add_zero]
    exact hcount

structure DagInv (s : St) : Prop where
  budgeted : Budgeted s.world.queue s.minted s.held
  resumes : ResumeInv s.desk.approvals s.world.queue s.attempts s.minted

variable {env : Env} {s t : St} {a : Act}

theorem Budgeted.release {queue : Runtime.Db} {minted : List Mint} {held held' : PromptRequestId → Nat}
    (h : Budgeted queue minted held) (hle : ∀ root, held' root ≤ held root) :
    Budgeted queue minted held' :=
  ⟨h.capped, fun root => (Nat.add_le_add_left (hle root) _).trans (h.covered root), h.attributed⟩

theorem countP_rows_delete_le {ρ κ : Type} [Keyed ρ κ] (t : Table ρ) (q p : ρ → Bool) :
    (t.delete q).rows.countP p ≤ t.rows.countP p :=
  List.filter_sublist.countP_le

theorem startResume_ok {readColleague : ColleagueId → Except String DirectoryEntry} {task : Uuid}
    {record : PendingApproval} {a : Attempt} (h : startResume readColleague task record = .ok a) :
    a.record = record ∧ a.pc = .begun ∧ record.status.decided = true := by
  unfold startResume at h
  cases hdecided : record.decidedByColleague with
  | none => simp [hdecided, bind, Except.bind] at h
  | some c =>
    have hstatus : record.status.decided = true := by
      rw [← record.decidedConsistency.1, hdecided]
      rfl
    cases hlabel : resumeLabel record.status with
    | error e => simp [hdecided, hlabel, bind, Except.bind] at h
    | ok label =>
      cases hread : readColleague c with
      | error e => simp [hdecided, hlabel, hread, Except.mapError, bind, Except.bind] at h
      | ok entry =>
        cases huser : entry.userId with
        | none => simp [hdecided, hlabel, hread, huser, Except.mapError, bind, Except.bind] at h
        | some user =>
          simp only [hdecided, hlabel, hread, huser, Except.mapError, bind, Except.bind,
            Except.ok.injEq] at h
          subst h
          exact ⟨rfl, rfl, hstatus⟩

theorem startSend_ok {task : Uuid} {ctx : AgentCore.ToolCallContext} {thread : ThreadId}
    {colleague : ColleagueId} {agent : AgentId} {content : Tools.Prompt} {d : Send}
    (h : Tools.startSend task ctx thread colleague agent content = .ok d) :
    d.pc = .joining none none := by
  unfold Tools.startSend at h
  split at h
  case h_1 => cases h
  case h_2 =>
    split at h
    case isTrue => cases h
    case isFalse =>
      cases h
      rfl

theorem dagInv_init : DagInv .init where
  budgeted :=
    { capped := fun _ h => absurd h (Table.not_mem_empty _)
      covered := fun _ => Nat.le_refl _
      attributed := fun _ h => absurd h (Table.not_mem_empty _) }
  resumes :=
    { decided := fun _ h => absurd h (Table.not_mem_empty _)
      resumed := fun _ h => absurd h List.not_mem_nil
      once := .nil }

theorem DagInv.post {request : PromptRequestId} {now : Time} {trig : Runtime.NewTrigger}
    (h : DagInv s) (hstep : step env s (.post request now trig) = some t) : DagInv t := by
  simp only [Approvals.step, Option.ite_none_right_eq_some] at hstep
  obtain ⟨hroot, hstep⟩ := hstep
  split at hstep
  case h_2 =>
    cases hstep
    exact h
  case h_1 henqueue =>
    cases hstep
    obtain ⟨existing, -, rfl, -⟩ | ⟨-, row, hrow⟩ := enqueueTrigger_cases henqueue
    · exact h
    · exact ⟨h.budgeted.posted hroot hrow,
        h.resumes.keeps keeps_refl (.enqueued hrow) fun b hb => ⟨b, hb, rfl⟩⟩

theorem DagInv.marked {queue : Runtime.Db} {f : Runtime.PromptRequest → Runtime.PromptRequest}
    (h : DagInv s) (hf : ∀ r, key (f r) = key r)
    (hkept : ∀ r, (f r).rootRequestId = r.rootRequestId ∧ (f r).orgId = r.orgId ∧
      (f r).idempotencyKey = r.idempotencyKey)
    (hrows : queue.promptRequests = s.world.queue.promptRequests.modify f hf)
    (hdags : queue.promptRequestDags = s.world.queue.promptRequestDags) :
    DagInv { s with world := { s.world with queue } } :=
  ⟨h.budgeted.modified hf (fun r => (hkept r).1) hrows hdags,
    h.resumes.keeps keeps_refl (.of_rows hf (fun r => (hkept r).2) hrows) fun b hb => ⟨b, hb, rfl⟩⟩

theorem DagInv.claimed {ids : List PromptRequestId} {leaseSeq : Runtime.TurnSeq} {now : Time}
    (h : DagInv s) (hstep : step env s (.claimed ids leaseSeq now) = some t) : DagInv t := by
  cases hstep
  refine h.marked (Runtime.markDrained_key ids leaseSeq now) (fun r => ?_) rfl rfl
  unfold Runtime.markDrained
  split <;> exact ⟨rfl, rfl, rfl⟩

theorem DagInv.finalised {r : Runtime.TurnReceipt} {status : Runtime.RequestStatus}
    {reason : Option Runtime.FailureReason} {now : Time}
    (h : DagInv s) (hstep : step env s (.finalised r status reason now) = some t) : DagInv t := by
  cases hstep
  refine h.marked (Runtime.markFinalised_key r status reason now) (fun q => ?_) rfl rfl
  unfold Runtime.markFinalised
  split <;> exact ⟨rfl, rfl, rfl⟩

theorem DagInv.send {task : Uuid} {ctx : ToolCallContext} {thread : ThreadId} {colleague : ColleagueId}
    {agent : AgentId} {content : Tools.Prompt}
    (h : DagInv s) (hstep : step env s (.send task ctx thread colleague agent content) = some t) : DagInv t := by
  simp only [Approvals.step] at hstep
  split at hstep
  case h_2 =>
    cases hstep
    exact h
  case h_1 d hd =>
    obtain ⟨sends, hinsert, rfl⟩ := Option.map_eq_some_iff.mp hstep
    refine ⟨h.budgeted.release fun root => ?_, h.resumes⟩
    rw [St.held, Table.rows_insert? hinsert, List.countP_append, List.countP_singleton]
    simp [St.held, holdsSend, holdsUnit, startSend_ok hd]

theorem DagInv.sendStep {task : Uuid} {act : Tools.SendAct}
    (h : DagInv s) (hstep : step env s (.sendStep task act) = some t) : DagInv t := by
  obtain ⟨d, hd, hstep⟩ := Option.bind_eq_some_iff.mp hstep
  obtain ⟨⟨w, p⟩, hsend, hstep⟩ := Option.bind_eq_some_iff.mp hstep
  cases hstep
  have hd := Table.mem_of_find? hd
  have hcharged := sendStep_charged hsend
  have hnone : ∀ m ∈ sendMint w d act, m.minter.approval? = none := fun m hm => by
    cases act with
    | post | participate | join | bump => cases hm
    | enqueue request now =>
      simp only [sendMint, mint] at hm
      split at hm
      case isTrue => rw [List.mem_singleton.mp hm, Minter.approval?]
      case isFalse => cases hm
  refine ⟨h.budgeted.charged hcharged fun root => ?_, ?_⟩
  · have hcount := countP_settleSend hd p root
    simp only [St.held]
    omega
  · refine (h.resumes.keeps keeps_refl hcharged.keysKept fun b hb => ⟨b, hb, rfl⟩).sent hnone

theorem DagInv.resume {task : Uuid} {org : OrgId} {approval : ApprovalId}
    (h : DagInv s) (hstep : step env s (.resume task org approval) = some t) : DagInv t := by
  simp only [Approvals.step] at hstep
  split at hstep
  case h_1 =>
    cases hstep
    exact h
  case h_2 record hread =>
    split at hstep
    case h_2 =>
      cases hstep
      exact h
    case h_1 b hb =>
      obtain ⟨attempts, hinsert, rfl⟩ := Option.map_eq_some_iff.mp hstep
      obtain ⟨hrecord, hpc, hdecided⟩ := startResume_ok hb
      refine ⟨h.budgeted.release fun root => ?_, ⟨fun c hc => ?_, h.resumes.resumed, h.resumes.once⟩⟩
      · simp only [St.held]
        rw [Table.rows_insert? hinsert, List.countP_append, List.countP_singleton]
        simp [holdsAttempt, hpc, ResumePc.paid]
      · rcases (Table.mem_insert? hinsert).mp hc with hc | rfl
        · exact h.resumes.decided c hc
        · rw [hrecord]
          exact ⟨⟨record, (read_ok hread).1, .refl record⟩, hdecided⟩

theorem DagInv.resumeStep {task : Uuid} {act : ResumeAct}
    (h : DagInv s) (hstep : step env s (.resumeStep task act) = some t) : DagInv t := by
  obtain ⟨b, hb, hstep⟩ := Option.bind_eq_some_iff.mp hstep
  obtain ⟨⟨w, p⟩, hresume, hstep⟩ := Option.bind_eq_some_iff.mp hstep
  cases hstep
  have hb := Table.mem_of_find? hb
  refine ⟨h.budgeted.charged (resumeStep_charged hresume) fun root => ?_, h.resumes.step hb hresume⟩
  have hcount := countP_settleAttempt hb p root
  simp only [St.held]
  omega

theorem DagInv.step (h : DagInv s) (hstep : step env s a = some t) : DagInv t := by
  cases a with
  | desk a =>
    obtain ⟨desk, hdesk, rfl⟩ := Option.map_eq_some_iff.mp hstep
    exact ⟨h.budgeted, h.resumes.keeps (fun r hr => deskStep_keeps hdesk hr) (fun _ _ => id)
      fun b hb => ⟨b, hb, rfl⟩⟩
  | createThread id org =>
    obtain ⟨threads, -, rfl⟩ := Option.map_eq_some_iff.mp hstep
    exact ⟨h.budgeted, h.resumes⟩
  | post => exact h.post hstep
  | claimed => exact h.claimed hstep
  | finalised => exact h.finalised hstep
  | send => exact h.send hstep
  | sendStep => exact h.sendStep hstep
  | sendStop task =>
    cases hstep
    refine ⟨h.budgeted.release fun root => ?_, h.resumes⟩
    exact Nat.add_le_add_right (countP_rows_delete_le ..) _
  | resume => exact h.resume hstep
  | resumeStep => exact h.resumeStep hstep
  | resumeStop task =>
    cases hstep
    refine ⟨h.budgeted.release fun root => ?_, h.resumes.keeps keeps_refl (fun _ _ => id) fun b hb => ?_⟩
    · exact Nat.add_le_add_left (countP_rows_delete_le ..) _
    · exact ⟨b, (Table.mem_delete.mp hb).1, rfl⟩

theorem Minter.approval_of_unpaid {minter : Minter} {approval : ApprovalId}
    (h : minter.unpaid? = some approval) : minter.approval? = some approval := by
  cases minter with
  | sendMessage => exact h
  | resume approval paid =>
    cases paid with
    | true => cases h
    | false => exact h

theorem filterMap_sublist {α β : Type} {f g : α → Option β} (h : ∀ x y, f x = some y → g x = some y)
    (l : List α) : (l.filterMap f).Sublist (l.filterMap g) := by
  induction l with
  | nil => exact .slnil
  | cons x l ih =>
    cases hf : f x with
    | some y => simpa [hf, h x y hf] using ih.cons_cons y
    | none =>
      cases hg : g x with
      | some y => simpa [hf, hg] using ih.cons y
      | none => simpa [hf, hg] using ih

theorem unpaid_sublist (minted : List Mint) (root : PromptRequestId) :
    ((minted.filter (·.root = root)).filterMap (·.minter.unpaid?)).Sublist
      (minted.filterMap (·.minter.approval?)) :=
  (List.filter_sublist.filterMap _).trans (filterMap_sublist (fun _ _ => Minter.approval_of_unpaid) minted)

theorem countP_root (minted : List Mint) (root : PromptRequestId) :
    (minted.filter (·.root = root)).length = minted.countP (Mint.funded root) +
      ((minted.filter (·.root = root)).filterMap (·.minter.unpaid?)).length := by
  induction minted with
  | nil => rfl
  | cons m minted ih =>
    rw [List.filter_cons, List.countP_cons]
    by_cases hroot : m.root = root
    · cases hm : m.minter.unpaid? with
      | none =>
        simp only [hroot, decide_true, if_true, Mint.funded, hm, and_self, List.length_cons,
          List.filterMap_cons, ih]
        omega
      | some approval =>
        simp only [hroot, decide_true, if_true, Mint.funded, hm, reduceCtorEq, and_false,
          decide_false, Bool.false_eq_true, if_false, List.length_cons, List.filterMap_cons, ih]
        omega
    · simp only [hroot, decide_false, Bool.false_eq_true, if_false, Mint.funded, false_and, ih]
      rfl

theorem DagInv.inherited_le (h : DagInv s) (root : PromptRequestId) :
    (s.inherited root).length ≤ (s.minted.filter (·.root = root)).length := by
  have hnodup : (s.inherited root).Nodup :=
    s.world.queue.promptRequests.nodup.sublist (List.filter_sublist.map _)
  have hsubset : s.inherited root ⊆ (s.minted.filter (·.root = root)).map (·.request) := fun id hid => by
    obtain ⟨r, hr, rfl⟩ := List.mem_map.mp hid
    obtain ⟨hr₀, hmatch⟩ := List.mem_filter.mp hr
    obtain ⟨rfl, hne⟩ := of_decide_eq_true hmatch
    obtain ⟨m, hm, hrequest, hroot⟩ := h.budgeted.attributed r hr₀ fun e => hne e.symm
    exact List.mem_map.mpr ⟨m, List.mem_filter.mpr ⟨hm, decide_eq_true hroot⟩, hrequest⟩
  have hle := (hnodup.subperm hsubset).length_le
  rwa [List.length_map] at hle

theorem DagInv.run {as : List Act} (h : DagInv s) (hrun : run (Approvals.step env) s as = some t) :
    DagInv t := by
  induction as generalizing s with
  | nil =>
    cases hrun
    exact h
  | cons a as ih =>
    obtain ⟨u, hu, hrun⟩ := Option.bind_eq_some_iff.mp hrun
    exact ih (h.step hu) hrun

theorem DagInv.turnsUsed_le (h : DagInv s) (root : PromptRequestId) :
    s.turnsUsed root ≤ s.turnsCap root := by
  rw [St.turnsUsed, St.turnsCap]
  cases hdag : s.budget root with
  | none => exact Nat.le_refl 0
  | some dag => exact h.budgeted.capped dag (Table.mem_of_find? hdag)

end Patom.Approvals

namespace Patom.Approvals

variable {env : Env} {s t : St}

/-- The inherited triggers of a tree are within its budget, up to one for each approval whose
resume went on without a unit of it. -/
theorem inherited_le_budget {as : List Act} (hrun : run (step env) .init as = some s)
    (root : PromptRequestId) :
    (s.inherited root).length ≤ s.turnsUsed root + (s.unpaid root).length ∧
      s.turnsUsed root ≤ s.turnsCap root ∧ (s.unpaid root).Nodup ∧
      ∀ approval ∈ s.unpaid root, ∃ r ∈ s.desk.approvals.pendingApproval,
        r.id = approval ∧ r.rootRequestId = root ∧ r.status.decided = true := by
  have h : DagInv s := dagInv_init.run hrun
  refine ⟨?_, h.turnsUsed_le root, h.resumes.once.sublist (unpaid_sublist s.minted root), fun id hid => ?_⟩
  · have hcovered := h.budgeted.covered root
    calc (s.inherited root).length ≤ (s.minted.filter (·.root = root)).length := h.inherited_le root
      _ = s.minted.countP (Mint.funded root) + (s.unpaid root).length := countP_root s.minted root
      _ ≤ s.turnsUsed root + (s.unpaid root).length :=
        Nat.add_le_add_right ((Nat.le_add_right _ _).trans hcovered) _
  · obtain ⟨m, hm, hunpaid⟩ := List.mem_filterMap.mp hid
    obtain ⟨hm, hroot⟩ := List.mem_filter.mp hm
    obtain ⟨r, hr, hrid, hrroot, hdecided, -⟩ :=
      h.resumes.resumed m hm id (Minter.approval_of_unpaid hunpaid)
    exact ⟨r, hr, hrid, hrroot.trans (of_decide_eq_true hroot), hdecided⟩

namespace Sample

def rootPost : Runtime.NewTrigger where
  orgId := 1
  actingUserId := 6
  threadId := some 2
  stateId := some 9
  backgroundTurnId := none
  senderColleagueId := 5
  receiverAgentId := 3
  rootRequestId := none
  triggerMessageId := none
  idempotencyKey := ⟨"root", by decide, by decide⟩
  kindPayload := .normal

def approved : List Act :=
  [.createThread 2 1, .post 8 1 rootPost, .desk (.ask 1 2 deploy), .desk (.decide 1 11 .approved 5 3),
    .resume 50 1 11, .resumeStep 50 (.participate 51 4), .resumeStep 50 (.note 52 5)]

def pingId (n : Nat) : Uuid := .ofNat 128 (1000 + n)

def ping (n : Nat) : Send :=
  ⟨pingId n, turn, 2, 6, 7, ⟨"ping", by decide, by decide⟩, .joining none none⟩

def pingActs (n : Nat) : List Act :=
  [.send (pingId n) turn 2 6 7 ⟨"ping", by decide, by decide⟩,
    .sendStep (pingId n) (.post (pingId n) 6), .sendStep (pingId n) (.participate 10 6),
    .sendStep (pingId n) .join, .sendStep (pingId n) (.bump none),
    .sendStep (pingId n) (.enqueue (pingId n) 6)]

def resumed : List Act := [.resumeStep 50 (.bump false), .resumeStep 50 (.enqueue 5000 7)]

end Sample

theorem ping_within_budget : ∃ s,
    run (step Sample.deployment) .init (Sample.approved ++ Sample.pingActs 0 ++ Sample.resumed) = some s ∧
      (s.inherited 8).length ≤ s.turnsUsed 8 + (s.unpaid 8).length ∧ s.turnsUsed 8 ≤ s.turnsCap 8 ∧
      (s.unpaid 8).Nodup ∧ ∀ approval ∈ s.unpaid 8, ∃ r ∈ s.desk.approvals.pendingApproval,
        r.id = approval ∧ r.rootRequestId = 8 ∧ r.status.decided = true := by
  have hrun : (run (step Sample.deployment) .init
      (Sample.approved ++ Sample.pingActs 0 ++ Sample.resumed)).isSome := by
    decide +kernel
  obtain ⟨s, hs⟩ := Option.isSome_iff_exists.mp hrun
  exact ⟨s, hs, inherited_le_budget hs 8⟩

structure Flooded (s : St) (n : Nat) : Prop where
  thread : (s.world.threads.threads.find? 2).isSome
  messages : ∀ m ∈ s.world.threads.threadMessages, m.id.toNat < 1000 + n
  requests : ∀ r ∈ s.world.queue.promptRequests, r.id.toNat < 1000 + n
  keys : ∀ r ∈ s.world.queue.promptRequests, r.idempotencyKey.asStr.utf8ByteSize = 4 ∨
    ∃ j < n, r.idempotencyKey.asStr = Tools.tag 2 7 (Sample.pingId j)
  budget : ∃ dag, s.budget 8 = some dag ∧ dag.turnsUsed = n ∧ dag.turnsCap = Runtime.MAX_DAG_TURNS
  inherited : (s.inherited 8).length = n
  sends : ∀ d ∈ s.sends, d.id.toNat < 1000 + n
  waiting : ∃ a state note, s.attempts.find? 50 = some a ∧ a.pc = .noted state note ∧
    a.record.orgId = 1 ∧ a.record.requestingAgentId = 3 ∧ a.record.rootRequestId = 8

theorem flooded_approved : ∃ s, run (step Sample.deployment) .init Sample.approved = some s ∧ Flooded s 0 := by
  have hrun : (run (step Sample.deployment) .init Sample.approved).any fun s =>
      (s.world.threads.threads.find? 2).isSome ∧
        (s.world.threads.threadMessages.rows.all fun m => m.id.toNat < 1000) ∧
        (s.world.queue.promptRequests.rows.all fun r => r.id.toNat < 1000) ∧
        (s.world.queue.promptRequests.rows.all fun r => r.idempotencyKey.asStr.utf8ByteSize = 4) ∧
        ((s.budget 8).any fun dag => dag.turnsUsed = 0 ∧ dag.turnsCap = Runtime.MAX_DAG_TURNS) ∧
        (s.inherited 8).length = 0 ∧ (s.sends.rows.all fun d => d.id.toNat < 1000) ∧
        ((s.attempts.find? 50).any fun a => a.pc.rank = 2 ∧ a.record.orgId = 1 ∧
          a.record.requestingAgentId = 3 ∧ a.record.rootRequestId = 8) := by
    decide +kernel
  obtain ⟨s, hs, hstate⟩ := (Option.any_eq_true _ _).mp hrun
  obtain ⟨hthread, hmessages, hrequests, hkeys, hbudget, hinherited, hsends, hwaiting⟩ :=
    of_decide_eq_true hstate
  refine ⟨s, hs, hthread, fun m hm => ?_, fun r hr => ?_, fun r hr => .inl ?_, ?_, hinherited,
    fun d hd => ?_, ?_⟩
  · exact of_decide_eq_true (List.all_eq_true.mp hmessages m hm)
  · exact of_decide_eq_true (List.all_eq_true.mp hrequests r hr)
  · exact of_decide_eq_true (List.all_eq_true.mp hkeys r hr)
  · obtain ⟨dag, hdag, hfields⟩ := (Option.any_eq_true _ _).mp hbudget
    exact ⟨dag, hdag, of_decide_eq_true hfields⟩
  · exact of_decide_eq_true (List.all_eq_true.mp hsends d hd)
  · obtain ⟨a, ha, hfields⟩ := (Option.any_eq_true _ _).mp hwaiting
    obtain ⟨hrank, hrecord⟩ := of_decide_eq_true hfields
    cases hpc : a.pc with
    | begun | participating | bumped => simp [hpc, ResumePc.rank] at hrank
    | noted state note => exact ⟨a, state, note, ha, hpc, hrecord⟩

theorem pingId_toNat {n : Nat} (hn : n ≤ Runtime.MAX_DAG_TURNS) : (Sample.pingId n).toNat = 1000 + n := by
  have hle : n ≤ 64 := hn
  rw [Sample.pingId, BitVec.toNat_ofNat, Nat.mod_eq_of_lt]
  omega

theorem find?_of_bounded {ρ : Type} [Keyed ρ Uuid] {t : Table ρ} {n : Nat} {id : Uuid}
    (h : ∀ r ∈ t, (key r).toNat < n) (hid : n ≤ id.toNat) : t.find? id = none := by
  refine Table.find?_eq_none.mpr fun r hr e => ?_
  have hlt := h r hr
  rw [e] at hlt
  exact Nat.not_lt.mpr hid hlt

theorem inherited_append {row : Runtime.PromptRequest} {root : PromptRequestId}
    (hrows : t.world.queue.promptRequests.rows = s.world.queue.promptRequests.rows ++ [row])
    (hroot : row.rootRequestId = root) (hne : row.id ≠ root) :
    (t.inherited root).length = (s.inherited root).length + 1 := by
  have hlast : [row].filter (fun r => r.rootRequestId = root ∧ r.id ≠ root) = [row] :=
    List.filter_eq_self.mpr fun r hr => List.mem_singleton.mp hr ▸ decide_eq_true ⟨hroot, hne⟩
  rw [St.inherited, hrows, List.filter_append, List.map_append, List.length_append, hlast]
  rfl

theorem mem_settleSend {sends : Table Send} {d e : Send} {p : Tools.SendProgress}
    (h : e ∈ Tools.settleSend d sends p) : e.id = d.id ∨ e ∈ sends := by
  cases p with
  | running pc =>
    rcases Table.mem_put.mp h with rfl | ⟨h, -⟩
    · exact .inl rfl
    · exact .inr h
  | returned r => exact .inr (Table.mem_delete.mp h).1

theorem sendStep_moves {task : Uuid} {d : Send} {act : Tools.SendAct} {w w' : World}
    {p : Tools.SendProgress} (hworld : s.world = w) (hd : s.sends.find? task = some d)
    (h : Tools.sendStep w d env.colleagues act = some (w', p)) :
    ∃ t, step env s (.sendStep task act) = some t ∧ t.world = w' ∧ t.attempts = s.attempts ∧
      (∀ e ∈ t.sends, e.id = task ∨ e ∈ s.sends) ∧
      ∀ pc, p = .running pc → t.sends.find? task = some { d with pc } := by
  subst hworld
  obtain rfl : d.id = task := Table.key_of_find? hd
  have hstep : step env s (.sendStep d.id act) = some { s with
      world := w'
      sends := Tools.settleSend d s.sends p
      minted := s.minted ++ sendMint w' d act } := by
    simp only [step, hd, h, Option.bind_eq_bind, Option.bind_some]
  refine ⟨_, hstep, rfl, rfl, fun e he => mem_settleSend he, fun pc hpc => ?_⟩
  subst hpc
  exact Table.find?_put_self _ _

theorem Flooded.deliverable {n : Nat} (h : Flooded s n) (hn : n < Runtime.MAX_DAG_TURNS) :
    Tools.Deliverable Sample.deployment.colleagues s.world (Sample.ping n) (Sample.pingId n)
      (Sample.pingId n) where
  begun := rfl
  thread := h.thread
  unposted := find?_of_bounded h.messages (pingId_toNat hn.le).ge
  sender := rfl
  receiver := ⟨6, rfl⟩
  budget := by
    obtain ⟨dag, hdag, hused, hcap⟩ := h.budget
    exact ⟨dag, hdag, by rw [hused, hcap]; exact hn⟩
  unseen r hr e := by
    obtain hsize | ⟨j, hj, htag⟩ := h.keys r hr
    · rw [e, Tools.utf8ByteSize_tag] at hsize
      cases hsize
    · have hid := congrArg BitVec.toNat (Tools.tag_injective (e.symm.trans htag))
      rw [pingId_toNat hn.le, pingId_toNat (hj.trans hn).le] at hid
      omega
  fresh := find?_of_bounded h.requests (pingId_toNat hn.le).ge

theorem Flooded.ping {n : Nat} (h : Flooded s n) (hn : n < Runtime.MAX_DAG_TURNS) :
    ∃ t, run (step Sample.deployment) s (Sample.pingActs n) = some t ∧ Flooded t (n + 1) := by
  obtain ⟨w₁, w₂, w₃, w₄, state, result, trig, row, hpost, hparticipate, hjoin, hbump, henqueue, hthreads,
    hmessages, hrequests, hdags, hroot, hkey, hrow⟩ := (h.deliverable hn).delivers 10 6
  have hid := pingId_toNat hn.le
  have hfresh : s.sends.find? (Sample.pingId n) = none := find?_of_bounded h.sends hid.ge
  obtain ⟨sends, hinsert⟩ := Option.isSome_iff_exists.mp
    (Table.insert?_isSome.mpr (show s.sends.find? (key (Sample.ping n)) = none from hfresh))
  have hfind : sends.find? (Sample.pingId n) = some (Sample.ping n) := by
    rw [Table.find?_insert? hinsert]
    exact if_pos rfl
  have hsend : step Sample.deployment s (.send (Sample.pingId n) Sample.turn 2 6 7
      ⟨"ping", by decide, by decide⟩) = some { s with sends } := by
    have hstart : Tools.startSend (Sample.pingId n) Sample.turn 2 6 7
        ⟨"ping", by decide, by decide⟩ = .ok (Sample.ping n) := rfl
    simp only [step, hstart, hinsert, Option.map_some]
  obtain ⟨s₁, h₁, hworld₁, hattempts₁, hsends₁, hfind₁⟩ :=
    @sendStep_moves Sample.deployment { s with sends } _ _ _ _ _ _ rfl hfind hpost
  obtain ⟨s₂, h₂, hworld₂, hattempts₂, hsends₂, hfind₂⟩ :=
    @sendStep_moves Sample.deployment s₁ _ _ _ _ _ _ hworld₁ (hfind₁ _ rfl) hparticipate
  obtain ⟨s₃, h₃, hworld₃, hattempts₃, hsends₃, hfind₃⟩ :=
    @sendStep_moves Sample.deployment s₂ _ _ _ _ _ _ hworld₂ (hfind₂ _ rfl) hjoin
  obtain ⟨s₄, h₄, hworld₄, hattempts₄, hsends₄, hfind₄⟩ :=
    @sendStep_moves Sample.deployment s₃ _ _ _ _ _ _ hworld₃ (hfind₃ _ rfl) hbump
  obtain ⟨t, h₅, hworld₅, hattempts₅, hsends₅, -⟩ :=
    @sendStep_moves Sample.deployment s₄ _ _ _ _ _ _ hworld₄ (hfind₄ _ rfl) henqueue
  refine ⟨t, ?_, ?_⟩
  · simp only [Sample.pingActs, run_cons, run_nil, hsend, h₁, h₂, h₃, h₄, h₅, Option.bind_some]
  have hrows : t.world.queue.promptRequests.rows = s.world.queue.promptRequests.rows ++ [row] := by
    rw [hworld₅, Table.rows_insert? hrow.inserted, hrequests]
  have hrowRoot : row.rootRequestId = 8 := by
    rw [hrow.root, hroot]
    rfl
  exact {
    thread := by
      rw [hworld₅, hthreads]
      exact h.thread
    messages := fun m hm => by
      rw [hworld₅] at hm
      rcases hmessages m hm with e | hm
      · rw [e, hid]
        exact Nat.lt_succ_self _
      · exact Nat.lt_succ_of_lt (h.messages m hm)
    requests := fun r hr => by
      rw [Table.mem_def, hrows, List.mem_append, List.mem_singleton] at hr
      rcases hr with hr | rfl
      · exact Nat.lt_succ_of_lt (h.requests r hr)
      · rw [hrow.rowId, hid]
        exact Nat.lt_succ_self _
    keys := fun r hr => by
      rw [Table.mem_def, hrows, List.mem_append, List.mem_singleton] at hr
      rcases hr with hr | rfl
      · refine (h.keys r hr).imp_right ?_
        rintro ⟨j, hj, htag⟩
        exact ⟨j, Nat.lt_succ_of_lt hj, htag⟩
      · exact .inr ⟨n, Nat.lt_succ_self n, by rw [hrow.key]; exact hkey⟩
    budget := by
      obtain ⟨dag, hdag, hused, hcap⟩ := h.budget
      have hdags' := hrow.dags
      rw [hroot, Option.isSome_some, if_pos rfl, hdags] at hdags'
      refine ⟨{ dag with turnsUsed := dag.turnsUsed + 1 }, ?_, by rw [hused], hcap⟩
      rw [St.budget, hworld₅, hdags', Runtime.find?_bumpDags]
      rw [St.budget] at hdag
      rw [show s.world.queue.promptRequestDags.find? 8 = some dag from hdag, Option.map_some]
      exact congrArg some (Runtime.bumpTurns_left (Table.key_of_find? hdag) (by rw [hused, hcap]; exact hn))
    inherited := by
      have hne : row.id ≠ 8 := fun e => by
        have hnat := congrArg BitVec.toNat (hrow.rowId.symm.trans e)
        rw [hid] at hnat
        simp at hnat
        omega
      rw [inherited_append hrows hrowRoot hne, h.inherited]
    sends := fun d hd => by
      have hmem : d.id = Sample.pingId n ∨ d ∈ s.sends := by
        rcases (hsends₅ d hd).imp_right (hsends₄ d) with e | e | hd
        · exact .inl e
        · exact .inl e
        · rcases ((hsends₃ d hd).imp_right (hsends₂ d)).imp_right (Or.imp_right (hsends₁ d)) with
            e | e | e | hd
          · exact .inl e
          · exact .inl e
          · exact .inl e
          · exact ((Table.mem_insert? hinsert).mp hd).symm.imp_left (congrArg Send.id)
      rcases hmem with e | hd
      · rw [e, hid]
        exact Nat.lt_succ_self _
      · exact Nat.lt_succ_of_lt (h.sends d hd)
    waiting := by
      rw [hattempts₅, hattempts₄, hattempts₃, hattempts₂, hattempts₁]
      exact h.waiting }

theorem resumeStep_moves {task : Uuid} {b : Attempt} {act : ResumeAct} {w w' : World} {p : Progress}
    (hworld : s.world = w) (hb : s.attempts.find? task = some b)
    (h : resumeStep w b env.colleagues act = some (w', p)) :
    ∃ t, step env s (.resumeStep task act) = some t ∧ t.world = w' ∧
      ∀ pc, p = .running pc → t.attempts.find? task = some { b with pc } := by
  subst hworld
  obtain rfl : b.id = task := Table.key_of_find? hb
  have hstep : step env s (.resumeStep b.id act) = some { s with
      world := w'
      attempts := settleAttempt b s.attempts p
      minted := s.minted ++ resumeMint w' b act } := by
    simp only [step, hb, h, Option.bind_eq_bind, Option.bind_some]
  refine ⟨_, hstep, rfl, fun pc hpc => ?_⟩
  subst hpc
  exact find?_settleAttempt

theorem idempotencyKey_asStr {raw : String} {k : Runtime.IdempotencyKey}
    (h : Runtime.IdempotencyKey.tryFrom raw = .ok k) : k.asStr = raw := by
  unfold Runtime.IdempotencyKey.tryFrom at h
  split at h
  case isTrue => cases h
  case isFalse =>
    split at h
    case isFalse => cases h
    case isTrue =>
      cases h
      rfl

theorem Flooded.unseen {n : Nat} (h : Flooded s n) {record : PendingApproval} {k : Runtime.IdempotencyKey}
    (hk : resumeKey record = .ok k) : Runtime.findByIdempotencyKey s.world.queue record.orgId k = none := by
  have hsize : k.asStr.utf8ByteSize = 47 := by
    rw [idempotencyKey_asStr hk, String.utf8ByteSize_append, Uuid.utf8ByteSize_display]
    rfl
  refine List.find?_eq_none.mpr fun r hr hmatch => ?_
  have hmatch : r.idempotencyKey = k := by simpa using And.right (by simpa using hmatch)
  obtain hshort | ⟨j, -, htag⟩ := h.keys r hr
  · rw [hmatch, hsize] at hshort
    cases hshort
  · rw [hmatch] at htag
    rw [htag, Tools.utf8ByteSize_tag] at hsize
    cases hsize

theorem Flooded.overdrawn (h : Flooded s Runtime.MAX_DAG_TURNS) :
    ∃ t, run (step Sample.deployment) s Sample.resumed = some t ∧
      (t.inherited 8).length = Runtime.MAX_DAG_TURNS + 1 ∧ t.turnsCap 8 = Runtime.MAX_DAG_TURNS := by
  obtain ⟨a, state, note, ha, hpc, horg, hagent, hroot⟩ := h.waiting
  obtain ⟨dag, hdag, hused, hcap⟩ := h.budget
  have hspent : ¬dag.turnsUsed < dag.turnsCap := by rw [hused, hcap]; exact Nat.lt_irrefl _
  have hrefused : stepBump s.world a false = (s.world, false) := by
    simp only [stepBump, Bool.false_eq_true, if_false, Runtime.bumpOrFail, hroot]
    rw [show s.world.queue.promptRequestDags.find? 8 = some dag from hdag]
    simp only [hspent, if_false]
  have hbump : resumeStep s.world a Sample.deployment.colleagues (.bump false) =
      some (s.world, .running (.bumped state note false)) := by
    simp only [resumeStep, hpc, hrefused]
  obtain ⟨s₁, h₁, hworld₁, hfind₁⟩ := @resumeStep_moves Sample.deployment s _ _ _ _ _ _ rfl ha hbump
  obtain ⟨k, hk⟩ := resumeKey_ok a.record
  have hfresh : s.world.queue.promptRequests.find? 5000 = none := find?_of_bounded h.requests (by decide)
  obtain ⟨queue, row, hqueue, hrow⟩ := @Runtime.enqueueTrigger_fresh Sample.deployment.colleagues 5000 7
    (a.trigger state note k) s.world.queue 4 (by rw [Attempt.trigger, horg, hagent]; rfl) (h.unseen hk)
    hfresh (by simp [Attempt.trigger]) rfl
  have henqueue : resumeStep s.world { a with pc := .bumped state note false }
      Sample.deployment.colleagues (.enqueue 5000 7) =
      some ({ s.world with queue }, .returned (.ok 5000)) := by
    have hstep : stepEnqueue s.world { a with pc := .bumped state note false }
        Sample.deployment.colleagues state note 5000 7 = ({ s.world with queue }, .ok 5000) := by
      simp only [stepEnqueue, hk]
      rw [show Attempt.trigger { a with pc := .bumped state note false } state note k =
        a.trigger state note k from rfl, hqueue]
    simp only [resumeStep, hfresh, Option.isSome_none, Bool.false_eq_true, if_false, hstep]
  obtain ⟨t, h₂, hworld₂, -⟩ :=
    @resumeStep_moves Sample.deployment s₁ _ _ _ _ _ _ hworld₁ (hfind₁ _ rfl) henqueue
  have hdags := hrow.dags
  rw [Attempt.trigger, Option.isSome_some, if_pos rfl] at hdags
  refine ⟨t, by simp only [Sample.resumed, run_cons, run_nil, h₁, h₂, Option.bind_some], ?_, ?_⟩
  · have hrows : t.world.queue.promptRequests.rows = s.world.queue.promptRequests.rows ++ [row] := by
      rw [hworld₂]
      exact Table.rows_insert? hrow.inserted
    rw [inherited_append hrows (hrow.root.trans hroot) (by rw [hrow.rowId]; decide), h.inherited]
  · rw [St.turnsCap, St.budget, hworld₂, hdags, show s.world.queue.promptRequestDags.find? 8 = some dag
      from hdag]
    exact hcap

theorem flooded {n : Nat} (hn : n ≤ Runtime.MAX_DAG_TURNS) : ∃ s,
    run (step Sample.deployment) .init (Sample.approved ++ (List.range n).flatMap Sample.pingActs) = some s ∧
      Flooded s n := by
  induction n with
  | zero => exact flooded_approved
  | succ n ih =>
    obtain ⟨s, hs, hflooded⟩ := ih (Nat.le_of_succ_le hn)
    obtain ⟨t, ht, hflooded'⟩ := hflooded.ping hn
    refine ⟨t, ?_, hflooded'⟩
    rw [List.range_succ, List.flatMap_append, ← List.append_assoc, run_append, hs, Option.bind_some]
    simpa using ht

/-- A budget spent on messages does not hold back the trigger of a decision. -/
theorem inherited_exceeds_cap : ∃ s,
    run (step Sample.deployment) .init (Sample.approved ++
        (List.range Runtime.MAX_DAG_TURNS).flatMap Sample.pingActs ++ Sample.resumed) = some s ∧
      s.turnsCap 8 < (s.inherited 8).length := by
  obtain ⟨s, hs, hflooded⟩ := flooded (Nat.le_refl Runtime.MAX_DAG_TURNS)
  obtain ⟨t, ht, hinherited, hcap⟩ := hflooded.overdrawn
  refine ⟨t, ?_, by rw [hinherited, hcap]; exact Nat.lt_succ_self _⟩
  rw [run_append, hs, Option.bind_some, ht]

end Patom.Approvals
