import Patom.Http.Sight

/-! Submits of one prompt, in any number and any interleaving of their transactions, beside other
writers.  Each may stop after any of them. -/

open Patom.Foundation
open Patom.Runtime (Enqueued IdempotencyKey NewTrigger PromptRequest PromptRequestId enqueueTrigger
  enqueueTrigger_cases findByIdempotencyKey findByIdempotencyKey_isSome)
open Patom.Threads

namespace Patom.Http

abbrev CallId := Nat

inductive SubmitPc
  | reading (p : Prepared)
  | placed (p : Prepared) (thread : ThreadId)
  | posted (p : Prepared) (thread : ThreadId) (message : ThreadMessageId)
      (requests : List PromptRequestId) (agent : AgentId) (rest : List AgentId)
  | joined (p : Prepared) (thread : ThreadId) (message : ThreadMessageId)
      (requests : List PromptRequestId) (agent : AgentId) (rest : List AgentId)
      (state : AgentThreadId)
  | done (outcome : SubmitOutcome)

structure Call where
  id : CallId
  pc : SubmitPc

instance callKeyed : Keyed Call CallId := ⟨(·.id)⟩

/-- `triggers` records what the submits have enqueued, agent by agent. -/
structure Prompting where
  db : PromptDb
  calls : Table Call
  triggers : List (AgentId × PromptRequestId)

def Prompting.start (db : PromptDb) : Prompting := ⟨db, .empty, []⟩

inductive SubmitAct
  | begin (c : CallId) (admits : Bool)
  | resolve (c : CallId) (thread : ThreadId) (now : Time)
  | append (c : CallId) (message : ThreadMessageId) (now : Time)
  | participate (c : CallId) (state : AgentThreadId) (now : Time)
  | enqueue (c : CallId) (request : PromptRequestId) (now : Time)
  | fail (c : CallId)
  | post (message : ThreadMessageId) (now : Time) (writer : Caller) (thread : ThreadId)
      (new : NewThreadMessage)
  | trigger (request : PromptRequestId) (now : Time) (trig : NewTrigger)

def Prompting.goto (s : Prompting) (c : CallId) (pc : SubmitPc) : Prompting :=
  { s with calls := s.calls.put ⟨c, pc⟩ }

def Prompting.fail (s : Prompting) (c : CallId) : Prompting :=
  { s with calls := s.calls.delete fun call => call.id = c }

def wake (p : Prepared) (thread : ThreadId) (message : ThreadMessageId)
    (requests : List PromptRequestId) : List AgentId → SubmitPc
  | agent :: rest => .posted p thread message requests agent rest
  | [] =>
    .done ⟨requests.head?, thread, if p.agentTags = [] then none else some .pending, p.agentTags,
      p.existing.isSome⟩

def SubmitPc.place? : SubmitPc → Option ThreadId
  | .placed _ thread => some thread
  | _ => none

def SubmitPc.isDone : SubmitPc → Bool
  | .done _ => true
  | _ => false

section Step

variable (params : SubmitPromptParams)

def submitStep : Step Prompting SubmitAct
  | s, .begin c admits =>
    if (s.calls.find? c).isSome then none
    else
      match prepare s.db params admits with
      | .error _ => some s
      | .ok p =>
        match p.existing with
        | none => some (s.goto c (.reading p))
        | some (thread, message) => some (s.goto c (wake p thread message [] p.agentTags))
  | s, .resolve c thread now => (s.calls.find? c).bind fun call =>
    match call.pc with
    | .reading p =>
      match resolveThread thread now s.db params p.sender with
      | .error _ => some (s.fail c)
      | .ok (db, thread) => some { s.goto c (.placed p thread) with db }
    | _ => none
  | s, .append c message now => (s.calls.find? c).bind fun call =>
    match call.pc with
    | .placed p thread =>
      match append message now s.db params.caller thread (post params p) with
      | (db, .error _) => some { s.fail c with db }
      | (db, .ok message) => some { s.goto c (wake p thread message [] p.agentTags) with db }
    | _ => none
  | s, .participate c state now => (s.calls.find? c).bind fun call =>
    match call.pc with
    | .posted p thread message requests agent rest =>
      match participate state now s.db params.caller thread agent with
      | .error _ => some (s.fail c)
      | .ok (db, state) =>
        some { s.goto c (.joined p thread message requests agent rest state) with db }
    | _ => none
  | s, .enqueue c request now => (s.calls.find? c).bind fun call =>
    match call.pc with
    | .joined p thread message requests agent rest state =>
      match enqueueTag request now s.db params p.sender thread message agent state with
      | .error _ => some (s.fail c)
      | .ok (db, id) =>
        let inserted := (s.db.queue.promptRequests.find? id).isNone
        some { s.goto c (wake p thread message (requests ++ [id]) rest) with
          db
          triggers := if inserted then s.triggers ++ [(agent, id)] else s.triggers }
    | _ => none
  | s, .fail c => (s.calls.find? c).bind fun call =>
    if call.pc.isDone then none else some (s.fail c)
  | s, .post message now writer thread new =>
    some { s with db := (append message now s.db writer thread new).1 }
  | s, .trigger request now trig =>
    match enqueueTrigger (roster s.db.chat) request now trig s.db.queue with
    | .error _ => none
    | .ok (queue, _) => some { s with db := { s.db with queue } }

/-- Every trigger is in the thread of its message, every agent has one at most, and all the answers
name one thread. -/
structure Converges (s : Prompting) : Prop where
  home : ∀ t ∈ s.triggers, ∃ r ∈ s.db.queue.promptRequests, r.id = t.2 ∧
    ∃ m ∈ s.db.chat.threadMessages, r.triggerMessageId = some m.id ∧ r.threadId = some m.threadId
  once : (s.triggers.map Prod.fst).Nodup
  agree : ∀ c ∈ s.calls, ∀ c' ∈ s.calls, ∀ o o', c.pc = .done o → c'.pc = .done o' →
    o.threadId = o'.threadId

def KeyAt (chat : ChatDb) (thread : ThreadId) : Prop :=
  ∀ m ∈ chat.threadMessages, m.orgId = params.orgId →
    m.idempotencyKey = some params.idempotencyKey → m.threadId = thread

instance keyAtDecidable (chat : ChatDb) (thread : ThreadId) :
    Decidable (KeyAt params chat thread) :=
  inferInstanceAs (Decidable (∀ m ∈ chat.threadMessages, m.orgId = params.orgId →
    m.idempotencyKey = some params.idempotencyKey → m.threadId = thread))

/-- A submit that posts after another finds the row of the other in its own thread. -/
def LosesAtHome (s : Prompting) : SubmitAct → Prop
  | .append c _ _ =>
    ∀ call ∈ s.calls.find? c, ∀ thread ∈ call.pc.place?, KeyAt params s.db.chat thread
  | _ => True

instance losesAtHomeDecidable (s : Prompting) : (a : SubmitAct) → Decidable (LosesAtHome params s a)
  | .append c _ _ =>
    have (call : Call) : Decidable (∀ thread ∈ call.pc.place?, KeyAt params s.db.chat thread) :=
      Option.decidableForallMem call.pc.place?
    Option.decidableForallMem (s.calls.find? c)
  | .begin .. | .resolve .. | .participate .. | .enqueue .. | .fail _ | .post .. | .trigger .. =>
    .isTrue trivial

end Step

section Laws

variable {params : SubmitPromptParams} {db db' : PromptDb}

def IsPost (params : SubmitPromptParams) (chat : ChatDb) (thread : ThreadId)
    (m : ThreadMessageRow) : Prop :=
  m ∈ chat.threadMessages ∧ m.threadId = thread ∧ m.orgId = params.orgId ∧
    m.idempotencyKey = some params.idempotencyKey

def CallOk (params : SubmitPromptParams) (chat : ChatDb) : SubmitPc → Prop
  | .reading _ => True
  | .placed _ thread => ∃ t ∈ chat.threads, t.id = thread ∧ t.orgId = params.orgId
  | .posted _ thread message _ _ _ | .joined _ thread message _ _ _ _ =>
    ∃ m, IsPost params chat thread m ∧ m.id = message
  | .done outcome => ∃ m, IsPost params chat outcome.threadId m

structure TriggerRow (params : SubmitPromptParams) (db : PromptDb) (t : AgentId × PromptRequestId)
    (r : PromptRequest) : Prop where
  mem : r ∈ db.queue.promptRequests
  id : r.id = t.2
  org : r.orgId = params.orgId
  key : perAgentKey params.idempotencyKey t.1 = .ok r.idempotencyKey
  home : ∃ m ∈ db.chat.threadMessages, r.triggerMessageId = some m.id ∧
    r.threadId = some m.threadId

structure RetryInv (params : SubmitPromptParams) (s : Prompting) : Prop where
  calls : ∀ c ∈ s.calls, CallOk params s.db.chat c.pc
  triggers : ∀ t ∈ s.triggers, ∃ r, TriggerRow params s.db t r
  once : (s.triggers.map Prod.fst).Nodup

structure Grows (db db' : PromptDb) : Prop where
  threads : ∀ t ∈ db.chat.threads, t ∈ db'.chat.threads
  messages : ∀ m ∈ db.chat.threadMessages, m ∈ db'.chat.threadMessages
  requests : ∀ r ∈ db.queue.promptRequests, r ∈ db'.queue.promptRequests

theorem Grows.refl (db : PromptDb) : Grows db db := ⟨fun _ h => h, fun _ h => h, fun _ h => h⟩

theorem IsPost.mono {thread : ThreadId} {m : ThreadMessageRow} (h : IsPost params db.chat thread m)
    (hgrows : Grows db db') : IsPost params db'.chat thread m :=
  ⟨hgrows.messages m h.1, h.2⟩

theorem CallOk.mono {pc : SubmitPc} (h : CallOk params db.chat pc) (hgrows : Grows db db') :
    CallOk params db'.chat pc := by
  cases pc with
  | reading p => trivial
  | placed p thread =>
    obtain ⟨t, ht, hrest⟩ := h
    exact ⟨t, hgrows.threads t ht, hrest⟩
  | posted p thread message requests agent rest =>
    obtain ⟨m, hm, hid⟩ := h
    exact ⟨m, hm.mono hgrows, hid⟩
  | joined p thread message requests agent rest state =>
    obtain ⟨m, hm, hid⟩ := h
    exact ⟨m, hm.mono hgrows, hid⟩
  | done outcome =>
    obtain ⟨m, hm⟩ := h
    exact ⟨m, hm.mono hgrows⟩

theorem TriggerRow.mono {t : AgentId × PromptRequestId} {r : PromptRequest}
    (h : TriggerRow params db t r) (hgrows : Grows db db') : TriggerRow params db' t r where
  mem := hgrows.requests r h.mem
  id := h.id
  org := h.org
  key := h.key
  home := by
    obtain ⟨m, hm, hrest⟩ := h.home
    exact ⟨m, hgrows.messages m hm, hrest⟩

theorem grows_of_added {row : ThreadRow} (hadded : ChatDb.ThreadAdded db.chat db'.chat row)
    (hqueue : db'.queue = db.queue) : Grows db db' where
  threads t ht := (Table.mem_insert? hadded.threads).mpr (.inl ht)
  messages m hm := by
    rw [hadded.rest.2.2.2.2]
    exact hm
  requests r hr := by
    rw [hqueue]
    exact hr

theorem grows_append (id : ThreadMessageId) (now : Time) (caller : Caller) (thread : ThreadId)
    (new : NewThreadMessage) : Grows db (append id now db caller thread new).1 := by
  refine ⟨fun t ht => ?_, fun m hm => append_kept id now thread new hm, fun r hr => ?_⟩
  · rw [(append_frame id now thread new).1.threads]
    exact ht
  · rw [(append_frame id now thread new).2]
    exact hr

theorem grows_enqueued {id : PromptRequestId} {now : Time} {trig : NewTrigger} {row : PromptRequest}
    (hchat : db'.chat = db.chat) (hrow : Enqueued id now trig db.queue db'.queue row) :
    Grows db db' := by
  refine ⟨fun t ht => ?_, fun m hm => ?_,
    fun r hr => (Table.mem_insert? hrow.inserted).mpr (.inl hr)⟩
  · rw [hchat]
    exact ht
  · rw [hchat]
    exact hm

theorem grows_of_eq (hchat : db'.chat = db.chat) (hqueue : db'.queue = db.queue) :
    Grows db db' := by
  constructor
  · rw [hchat]
    exact fun _ h => h
  · rw [hchat]
    exact fun _ h => h
  · rw [hqueue]
    exact fun _ h => h

theorem visibleTo_thread {chat : ChatDb} {caller : Caller} {thread : ThreadId}
    (h : visibleTo chat caller thread) :
    ∃ t ∈ chat.threads, t.id = thread ∧ t.orgId = caller.orgId := by
  simp only [visibleTo, List.any_eq_true, mem_scan, Bool.and_eq_true, decide_eq_true_eq] at h
  obtain ⟨t, ⟨ht, -⟩, ⟨hid, horg⟩, -⟩ := h
  exact ⟨t, ht, hid, horg⟩

theorem resolveThread_ok {id thread : ThreadId} {now : Time} {sender : ColleagueId}
    (h : resolveThread id now db params sender = .ok (db', thread)) :
    Grows db db' ∧ ∃ t ∈ db'.chat.threads, t.id = thread ∧ t.orgId = params.orgId := by
  have hcreate (place : Place)
      (h : createThread id now db params.caller place sender = .ok (db', thread)) :
      Grows db db' ∧ ∃ t ∈ db'.chat.threads, t.id = thread ∧ t.orgId = params.orgId := by
    obtain ⟨rfl, hqueue, -, hadded⟩ := createThread_ok h
    exact ⟨grows_of_added hadded hqueue, _, (Table.mem_insert? hadded.threads).mpr (.inr rfl),
      by cases place <;> rfl, by cases place <;> rfl⟩
  unfold resolveThread at h
  split at h
  case h_1 =>
    split at h
    case isFalse => cases h
    case isTrue hvisible =>
      cases h
      exact ⟨.refl db, visibleTo_thread hvisible⟩
  case h_2 =>
    split at h
    case h_1 =>
      split at h
      case isFalse => cases h
      case isTrue => exact hcreate _ h
    case h_2 =>
      split at h
      case h_1 => cases h
      case h_2 =>
        simp only [bind, Except.bind] at h
        split at h
        case h_1 => cases h
        case h_2 => exact hcreate _ h

theorem enqueueTag_row {id request : PromptRequestId} {now : Time} {sender : ColleagueId}
    {thread : ThreadId} {message : ThreadMessageId} {agent : AgentId} {state : AgentThreadId}
    (h : enqueueTag id now db params sender thread message agent state = .ok (db', request))
    (hpost : ∃ m, IsPost params db.chat thread m ∧ m.id = message) :
    Grows db db' ∧
      ((db.queue.promptRequests.find? request).isSome ∨
        (db.queue.promptRequests.find? request).isNone ∧
          (∃ r, TriggerRow params db' (agent, request) r) ∧
          ∀ t r, TriggerRow params db t r → t.1 ≠ agent) := by
  obtain ⟨hchat, k, hk, ⟨hqueue, existing, hexisting, rfl⟩ | ⟨rfl, row, hrow⟩⟩ := enqueueTag_ok h
  · have hmem : existing ∈ db.queue.promptRequests := List.mem_of_find?_eq_some hexisting
    refine ⟨grows_of_eq hchat hqueue, .inl ?_⟩
    rw [show db.queue.promptRequests.find? existing.id = some existing from Table.find?_of_mem hmem]
    rfl
  · refine ⟨grows_enqueued hchat hrow, .inr ⟨?_, ⟨row, ?_⟩, fun t r hr e => ?_⟩⟩
    · have hfresh := Table.insert?_isSome.mp (by rw [hrow.inserted]; rfl)
      rw [← hrow.rowId]
      exact Option.isNone_iff_eq_none.mpr hfresh
    · obtain ⟨m, hm, rfl⟩ := hpost
      refine ⟨(Table.mem_insert? hrow.inserted).mpr (.inr rfl), hrow.rowId, hrow.org,
        hrow.key ▸ hk, m, ?_, hrow.trigger.2.2, ?_⟩
      · rw [hchat]
        exact hm.1
      · rw [hm.2.1]
        exact hrow.trigger.1
    · subst e
      have hkey := Except.ok.inj (hk.symm.trans hr.key)
      have hseen := findByIdempotencyKey_isSome.mpr ⟨r, hr.mem, hr.org, hkey.symm⟩
      rw [show findByIdempotencyKey db.queue params.orgId k = none from hrow.unseen] at hseen
      cases hseen

theorem wake_ok {chat : ChatDb} {p : Prepared} {thread : ThreadId} {message : ThreadMessageId}
    (requests : List PromptRequestId) (agents : List AgentId)
    (h : ∃ m, IsPost params chat thread m ∧ m.id = message) :
    CallOk params chat (wake p thread message requests agents) := by
  cases agents with
  | nil =>
    obtain ⟨m, hm, -⟩ := h
    exact ⟨m, hm⟩
  | cons agent rest => exact h

end Laws

section Steps

variable {params : SubmitPromptParams} {s s' : Prompting}

theorem RetryInv.start (db : PromptDb) : RetryInv params (.start db) where
  calls c hc := absurd hc (Table.not_mem_empty c)
  triggers _ ht := absurd ht List.not_mem_nil
  once := List.nodup_nil

theorem RetryInv.call {c : CallId} {call : Call} (h : RetryInv params s)
    (hc : s.calls.find? c = some call) : CallOk params s.db.chat call.pc :=
  h.calls call (Table.mem_of_find? hc)

theorem RetryInv.grow {db : PromptDb} (h : RetryInv params s) (hgrows : Grows s.db db) :
    RetryInv params { s with db } where
  calls c hc := (h.calls c hc).mono hgrows
  triggers t ht := by
    obtain ⟨r, hr⟩ := h.triggers t ht
    exact ⟨r, hr.mono hgrows⟩
  once := h.once

theorem RetryInv.goto {c : CallId} {pc : SubmitPc} (h : RetryInv params s)
    (hpc : CallOk params s.db.chat pc) : RetryInv params (s.goto c pc) where
  calls call hcall := by
    obtain rfl | ⟨hcall, -⟩ := Table.mem_put.mp hcall
    · exact hpc
    · exact h.calls call hcall
  triggers := h.triggers
  once := h.once

theorem RetryInv.fail {c : CallId} (h : RetryInv params s) : RetryInv params (s.fail c) where
  calls call hcall := h.calls call (Table.mem_delete.mp hcall).1
  triggers := h.triggers
  once := h.once

theorem RetryInv.log {t : AgentId × PromptRequestId} (h : RetryInv params s)
    (hrow : ∃ r, TriggerRow params s.db t r) (hnew : ∀ u ∈ s.triggers, u.1 ≠ t.1) :
    RetryInv params { s with triggers := s.triggers ++ [t] } where
  calls := h.calls
  triggers u hu := by
    obtain hu | hu := List.mem_append.mp hu
    · exact h.triggers u hu
    · rw [List.mem_singleton.mp hu]
      exact hrow
  once := by
    rw [List.map_append, List.map_singleton, List.nodup_append]
    refine ⟨h.once, List.nodup_singleton _, ?_⟩
    rintro _ ha _ hb rfl
    obtain ⟨u, hu, e⟩ := List.mem_map.mp ha
    exact hnew u hu (e.trans (List.mem_singleton.mp hb))

theorem append_home {id message : ThreadMessageId} {now : Time} {thread : ThreadId} {p : Prepared}
    {db db' : PromptDb} (hplace : ∃ t ∈ db.chat.threads, t.id = thread ∧ t.orgId = params.orgId)
    (hhome : KeyAt params db.chat thread)
    (h : append id now db params.caller thread (post params p) = (db', .ok message)) :
    ∃ m, IsPost params db'.chat thread m ∧ m.id = message := by
  obtain ⟨hkept, ⟨t, ht, hid, m, hm, hmid, hthread, horg, hkey⟩ | ⟨m, hm, hmid, horg, hkey⟩⟩ :=
    append_ok rfl h
  · obtain ⟨t', ht', hid', horg'⟩ := hplace
    obtain rfl := Table.eq_of_key_eq ht ht' (hid.trans hid'.symm)
    exact ⟨m, ⟨hm, hthread, horg.trans horg', hkey⟩, hmid⟩
  · exact ⟨m, ⟨hkept m hm, hhome m hm horg hkey, horg, hkey⟩, hmid⟩

theorem RetryInv.begin {c : CallId} {admits : Bool} (h : RetryInv params s)
    (hstep : submitStep params s (.begin c admits) = some s') : RetryInv params s' := by
  simp only [submitStep] at hstep
  split at hstep
  case isTrue => cases hstep
  case isFalse =>
    split at hstep
    case h_1 =>
      cases hstep
      exact h
    case h_2 p hprepare =>
      split at hstep
      case h_1 =>
        cases hstep
        exact h.goto trivial
      case h_2 thread message hexisting =>
        cases hstep
        obtain ⟨m, hm, hid, hthread, horg, hkey, -⟩ :=
          findExistingPost_some ((prepare_ok hprepare).1.symm.trans hexisting)
        exact h.goto (wake_ok [] p.agentTags ⟨m, ⟨hm, hthread, horg, hkey⟩, hid⟩)

theorem RetryInv.resolve {c : CallId} {thread : ThreadId} {now : Time} (h : RetryInv params s)
    (hstep : submitStep params s (.resolve c thread now) = some s') : RetryInv params s' := by
  obtain ⟨call, hc, hstep⟩ := Option.bind_eq_some_iff.mp hstep
  split at hstep
  case h_2 => cases hstep
  case h_1 p hpc =>
    split at hstep
    case h_1 =>
      cases hstep
      exact h.fail
    case h_2 db thread hres =>
      cases hstep
      obtain ⟨hgrows, hplace⟩ := resolveThread_ok hres
      exact (h.grow hgrows).goto hplace

theorem RetryInv.append {c : CallId} {message : ThreadMessageId} {now : Time}
    (h : RetryInv params s) (hhome : LosesAtHome params s (.append c message now))
    (hstep : submitStep params s (.append c message now) = some s') : RetryInv params s' := by
  obtain ⟨call, hc, hstep⟩ := Option.bind_eq_some_iff.mp hstep
  split at hstep
  case h_2 => cases hstep
  case h_1 p thread hpc =>
    have hgrows :
        Grows s.db (Http.append message now s.db params.caller thread (post params p)).1 :=
      grows_append message now params.caller thread (post params p)
    have hplace := h.call hc
    rw [hpc] at hplace
    split at hstep
    case h_1 db e hres =>
      cases hstep
      rw [hres] at hgrows
      exact (h.grow hgrows).fail
    case h_2 db message' hres =>
      cases hstep
      rw [hres] at hgrows
      have hwinner := hhome call hc thread (by rw [hpc]; rfl)
      exact (h.grow hgrows).goto (wake_ok [] p.agentTags (append_home hplace hwinner hres))

theorem RetryInv.participate {c : CallId} {state : AgentThreadId} {now : Time}
    (h : RetryInv params s)
    (hstep : submitStep params s (.participate c state now) = some s') : RetryInv params s' := by
  obtain ⟨call, hc, hstep⟩ := Option.bind_eq_some_iff.mp hstep
  split at hstep
  case h_2 => cases hstep
  case h_1 p thread message requests agent rest hpc =>
    have hpost := h.call hc
    rw [hpc] at hpost
    split at hstep
    case h_1 =>
      cases hstep
      exact h.fail
    case h_2 db state hres =>
      cases hstep
      obtain ⟨hchat, hqueue⟩ := participate_ok hres
      have hgrows := grows_of_eq hchat hqueue
      obtain ⟨m, hm, hid⟩ := hpost
      exact (h.grow hgrows).goto ⟨m, hm.mono hgrows, hid⟩

theorem RetryInv.enqueue {c : CallId} {request : PromptRequestId} {now : Time}
    (h : RetryInv params s)
    (hstep : submitStep params s (.enqueue c request now) = some s') : RetryInv params s' := by
  obtain ⟨call, hc, hstep⟩ := Option.bind_eq_some_iff.mp hstep
  split at hstep
  case h_2 => cases hstep
  case h_1 p thread message requests agent rest state hpc =>
    have hpost := h.call hc
    rw [hpc] at hpost
    split at hstep
    case h_1 =>
      cases hstep
      exact h.fail
    case h_2 db id hres =>
      cases hstep
      obtain ⟨hgrows, hrow⟩ := enqueueTag_row hres hpost
      have hpost' : ∃ m, IsPost params db.chat thread m ∧ m.id = message := by
        obtain ⟨m, hm, hid⟩ := hpost
        exact ⟨m, hm.mono hgrows, hid⟩
      have hwoken := (h.grow hgrows).goto (c := c)
        (wake_ok (p := p) (requests ++ [id]) rest hpost')
      obtain hseen | ⟨hfresh, hrow, hnew⟩ := hrow
      · rw [if_neg (by simp [Option.isNone_eq_false_iff.mpr hseen])]
        exact hwoken
      · rw [if_pos hfresh]
        refine hwoken.log hrow fun u hu => ?_
        obtain ⟨r, hr⟩ := h.triggers u hu
        exact hnew u r hr

theorem RetryInv.trigger {request : PromptRequestId} {now : Time} {trig : NewTrigger}
    (h : RetryInv params s)
    (hstep : submitStep params s (.trigger request now trig) = some s') : RetryInv params s' := by
  simp only [submitStep] at hstep
  split at hstep
  case h_1 => cases hstep
  case h_2 queue id hres =>
    cases hstep
    obtain ⟨-, -, hsame, -⟩ | ⟨-, row, hrow⟩ := enqueueTrigger_cases hres
    · exact h.grow (grows_of_eq rfl hsame)
    · exact h.grow (grows_enqueued rfl hrow)

theorem retryInv_step {a : SubmitAct} (h : RetryInv params s) (hhome : LosesAtHome params s a)
    (hstep : submitStep params s a = some s') : RetryInv params s' := by
  cases a with
  | begin => exact h.begin hstep
  | resolve => exact h.resolve hstep
  | append => exact h.append hhome hstep
  | participate => exact h.participate hstep
  | enqueue => exact h.enqueue hstep
  | fail =>
    obtain ⟨call, hc, hstep⟩ := Option.bind_eq_some_iff.mp hstep
    split at hstep
    case isTrue => cases hstep
    case isFalse =>
      cases hstep
      exact h.fail
  | post message now writer thread new =>
    cases hstep
    exact h.grow (grows_append message now writer thread new)
  | trigger => exact h.trigger hstep

theorem RetryInv.converges (h : RetryInv params s) : Converges s where
  home t ht := by
    obtain ⟨r, hr⟩ := h.triggers t ht
    exact ⟨r, hr.mem, hr.id, hr.home⟩
  once := h.once
  agree c hc c' hc' o o' ho ho' := by
    have hpost := h.calls c hc
    have hpost' := h.calls c' hc'
    rw [ho] at hpost
    rw [ho'] at hpost'
    obtain ⟨m, hm, hthread, horg, hkey⟩ := hpost
    obtain ⟨m', hm', hthread', horg', hkey'⟩ := hpost'
    obtain rfl := s.db.keyIdx m hm m' hm' (horg.trans horg'.symm) (by rw [hkey]; rfl)
      (hkey.trans hkey'.symm)
    exact hthread.symm.trans hthread'

/-- The submits of a prompt converge throughout every schedule in which each that posts after
another finds the row of the other in its own thread. -/
theorem converges_of_losesAtHome (params : SubmitPromptParams) (db : PromptDb) (as : List SubmitAct)
    (h : Steps (submitStep params) (LosesAtHome params) (.start db) as) :
    Always (submitStep params) Converges (.start db) as :=
  (h.always (P := RetryInv params) (fun _ => True) (fun _ _ _ _ _ _ _ => trivial)
    (fun _ _ _ _ hinv hstep hhome => retryInv_step hinv hhome hstep) trivial
    (RetryInv.start db)).mono fun _ hinv => hinv.converges

end Steps

namespace Sample

def visit : SubmitPromptParams :=
  { opening 10 with idempotencyKey := key "visit" (by decide) (by decide) }

def resent : List SubmitAct :=
  [.begin 0 true, .resolve 0 6 0, .append 0 41 0, .fail 0,
    .begin 1 true, .participate 1 50 0, .enqueue 1 60 0]

def doubled : List SubmitAct :=
  [.begin 0 true, .begin 1 true, .resolve 0 6 0, .resolve 1 7 0, .append 0 41 0, .append 1 42 0,
    .participate 1 51 0, .enqueue 1 61 0, .participate 0 50 0, .enqueue 0 60 0]

end Sample

def answered (s : Prompting) (c : CallId) : Option ThreadId :=
  (s.calls.find? c).bind fun call =>
    match call.pc with
    | .done outcome => some outcome.threadId
    | _ => none

theorem answered_some {s : Prompting} {c : CallId} {thread : ThreadId}
    (h : answered s c = some thread) :
    ∃ call ∈ s.calls, ∃ outcome, call.pc = .done outcome ∧ outcome.threadId = thread := by
  obtain ⟨call, hc, h⟩ := Option.bind_eq_some_iff.mp h
  split at h
  case h_1 outcome hpc => exact ⟨call, Table.mem_of_find? hc, outcome, hpc, Option.some.inj h⟩
  case h_2 => cases h

theorem converges_resent :
    (run (submitStep Sample.visit) (.start Sample.workspace) Sample.resent).isSome ∧
      Always (submitStep Sample.visit) Converges (.start Sample.workspace) Sample.resent :=
  ⟨by decide +kernel,
    converges_of_losesAtHome Sample.visit Sample.workspace Sample.resent (by decide +kernel)⟩

/-- The trigger is in the thread of the second submit, its message in that of the first, and the
answers name one each. -/
theorem doubled_diverges : ∃ s,
    run (submitStep Sample.visit) (.start Sample.workspace) Sample.doubled = some s ∧
    (∃ r ∈ s.db.queue.promptRequests, (30, r.id) ∈ s.triggers ∧ r.threadId = some 7 ∧
      r.triggerMessageId = some 41) ∧
    (∃ m ∈ s.db.chat.threadMessages, m.id = 41 ∧ m.threadId = 6) ∧
    answered s 0 = some 6 ∧ answered s 1 = some 7 ∧ ¬Converges s := by
  have hrun : (run (submitStep Sample.visit) (.start Sample.workspace) Sample.doubled).any fun s =>
      (∃ r ∈ s.db.queue.promptRequests, (30, r.id) ∈ s.triggers ∧ r.threadId = some 7 ∧
        r.triggerMessageId = some 41) ∧
      (∃ m ∈ s.db.chat.threadMessages, m.id = 41 ∧ m.threadId = 6) ∧
      answered s 0 = some 6 ∧ answered s 1 = some 7 := by
    decide +kernel
  obtain ⟨s, hs, hfacts⟩ := (Option.any_eq_true _ _).mp hrun
  obtain ⟨htrigger, hpost, hfirst, hsecond⟩ := of_decide_eq_true hfacts
  refine ⟨s, hs, htrigger, hpost, hfirst, hsecond, fun h => ?_⟩
  obtain ⟨c, hc, o, ho, e⟩ := answered_some hfirst
  obtain ⟨c', hc', o', ho', e'⟩ := answered_some hsecond
  have hsame := e.symm.trans ((h.agree c hc c' hc' o o' ho ho').trans e')
  exact absurd hsame (by decide)

end Patom.Http
