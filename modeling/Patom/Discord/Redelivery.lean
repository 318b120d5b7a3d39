import Patom.Discord.BridgeLaws

open Patom.Foundation
open Patom.Foundation.Attempt

namespace Patom.Discord

section Answer

variable (d : BridgeDeps) (m : InboundMessage)

def answer (shadow : ShadowColleague) (conv : Conversation) : Bridge Unit := do
  let receiver ← resolveReceiver d m
  let (thread, appended) ← mirrorIntoThread d m conv shadow receiver
  if isTrigger d m then enqueueAndAttach d m shadow thread appended

def handled (resolve : Bridge Conversation) : Bridge Unit := do
  let shadow ← exec .shadow (resolveOrMint d m.author.id)
  let conv ← resolve
  answer d m shadow conv

def resolveStaying (e : OpenFailure) : Bridge Conversation := do
  let inOwnedThread ← exec .lookup fun s => (ownedThread d m s, s)
  if asks d m inOwnedThread then
    exec .openThread fun s => ((), s)
    pure (staying m (isPermanentOpenFailure e))
  else pure (staying m inOwnedThread)

variable {d m}

theorem handleMessage_person (hself : m.author.id ≠ d.botUserId)
    (hbot : (m.author.bot || m.webhookId.isSome) = false) :
    handleMessage d m = handled d m (resolveConversation d m) := by
  rw [handleMessage, if_neg hself, hbot]
  rfl

theorem resolveReceiver_steady : Steady Fair (resolveReceiver d m) := by
  unfold resolveReceiver
  split
  · exact .bind ((Ensures.const _).steady _) fun _ => .pure _
  · exact .pure _

theorem enqueueAndAttach_steady (shadow : ShadowColleague) (thread : ThreadId)
    (message : ThreadMessageId) : Steady Fair (enqueueAndAttach d m shadow thread message) :=
  .bind ((resolveParticipation_ensures d thread).steady _) fun _ =>
    .bind ((enqueueTrigger_ensures d _ _ _ _ _ _ _).steady _) fun _ => .pure ()

theorem mirrorIntoThread_sure (conv : Conversation) (shadow : ShadowColleague)
    (receiver : Option ColleagueId) : Sure Fair (mirrorIntoThread d m conv shadow receiver) :=
  .bind (.exec _ _) fun _ => .bind (.exec _ _) fun _ => .bind (.exec _ _) fun _ =>
    .bind (openConversation_sure _ _ _) fun _ => .bind (.exec _ _) fun _ => .pure _

theorem mirrorIntoThread_steady (isThread : Bool) (shadow : ShadowColleague)
    (receiver : Option ColleagueId) :
    Steady Fair (mirrorIntoThread d m (staying m isThread) shadow receiver) :=
  .bind ((ensureChannel_ensures d _ _ _).steady _) fun _ =>
    .bind ((Ensures.const _).steady _) fun _ =>
    .bind ((addAgentToChannel_ensures _ _).steady _) fun _ =>
    .bind (openConversation_steady _ _ _) fun _ =>
    .bind ((appendMirrored_ensures d _ _ _ _ _).steady _) fun _ => .pure _

theorem answer_sure (shadow : ShadowColleague) (conv : Conversation) :
    Sure Fair (answer d m shadow conv) := by
  refine .bind resolveReceiver_steady.sure fun _ => .bind (mirrorIntoThread_sure _ _ _) fun p => ?_
  dsimp only
  split
  · exact (enqueueAndAttach_steady _ _ _).sure
  · exact .pure ()

theorem answer_steady (shadow : ShadowColleague) (isThread : Bool) :
    Steady Fair (answer d m shadow (staying m isThread)) := by
  refine .bind resolveReceiver_steady fun _ => .bind (mirrorIntoThread_steady _ _ _) fun p => ?_
  dsimp only
  split
  · exact enqueueAndAttach_steady _ _ _
  · exact .pure ()

theorem answer_keeps {I : BridgeSt → Prop}
    (hI : ∀ s t, t.bindings = s.bindings → t.opened = s.opened → I s → I t)
    (shadow : ShadowColleague) {conv : Conversation}
    (hconv : ∀ channel, Keeps I (openConversation d m conv channel shadow.colleagueId)) :
    Keeps I (answer d m shadow conv) := by
  refine .bind ?_ fun _ => .bind ?_ fun p => ?_
  · unfold resolveReceiver
    split
    · exact .bind (.exec _ fun _ h => h) fun _ => .pure _
    · exact .pure _
  · exact .bind (.exec _ fun s => hI s _ (ensureChannel_rest d _ _ _ s).1
      (ensureChannel_rest d _ _ _ s).2.1) fun _ => .bind (.exec _ fun _ h => h) fun _ =>
      .bind (.exec _ fun s => hI s _ rfl rfl) fun _ => .bind (hconv _) fun _ =>
      .bind (.exec _ fun s => hI s _ rfl rfl) fun _ => .pure _
  · dsimp only
    split
    · exact .bind (.exec _ fun s => hI s _ rfl rfl) fun _ =>
        .bind (.exec _ fun s => hI s _ rfl rfl) fun _ => .pure ()
    · exact .pure ()

theorem mirrorIntoThread_bound {s : BridgeSt} {b : DiscordThread} (hb : home d m s = some b)
    (shadow : ShadowColleague) (receiver : Option ColleagueId) (isThread : Bool) :
    mirrorIntoThread d m (staying m isThread) shadow receiver clear s =
      (do
        let channel ← exec .channel (ensureChannel d m.guild m.channelId shadow.userId)
        let agent ← resolveAgentColleague d .agent
        exec .member (addAgentToChannel channel agent)
        let thread ← pending d m b
        let appended ← exec .append
          (appendMirrored d m.guild thread shadow.colleagueId receiver m)
        pure (thread, appended) : Bridge (ThreadId × ThreadMessageId)) clear s := by
  have hb' (channel : ChannelId) : home d m (addAgentToChannel channel d.agentColleague
      (ensureChannel d m.guild m.channelId shadow.userId s).2).2 = some b := by
    simp only [home, lookupByContainer, addAgentToChannel, (ensureChannel_rest d _ _ _ s).1]
    exact hb
  unfold mirrorIntoThread resolveAgentColleague
  rw [bind_ok (exec_clear _ _ _), bind_ok (exec_clear _ _ _), bind_ok (exec_clear _ _ _),
    bind_ok (exec_clear _ _ _), bind_ok (exec_clear _ _ _), bind_ok (exec_clear _ _ _), bind_run,
    bind_run]
  dsimp only [staying]
  rw [show Conversation.mk m.channelId none isThread = staying m isThread from rfl,
    openConversation_found isThread _ _ rfl (hb' _)]

theorem answer_bound {s : BridgeSt} {b : DiscordThread} (hb : home d m s = some b)
    (shadow : ShadowColleague) (isThread isThread' : Bool) :
    answer d m shadow (staying m isThread) clear s =
      answer d m shadow (staying m isThread') clear s := by
  have hreceiver : ∃ receiver, resolveReceiver d m clear s = (.ok receiver, s) := by
    unfold resolveReceiver
    split <;> exact ⟨_, rfl⟩
  obtain ⟨receiver, hreceiver⟩ := hreceiver
  rw [answer, answer, bind_ok hreceiver, bind_ok hreceiver, bind_run, bind_run,
    mirrorIntoThread_bound hb, mirrorIntoThread_bound hb]

end Answer

section Staying

variable (d : BridgeDeps) (m : InboundMessage) (e : OpenFailure)

def stay (shadow : ShadowColleague) (inOwnedThread : Bool) : Bridge Unit :=
  if asks d m inOwnedThread then do
    exec .openThread fun s => ((), s)
    answer d m shadow (staying m (isPermanentOpenFailure e))
  else answer d m shadow (staying m inOwnedThread)

def Refused (s : BridgeSt) : Prop :=
  asks d m (ownedThread d m s) → askDiscord d m.channelId m.messageId s = (.error e, s)

variable {d m e}

theorem handled_staying : handled d m (resolveStaying d m e) = (do
    let shadow ← exec .shadow (resolveOrMint d m.author.id)
    let inOwnedThread ← exec .lookup fun s => (ownedThread d m s, s)
    stay d m e shadow inOwnedThread) := by
  unfold handled resolveStaying
  congr 1
  funext shadow
  rw [bind_assoc]
  congr 1
  funext inOwnedThread
  unfold stay
  split
  · rw [bind_assoc]
    rfl
  · rfl

theorem stay_steady (shadow : ShadowColleague) (inOwnedThread : Bool) :
    Steady Fair (stay d m e shadow inOwnedThread) := by
  unfold stay
  split
  · exact .bind ((Ensures.const _).steady _) fun _ => answer_steady shadow _
  · exact answer_steady shadow _

theorem stay_clear (shadow : ShadowColleague) (inOwnedThread : Bool) : ∃ isThread,
    stay d m e shadow inOwnedThread clear = answer d m shadow (staying m isThread) clear := by
  unfold stay
  split
  · refine ⟨isPermanentOpenFailure e, ?_⟩
    funext s
    rw [bind_ok (exec_clear _ _ _)]
  · exact ⟨_, rfl⟩

theorem ownedThread_none {s : BridgeSt} (h : home d m s = none) : ownedThread d m s = false := by
  rw [ownedThread, show lookupByContainer d m.guild m.channelId s = none from h]
  rfl

theorem ownedThread_le {s t : BridgeSt} (hst : s ≤ t) (h : ownedThread d m s) :
    ownedThread d m t := by
  obtain ⟨b, hb, hkind⟩ := Option.any_eq_true _ _ |>.mp h
  obtain ⟨b', hb', -, hkind', -⟩ := home_le hb hst
  exact (Option.any_eq_true _ _).mpr ⟨b', hb', hkind'.trans hkind⟩

theorem handled_steady : Steady Fair (handled d m (resolveStaying d m e)) := by
  rw [handled_staying]
  refine .bind ((resolveOrMint_ensures d _).steady _) fun shadow =>
    .read (stay_steady shadow) _ fun s t hst => ?_
  cases ht : home d m t with
  | some b =>
    obtain ⟨isThread, h⟩ := stay_clear (d := d) (m := m) (e := e) shadow (ownedThread d m t)
    obtain ⟨isThread', h'⟩ := stay_clear (d := d) (m := m) (e := e) shadow (ownedThread d m s)
    rw [h, h', answer_bound ht shadow isThread isThread']
  | none =>
    have hs : home d m s = none := by
      cases hs : home d m s with
      | none => rfl
      | some b =>
        obtain ⟨b', hb', -⟩ := home_le hs hst
        rw [ht] at hb'
        cases hb'
    rw [ownedThread_none ht, ownedThread_none hs]

theorem Refused.le {s t : BridgeSt} (h : Refused d m e s) (hst : s ≤ t)
    (hopened : t.opened = s.opened) : Refused d m e t := by
  intro hasks
  have hnot : ownedThread d m s = false := by
    by_contra howned
    have ht := ownedThread_le hst (by simpa using howned)
    rw [asks, ht] at hasks
    simp at hasks
  have ht : ownedThread d m t = false := by
    rw [asks, Bool.and_eq_true, Bool.not_eq_true'] at hasks
    exact hasks.2
  rw [ht, ← hnot] at hasks
  have hs := h hasks
  unfold askDiscord at hs ⊢
  rw [hopened]
  by_cases hmem : (m.channelId, m.messageId) ∈ s.opened
  · rw [if_pos hmem] at hs ⊢
    exact Prod.ext (Prod.mk.inj hs).1 rfl
  · rw [if_neg hmem] at hs ⊢
    split at hs
    · cases (Prod.mk.inj hs).1
    · exact Prod.ext (Prod.mk.inj hs).1 rfl

theorem resolveConversation_refused {w : Weather Site} (hw : Fair w) {s : BridgeSt}
    (h : Refused d m e s) : resolveConversation d m w s = resolveStaying d m e w s := by
  unfold resolveConversation resolveStaying
  cases hr : w .lookup with
  | some f =>
    obtain ⟨e', h'⟩ := read_stopped hr (ownedThread d m) s
    rw [bind_error h', bind_error h']
  | none =>
    rw [bind_ok (exec_none hr _ _), bind_ok (exec_none hr _ _)]
    split
    case isFalse => rfl
    case isTrue hasks =>
      obtain ho | ho := hw.openThread
      · have hopen : openFromMessage d m w s = (.ok (.error e), s) := by
          rw [openFromMessage, recover, exec_none ho, h hasks]
        rw [bind_ok hopen, bind_ok (exec_none ho _ _)]
        rfl
      · have hopen : openFromMessage d m w s = (.error .crashed, s) := by
          simp only [openFromMessage, recover, exec, ho]
        have hstop : exec Site.openThread (fun s : BridgeSt => ((), s)) w s =
            (.error .crashed, s) := by
          simp only [exec, ho]
        rw [bind_error hopen, bind_error hstop]

theorem handled_refused {w : Weather Site} (hw : Fair w) {s : BridgeSt} (h : Refused d m e s) :
    handled d m (resolveConversation d m) w s = handled d m (resolveStaying d m e) w s := by
  unfold handled
  cases hs : exec Site.shadow (resolveOrMint d m.author.id) w s with
  | mk r t =>
    cases r with
    | error e' => rw [bind_error hs, bind_error hs]
    | ok shadow =>
      have ht : t = (resolveOrMint d m.author.id s).2 := (exec_ok hs).2
      have href : Refused d m e t := by
        rw [ht]
        exact h.le ((resolveOrMint_ensures d m.author.id).grows s) rfl
      rw [bind_ok hs, bind_ok hs, bind_run, bind_run, resolveConversation_refused hw href]

theorem handled_keeps {c : List (ContainerId × DiscordMessageId)} :
    Keeps (fun s => s.opened = c) (handled d m (resolveStaying d m e)) := by
  have hanswer (shadow : ShadowColleague) (conv : Conversation) :
      Keeps (fun s => s.opened = c) (answer d m shadow conv) :=
    answer_keeps (fun _ _ _ h h' => h.trans h') shadow fun channel =>
      openConversation_keeps channel _ (fun _ h => h) (fun _ _ h => h) (fun _ h => h) fun _ =>
        maybeBackfill_keeps d (fun _ _ _ h h' => h.trans h') _ _ _ _ fun _ h => h
  rw [handled_staying]
  refine .bind (.exec _ fun _ h => h) fun shadow => .bind (.exec _ fun _ h => h) fun _ => ?_
  unfold stay
  split
  · exact .bind (.exec _ fun _ h => h) fun _ => hanswer _ _
  · exact hanswer _ _

theorem refused_attempts {s : BridgeSt} (href : Refused d m e s) {ws : List (Weather Site)}
    (hws : ∀ w ∈ ws, Fair w) (h : Returns (handled d m (resolveConversation d m)) s ws) :
    attempts (handled d m (resolveConversation d m)) s ws =
      (handled d m (resolveConversation d m) clear s).2 := by
  have hsteady := handled_steady (d := d) (m := m) (e := e)
  have hI : Keeps (fun t => s ≤ t ∧ t.opened = s.opened) (handled d m (resolveStaying d m e)) :=
    fun w t ht => ⟨hsteady.grows s w t ht.1, handled_keeps w t ht.2⟩
  obtain ⟨hstate, hreturns⟩ := attempts_congr (F := Fair) hI (fun w t hw ht =>
    handled_refused hw (href.le ht.1 ht.2)) ⟨le_rfl, rfl⟩ hws
  rw [hstate, hsteady.attempts_eq hws (hreturns.mp h), handled_refused fair_clear href]

end Staying

section Opening

variable {d : BridgeDeps} {m : InboundMessage}

theorem openFromMessage_sure : Sure Fair (openFromMessage d m) :=
  .recover fair_clear (.exec _ _) (.exec (fun _ hw => hw.openThread) _) _

theorem resolveConversation_sure : Sure Fair (resolveConversation d m) := by
  refine .bind (.exec _ _) fun inOwnedThread => ?_
  split
  · refine .bind openFromMessage_sure fun r => ?_
    split <;> exact .pure _
  · exact .pure _

theorem handled_sure : Sure Fair (handled d m (resolveConversation d m)) :=
  .bind (.exec _ _) fun _ => .bind resolveConversation_sure fun _ => answer_sure _ _

def withOpened (m : InboundMessage) (s : BridgeSt) : BridgeSt :=
  { s with opened := (m.channelId, m.messageId) :: s.opened }

structure Waiting (d : BridgeDeps) (m : InboundMessage) (thread : ContainerId) (s : BridgeSt) :
    Prop where
  asks : asks d m (ownedThread d m s)
  unopened : (m.channelId, m.messageId) ∉ s.opened
  opens : d.opens m.channelId m.messageId = .ok thread

theorem refused_or_waiting (d : BridgeDeps) (m : InboundMessage) (s : BridgeSt) :
    (∃ e, Refused d m e s) ∨ ∃ thread, Waiting d m thread s := by
  by_cases hmem : (m.channelId, m.messageId) ∈ s.opened
  · refine .inl ⟨d.refuses m.channelId m.messageId, fun _ => ?_⟩
    rw [askDiscord, if_pos hmem]
  · cases hopens : d.opens m.channelId m.messageId with
    | error e =>
      refine .inl ⟨e, fun _ => ?_⟩
      rw [askDiscord, if_neg hmem, hopens]
    | ok thread =>
      by_cases hasks : Discord.asks d m (ownedThread d m s)
      · exact .inr ⟨thread, hasks, hmem, hopens⟩
      · exact .inl ⟨.other, fun h => absurd h hasks⟩

theorem Waiting.shadow {thread : ContainerId} {s : BridgeSt} (h : Waiting d m thread s) :
    Waiting d m thread (resolveOrMint d m.author.id s).2 :=
  ⟨h.asks, h.unopened, h.opens⟩

theorem openConversation_aside {thread : ContainerId} (h : thread ≠ m.channelId)
    (parent : Option ContainerId) (channel : ChannelId) (creator : ColleagueId)
    (s : BridgeSt) : Keeps (fun t => t.opened = s.opened ∧ home d m t = home d m s)
      (openConversation d m ⟨thread, parent, true⟩ channel creator) := by
  have hkey : threadKey d m.guild thread ≠ threadKey d m.guild m.channelId := by
    simpa [threadKey] using h
  have hmark (t : BridgeSt) (ht : t.opened = s.opened ∧ home d m t = home d m s) :
      (markBackfilled d m.guild thread t).2.opened = s.opened ∧
        home d m (markBackfilled d m.guild thread t).2 = home d m s := by
    refine ⟨ht.1, Eq.trans ?_ ht.2⟩
    simp only [home, lookupByContainer, markBackfilled, Table.find?_modify]
    cases hb : t.bindings.find? (threadKey d m.guild m.channelId) with
    | none => rfl
    | some b =>
      have hne : key b ≠ threadKey d m.guild thread := by
        rw [Table.key_of_find? hb]
        exact hkey.symm
      simp only [completed, hne, if_false, Option.map_some]
  refine openConversation_keeps channel creator (fun t ht => ht) (fun id t ht => ⟨ht.1, ?_⟩) hmark
    fun id => maybeBackfill_keeps d (fun t u hb ho ht => ⟨ho.trans ht.1, ?_⟩) _ _ _ _ hmark
  · have hne : key (DiscordThread.mk d.app.orgId d.app.applicationId m.guild thread parent true id
        false) ≠ threadKey d m.guild m.channelId := hkey
    simp only [home, lookupByContainer, bindThread, Table.find?_addNew, hne, if_false,
      Option.or_none]
    exact ht.2
  · refine Eq.trans ?_ ht.2
    simp only [home, lookupByContainer, hb]

theorem resolveConversation_waiting {thread : ContainerId} {s : BridgeSt}
    (h : Waiting d m thread s) {w : Weather Site} (hw : Fair w) :
    (∃ e, resolveConversation d m w s = (.error e, s)) ∨
      resolveConversation d m w s = (.ok ⟨thread, some m.channelId, true⟩, withOpened m s) := by
  unfold resolveConversation
  cases hr : w .lookup with
  | some f =>
    obtain ⟨e, h'⟩ := read_stopped hr (ownedThread d m) s
    exact .inl ⟨e, bind_error h'⟩
  | none =>
    rw [bind_ok (exec_none hr _ _), if_pos h.asks]
    obtain ho | ho := hw.openThread
    · have hask : askDiscord d m.channelId m.messageId s = (.ok thread, withOpened m s) := by
        rw [askDiscord, if_neg h.unopened, h.opens, withOpened]
      have hopen : openFromMessage d m w s = (.ok (.ok thread), withOpened m s) := by
        rw [openFromMessage, recover, exec_none ho, hask]
      exact .inr (bind_ok hopen)
    · have hopen : openFromMessage d m w s = (.error .crashed, s) := by
        simp only [openFromMessage, recover, exec, ho]
      exact .inl ⟨_, bind_error hopen⟩

theorem handled_waiting {thread : ContainerId} {s : BridgeSt} (h : Waiting d m thread s)
    {w : Weather Site} (hw : Fair w) :
    (∃ e t, handled d m (resolveConversation d m) w s = (.error e, t) ∧ Waiting d m thread t ∧
      handled d m (resolveConversation d m) clear t =
        handled d m (resolveConversation d m) clear s) ∨
    ((m.channelId, m.messageId) ∈ (handled d m (resolveConversation d m) w s).2.opened ∧
      asks d m (ownedThread d m (handled d m (resolveConversation d m) w s).2)) := by
  have hsteady := (resolveOrMint_ensures d m.author.id).steady (F := Fair) Site.shadow
  have hagain := hsteady.resume w s hw
  unfold handled
  cases hs : exec Site.shadow (resolveOrMint d m.author.id) w s with
  | mk r t =>
    rw [hs] at hagain
    have ht : t = s ∨ t = (resolveOrMint d m.author.id s).2 := by
      have hstate := exec_state Site.shadow (resolveOrMint d m.author.id) w s
      rwa [hs] at hstate
    have hwait : Waiting d m thread t := by
      obtain rfl | rfl := ht
      · exact h
      · exact h.shadow
    have hclear : handled d m (resolveConversation d m) clear t =
        handled d m (resolveConversation d m) clear s := by
      rw [handled, bind_run, bind_run, hagain]
    cases r with
    | error e => exact .inl ⟨e, t, bind_error hs, hwait, hclear⟩
    | ok shadow =>
      rw [bind_ok hs]
      obtain ⟨e, hstop⟩ | hopen := resolveConversation_waiting hwait hw
      · exact .inl ⟨e, t, bind_error hstop, hwait, hclear⟩
      · rw [bind_ok hopen]
        have hne : thread ≠ m.channelId := by
          rintro rfl
          exact d.opens_new _ _ h.opens
        obtain ⟨hopened, hhome⟩ := answer_keeps (d := d) (m := m)
          (fun _ _ hb ho hI => ⟨ho.trans hI.1, by
            rw [← hI.2, home, home, lookupByContainer, lookupByContainer, hb]⟩) shadow
          (fun channel => openConversation_aside hne (some m.channelId) channel
            shadow.colleagueId (withOpened m t)) w (withOpened m t) ⟨rfl, rfl⟩
        refine .inr ⟨by rw [hopened]; exact List.mem_cons_self, ?_⟩
        have howned : ownedThread d m
            (answer d m shadow ⟨thread, some m.channelId, true⟩ w (withOpened m t)).2 =
            ownedThread d m t := congrArg (Option.any DiscordThread.isThread) hhome
        rw [howned]
        exact hwait.asks

end Opening

section Deliveries

variable (d : BridgeDeps) (m : InboundMessage)

def deliver : Step BridgeSt (Weather Site) := fun s w => some (handleMessage d m w s).2

structure Regular (start s : BridgeSt) (w : Weather Site) : Prop where
  fair : Fair w
  unopened : asks d m (ownedThread d m s) → (m.channelId, m.messageId) ∈ s.opened →
    (m.channelId, m.messageId) ∈ start.opened

variable {d m}

theorem regular_fair {start s : BridgeSt} {ws : List (Weather Site)}
    (h : Steps (deliver d m) (Regular d m start) s ws) : ∀ w ∈ ws, Fair w := by
  induction ws generalizing s with
  | nil => exact fun _ hw => absurd hw List.not_mem_nil
  | cons w ws ih =>
    obtain ⟨hw, hws⟩ := h _ rfl
    intro w' hw'
    obtain rfl | hw' := List.mem_cons.mp hw'
    · exact hw.fair
    · exact ih hws w' hw'

theorem waiting_attempts {thread : ContainerId} {start s : BridgeSt} (hm : handleMessage d m =
      handled d m (resolveConversation d m)) (hstart : Waiting d m thread start)
    (hs : Waiting d m thread s) {ws : List (Weather Site)}
    (hws : Steps (deliver d m) (Regular d m start) s ws)
    (h : Returns (handleMessage d m) s ws) :
    attempts (handleMessage d m) s ws = (handleMessage d m clear s).2 := by
  induction ws generalizing s with
  | nil => exact h.elim
  | cons w ws ih =>
    obtain ⟨hw, hws⟩ := hws _ rfl
    obtain ⟨e, t, hrun, ht, hclear⟩ | ⟨hopened, hasks⟩ := handled_waiting hs hw.fair
    · rw [← hm] at hrun hclear
      rw [attempts, hrun]
      rw [hrun] at hws
      rw [ih ht hws ?_, hclear]
      obtain ⟨a, ha⟩ | h := h
      · rw [hrun] at ha
        cases ha
      · rwa [hrun] at h
    · rw [← hm] at hopened hasks
      -- a further delivery would ask for the thread once more
      cases ws with
      | cons w' ws =>
        exact absurd ((hws _ rfl).1.unopened hasks hopened) hstart.unopened
      | nil =>
        obtain ⟨a, ha⟩ | h := h
        · rw [hm] at ha ⊢
          rw [attempts, attempts, handled_sure w s a hw.fair ha]
        · exact h.elim

/-- A message that opens no second thread is processed once, however often it is delivered. -/
theorem redelivered (d : BridgeDeps) (m : InboundMessage) (s : BridgeSt)
    (ws : List (Weather Site)) (hws : Steps (deliver d m) (Regular d m s) s ws)
    (h : Returns (handleMessage d m) s ws) :
    attempts (handleMessage d m) s ws = (handleMessage d m clear s).2 := by
  by_cases hskip : m.author.id = d.botUserId ∨ (m.author.bot || m.webhookId.isSome) = true
  · have hm : handleMessage d m = pure () := by
      unfold handleMessage
      by_cases hself : m.author.id = d.botUserId
      · rw [if_pos hself]
      · rw [if_neg hself, if_pos (hskip.resolve_left hself)]
    rw [hm] at h ⊢
    exact (Steady.pure (F := Fair) ()).attempts_eq (regular_fair hws) h
  · obtain ⟨hself, hbot⟩ := not_or.mp hskip
    have hm := handleMessage_person hself (by simpa using hbot)
    obtain ⟨e, href⟩ | ⟨thread, hwait⟩ := refused_or_waiting d m s
    · rw [hm] at h ⊢
      exact refused_attempts href (regular_fair hws) h
    · exact waiting_attempts hm hwait hwait hws h

end Deliveries

namespace Sample

def herald : DiscordUserId := ⟨"7101", by decide, by decide, by decide, by decide⟩

def person : DiscordUserId := ⟨"7102", by decide, by decide, by decide, by decide⟩

def guild : GuildId := ⟨"7103", by decide, by decide, by decide, by decide⟩

def lobby : ContainerId := ⟨"7104", by decide, by decide, by decide, by decide⟩

def greeting : DiscordMessageId := ⟨"7105", by decide, by decide, by decide, by decide⟩

def deps : BridgeDeps where
  app := ⟨1, herald, 2⟩
  botUserId := herald
  agentColleague := 3
  page _ _ _ := []
  opens container message := if message = container then .error .other else .ok message
  opens_new container message h := by
    split at h
    · cases h
    · next hne => exact hne (Except.ok.inj h)
  refuses _ _ := .postFailed 400
  render m := m.content
  mint _ n := BitVec.ofNat 128 (n + 4)

def ambient : InboundMessage :=
  ⟨greeting, lobby, some guild, ⟨person, false⟩, "hello", [], none⟩

def mention : InboundMessage := { ambient with mentions := [⟨herald, true⟩] }

def interrupted : Weather Site
  | .append => some .crash
  | _ => none

theorem interrupted_fair : Fair interrupted where
  create h := by cases h
  bind := .inl rfl
  openThread := .inl rfl
  backfill site h := by cases site <;> first | exact .inl rfl | cases h

end Sample

open Sample

theorem redelivered_ambient :
    attempts (handleMessage deps ambient) .init [interrupted, clear, clear] =
      (handleMessage deps ambient clear .init).2 := by
  have hregular (s : BridgeSt) {w : Weather Site} (hw : Fair w) :
      Regular deps ambient .init s w := by
    refine ⟨hw, fun h => absurd h ?_⟩
    rw [asks, show isTrigger deps ambient = false by decide]
    simp
  refine redelivered deps ambient .init _ ?_ (.inr (.inl ⟨(), rfl⟩))
  exact fun _ _ => ⟨hregular _ interrupted_fair, fun _ _ => ⟨hregular _ fair_clear,
    fun _ _ => ⟨hregular _ fair_clear, trivial⟩⟩⟩

/-- A mention is delivered twice: Discord refuses the second thread, and the channel itself is
bound to a thread of its own. -/
theorem mention_redelivered : Returns (handleMessage deps mention) .init [clear, clear] ∧
    (attempts (handleMessage deps mention) .init [clear, clear]).threads ≠
      (handleMessage deps mention clear .init).2.threads ∧
    (attempts (handleMessage deps mention) .init [clear, clear]).bindings ≠
      (handleMessage deps mention clear .init).2.bindings :=
  ⟨.inl ⟨(), rfl⟩, by decide +kernel, by decide +kernel⟩

end Patom.Discord
