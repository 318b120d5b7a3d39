import Patom.AgentCore.Rounds
import Patom.Foundation.Transition
import Patom.Threads.Feed

open Patom.AgentCore (MAX_TOOL_CALLS_PER_TURN)
open Patom.Foundation
open Patom.Provider

namespace Patom.Threads

/-- One thread as a viewer's turns and everyone else write to it. `pending` is the tool use the
running turn has not answered yet; `pairs` records which result was appended for which use. -/
structure Feed where
  thread : Thread
  pending : Option (Seq × List ToolCall)
  pairs : List (Seq × Seq)
  deriving DecidableEq

def Feed.init : Feed := ⟨.empty, none, []⟩

inductive FeedAct
  | posted (sender : Option ColleagueId) (contents : List UserContent)
  | foreign (owner : AgentId) (message : NewMessage)
  | duplicate
  | reasoning (contents : List AssistantContent)
  | toolUse (contents : List AssistantContent)
  | toolResult (outputs : List (String × Bool))
  | nudge (text : String)
  | stop
  deriving DecidableEq

def toolCallsOf (contents : List AssistantContent) : List ToolCall :=
  contents.filterMap AssistantContent.toolCall?

def resultsOf (calls : List ToolCall) (outputs : List (String × Bool)) : List UserContent :=
  (calls.zip outputs).map fun (call, output, isError) => .toolResult ⟨call.id, output, isError⟩

section Viewer

variable (viewer : Viewer)

def Feed.ready (f : Feed) : Prop := f.pending = none ∧ f.thread.visible viewer.agent ≠ []

instance (f : Feed) : Decidable (f.ready viewer) := inferInstanceAs (Decidable (_ ∧ _))

def postedMessage (sender : Option ColleagueId) (contents : List UserContent) : NewMessage :=
  ⟨.posted, sender, none, .user contents⟩

def reasoningMessage (contents : List AssistantContent) : NewMessage :=
  ⟨.reasoning, some viewer.colleague, some viewer.agent, .assistant contents⟩

def toolUseMessage (contents : List AssistantContent) : NewMessage :=
  ⟨.toolUse, some viewer.colleague, some viewer.agent, .assistant contents⟩

def toolResultMessage (calls : List ToolCall) (outputs : List (String × Bool)) : NewMessage :=
  ⟨.toolResult, none, some viewer.agent, .user (resultsOf calls outputs)⟩

def nudgeMessage (text : String) : NewMessage :=
  ⟨.systemNote, none, some viewer.agent, .user [.text text]⟩

/-- `stop` is every way a turn ends, right after a tool use included. -/
def feedStep : Step Feed FeedAct := fun f a =>
  match a with
  | .posted sender contents =>
    if contents.all (fun c => !c.isToolResult) then
      some { f with thread := f.thread.append (postedMessage sender contents) }
    else none
  | .foreign owner message =>
    if owner ≠ viewer.agent ∧ message.kind ≠ .posted then
      some { f with thread := f.thread.append { message with ownerAgentId := some owner } }
    else none
  | .duplicate => some { f with thread := f.thread.appendDuplicate }
  | .reasoning contents =>
    if f.ready viewer ∧ toolCallsOf contents = [] then
      some { f with thread := f.thread.append (reasoningMessage viewer contents) }
    else none
  | .toolUse contents =>
    if f.ready viewer ∧ toolCallsOf contents ≠ [] then
      some { f with
        thread := f.thread.append (toolUseMessage viewer contents)
        pending := some (f.thread.nextSeq + 1, toolCallsOf contents) }
    else none
  | .toolResult outputs =>
    match f.pending with
    | none => none
    | some (use, calls) =>
      if calls.length ≤ MAX_TOOL_CALLS_PER_TURN ∧ outputs.length = calls.length then
        some
          { thread := f.thread.append (toolResultMessage viewer calls outputs)
            pending := none
            pairs := f.pairs ++ [(use, f.thread.nextSeq + 1)] }
      else none
  | .nudge text =>
    if f.pending = none then some { f with thread := f.thread.append (nudgeMessage viewer text) }
    else none
  | .stop => some { f with pending := none }

end Viewer

def resultIds : ChatMessage → List ToolCallId
  | .user contents => contents.filterMap fun
    | .toolResult r => some r.callId
    | .text _ | .image _ | .file _ => none
  | .assistant _ => []

def Shaped (m : ThreadMessage) : Prop :=
  match m.kind with
  | .toolUse => ∃ contents, m.body = .assistant contents ∧ toolCallsOf contents ≠ []
  | .toolResult => ∃ results : List ToolResult, results ≠ [] ∧ m.body = .user (results.map .toolResult)
  | .reasoning => ∃ contents, m.body = .assistant contents ∧ toolCallsOf contents = []
  | .posted | .systemNote =>
    ∃ contents, m.body = .user contents ∧ ∀ c ∈ contents, c.isToolResult = false

abbrev Answered (l : List ThreadMessage) (u c : ThreadMessage) : Prop :=
  Answers ThreadMessage.opens ThreadMessage.closes l u c

section Visible

variable {agent : AgentId} {t : Thread} {m : NewMessage}

theorem visible_append_of_visible (h : ({ m with seq := t.nextSeq + 1 } : ThreadMessage).visibleTo agent) :
    (t.append m).visible agent = t.visible agent ++ [{ m with seq := t.nextSeq + 1 }] := by
  simp [Thread.append, Thread.visible, List.filter_append, h]

theorem visible_append_of_hidden
    (h : ({ m with seq := t.nextSeq + 1 } : ThreadMessage).visibleTo agent = false) :
    (t.append m).visible agent = t.visible agent := by
  simp [Thread.append, Thread.visible, List.filter_append, h]

theorem mem_of_visible {x : ThreadMessage} (h : x ∈ t.visible agent) : x ∈ t.messages :=
  List.mem_of_mem_filter h

end Visible

structure Numbered (t : Thread) : Prop where
  ordered : t.messages.Pairwise fun m m' => m.seq < m'.seq
  bounded : ∀ m ∈ t.messages, 0 < m.seq ∧ m.seq ≤ t.nextSeq

theorem Numbered.append {t : Thread} (h : Numbered t) (m : NewMessage) : Numbered (t.append m) where
  ordered := by
    refine List.pairwise_append.mpr ⟨h.ordered, List.pairwise_singleton _ _, fun x hx y hy => ?_⟩
    rw [List.mem_singleton.mp hy]
    exact Nat.lt_succ_of_le (h.bounded x hx).2
  bounded x hx := by
    rcases List.mem_append.mp hx with hx | hx
    · exact ⟨(h.bounded x hx).1, Nat.le_succ_of_le (h.bounded x hx).2⟩
    · rw [List.mem_singleton.mp hx]
      exact ⟨Nat.succ_pos _, Nat.le_refl _⟩

theorem Numbered.visible_ordered {t : Thread} (h : Numbered t) (agent : AgentId) :
    (t.visible agent).Pairwise fun m m' => m.seq < m'.seq :=
  h.ordered.sublist List.filter_sublist

theorem nodup_seqs_of_ordered {l : List ThreadMessage}
    (h : l.Pairwise fun m m' => m.seq < m'.seq) : (l.map (·.seq)).Nodup :=
  List.pairwise_map.mpr (h.imp Nat.ne_of_lt)

theorem nodup_of_ordered {l : List ThreadMessage} (h : l.Pairwise fun m m' => m.seq < m'.seq) :
    l.Nodup :=
  (nodup_seqs_of_ordered h).of_map _

theorem eq_of_seq_eq {l : List ThreadMessage} (h : l.Pairwise fun m m' => m.seq < m'.seq)
    {m m' : ThreadMessage} (hm : m ∈ l) (hm' : m' ∈ l) (e : m.seq = m'.seq) : m = m' :=
  List.inj_on_of_nodup_map (nodup_seqs_of_ordered h) hm hm' e

structure FeedInv (viewer : Viewer) (f : Feed) : Prop where
  numbered : Numbered f.thread
  shaped : ∀ m ∈ f.thread.visible viewer.agent, Shaped m
  pairs : ∀ use result, (use, result) ∈ f.pairs ↔
    ∃ u c, Answered (f.thread.visible viewer.agent) u c ∧ u.seq = use ∧ c.seq = result
  answered : ∀ c ∈ f.thread.visible viewer.agent, c.closes →
    ∃ u, Answered (f.thread.visible viewer.agent) u c
  matched : ∀ u c, Answered (f.thread.visible viewer.agent) u c →
    resultIds c.body = callIds u.body
  waiting : ∀ use calls, f.pending = some (use, calls) →
    ∃ u, Open ThreadMessage.opens ThreadMessage.closes (f.thread.visible viewer.agent) u ∧
      u.seq = use ∧ callIds u.body = calls.map (·.id)
  founded : ∀ m ∈ f.thread.visible viewer.agent, m.opens → 1 < m.seq

section Steps

variable {viewer : Viewer} {f : Feed}

theorem feedInv_init : FeedInv viewer .init where
  numbered := ⟨.nil, fun m hm => absurd hm List.not_mem_nil⟩
  shaped m hm := absurd hm List.not_mem_nil
  pairs use result := by
    refine iff_of_false List.not_mem_nil ?_
    rintro ⟨u, c, h, -⟩
    cases h
  answered c hc := absurd hc List.not_mem_nil
  matched u c h := by cases h
  waiting use calls h := by cases h
  founded m hm := absurd hm List.not_mem_nil

theorem FeedInv.append_hidden (h : FeedInv viewer f) {m : NewMessage}
    (hm : ({ m with seq := f.thread.nextSeq + 1 } : ThreadMessage).visibleTo viewer.agent = false) :
    FeedInv viewer { f with thread := f.thread.append m } := by
  have hvisible := visible_append_of_hidden hm
  exact {
    numbered := h.numbered.append m
    shaped := by simpa only [hvisible] using h.shaped
    pairs := by simpa only [hvisible] using h.pairs
    answered := by simpa only [hvisible] using h.answered
    matched := by simpa only [hvisible] using h.matched
    waiting := by simpa only [hvisible] using h.waiting
    founded := by simpa only [hvisible] using h.founded }

theorem FeedInv.append_idle (h : FeedInv viewer f) {m : NewMessage}
    (hm : ({ m with seq := f.thread.nextSeq + 1 } : ThreadMessage).visibleTo viewer.agent)
    (hidle : Idle ThreadMessage.opens ThreadMessage.closes { m with seq := f.thread.nextSeq + 1 })
    (hshaped : Shaped { m with seq := f.thread.nextSeq + 1 }) :
    FeedInv viewer { f with thread := f.thread.append m } := by
  have hvisible := visible_append_of_visible hm
  have hanswers : ∀ u c, Answered ((f.thread.append m).visible viewer.agent) u c ↔
      Answered (f.thread.visible viewer.agent) u c := fun u c => by
    rw [hvisible, Answered, answers_snoc]
    exact or_iff_left fun hlast => by simp [hidle.2] at hlast
  refine ⟨h.numbered.append m, fun x hx => ?_, ?_, fun c hc hclose => ?_, ?_,
    fun use calls hpending => ?_, fun x hx hopen => ?_⟩
  · rw [hvisible, List.mem_append, List.mem_singleton] at hx
    exact hx.elim (h.shaped x) fun e => e ▸ hshaped
  · simpa only [hanswers] using h.pairs
  · simp only [hanswers]
    rw [hvisible, List.mem_append, List.mem_singleton] at hc
    rcases hc with hc | rfl
    · exact h.answered c hc hclose
    · simp [hidle.2] at hclose
  · simpa only [hanswers] using h.matched
  · obtain ⟨u, hopen, hu⟩ := h.waiting use calls hpending
    exact ⟨u, hvisible ▸ hopen.snoc_idle hidle, hu⟩
  · rw [hvisible, List.mem_append, List.mem_singleton] at hx
    rcases hx with hx | rfl
    · exact h.founded x hx hopen
    · simp [hidle.1] at hopen

theorem FeedInv.duplicate (h : FeedInv viewer f) :
    FeedInv viewer { f with thread := f.thread.appendDuplicate } where
  numbered := ⟨h.numbered.ordered, fun m hm =>
    ⟨(h.numbered.bounded m hm).1, Nat.le_succ_of_le (h.numbered.bounded m hm).2⟩⟩
  shaped := h.shaped
  pairs := h.pairs
  answered := h.answered
  matched := h.matched
  waiting := h.waiting
  founded := h.founded

theorem FeedInv.stop (h : FeedInv viewer f) : FeedInv viewer { f with pending := none } where
  numbered := h.numbered
  shaped := h.shaped
  pairs := h.pairs
  answered := h.answered
  matched := h.matched
  waiting use calls hpending := by cases hpending
  founded := h.founded

theorem FeedInv.toolUse (h : FeedInv viewer f) {contents : List AssistantContent}
    (hready : f.ready viewer) (hcalls : toolCallsOf contents ≠ []) :
    FeedInv viewer { f with
      thread := f.thread.append (toolUseMessage viewer contents)
      pending := some (f.thread.nextSeq + 1, toolCallsOf contents) } := by
  have hvisible := @visible_append_of_visible viewer.agent f.thread (toolUseMessage viewer contents)
    (by simp [ThreadMessage.visibleTo, toolUseMessage])
  have hopens : ({ toolUseMessage viewer contents with seq := f.thread.nextSeq + 1 } :
      ThreadMessage).opens := rfl
  have hcloses := ThreadMessage.not_closes_of_opens _ hopens
  have hanswers : ∀ u c, Answered ((f.thread.append (toolUseMessage viewer contents)).visible
      viewer.agent) u c ↔ Answered (f.thread.visible viewer.agent) u c := fun u c => by
    rw [hvisible, Answered, answers_snoc]
    exact or_iff_left fun hlast => by simp [hcloses] at hlast
  refine ⟨h.numbered.append _, fun x hx => ?_, ?_, fun c hc hclose => ?_, ?_,
    fun use calls hpending => ?_, fun x hx hopen => ?_⟩
  · rw [hvisible, List.mem_append, List.mem_singleton] at hx
    exact hx.elim (h.shaped x) fun e => e ▸ ⟨contents, rfl, hcalls⟩
  · simpa only [hanswers] using h.pairs
  · simp only [hanswers]
    rw [hvisible, List.mem_append, List.mem_singleton] at hc
    rcases hc with hc | rfl
    · exact h.answered c hc hclose
    · simp [hcloses] at hclose
  · simpa only [hanswers] using h.matched
  · simp only [Option.some.injEq, Prod.mk.injEq] at hpending
    obtain ⟨rfl, rfl⟩ := hpending
    exact ⟨_, hvisible ▸ open_snoc_opens _ hopens, rfl, rfl⟩
  · rw [hvisible, List.mem_append, List.mem_singleton] at hx
    rcases hx with hx | rfl
    · exact h.founded x hx hopen
    · obtain ⟨m, hm⟩ := List.exists_mem_of_ne_nil _ hready.2
      obtain ⟨hpos, hle⟩ := h.numbered.bounded m (mem_of_visible hm)
      exact Nat.succ_lt_succ (Nat.lt_of_lt_of_le hpos hle)

theorem resultIds_resultsOf {calls : List ToolCall} {outputs : List (String × Bool)}
    (h : outputs.length = calls.length) :
    resultIds (.user (resultsOf calls outputs)) = calls.map (·.id) := by
  have hfst : (calls.zip outputs).map Prod.fst = calls := List.map_fst_zip h.ge
  conv_rhs => rw [← hfst]
  simp [resultIds, resultsOf, List.filterMap_map, Function.comp_def]

theorem Shaped.callIds_ne_nil {m : ThreadMessage} (h : Shaped m) (hopen : m.opens) :
    callIds m.body ≠ [] := by
  have hkind : m.kind = .toolUse := by simpa [ThreadMessage.opens] using hopen
  simp only [Shaped, hkind] at h
  obtain ⟨contents, hbody, hcalls⟩ := h
  simpa [hbody, callIds, toolCallsOf] using hcalls

theorem FeedInv.toolResult (h : FeedInv viewer f) {use : Seq} {calls : List ToolCall}
    {outputs : List (String × Bool)} (hpending : f.pending = some (use, calls))
    (hlength : outputs.length = calls.length) :
    FeedInv viewer
      { thread := f.thread.append (toolResultMessage viewer calls outputs)
        pending := none
        pairs := f.pairs ++ [(use, f.thread.nextSeq + 1)] } := by
  obtain ⟨u, hopen, huse, hids⟩ := h.waiting use calls hpending
  have hvisible := @visible_append_of_visible viewer.agent f.thread
    (toolResultMessage viewer calls outputs) (by simp [ThreadMessage.visibleTo, toolResultMessage])
  have hcloses : ({ toolResultMessage viewer calls outputs with seq := f.thread.nextSeq + 1 } :
      ThreadMessage).closes := rfl
  have hanswers : ∀ u' c, Answered ((f.thread.append (toolResultMessage viewer calls outputs)).visible
      viewer.agent) u' c ↔ Answered (f.thread.visible viewer.agent) u' c ∨
        (u' = u ∧ c = { toolResultMessage viewer calls outputs with seq := f.thread.nextSeq + 1 }) :=
    fun u' c => by
      rw [hvisible, Answered, answers_snoc]
      refine or_congr_right ⟨fun ⟨hc, _, hu'⟩ => ⟨hu'.unique hopen, hc⟩, fun ⟨hu', hc⟩ => ?_⟩
      exact ⟨hc, hc ▸ hcloses, hu' ▸ hopen⟩
  have hne : calls ≠ [] := fun e => by
    refine (h.shaped u hopen.mem).callIds_ne_nil hopen.opening ?_
    rw [hids, e, List.map_nil]
  refine ⟨h.numbered.append _, fun x hx => ?_, fun use' result => ?_, fun c hc hclose => ?_,
    fun u' c hans => ?_, fun _ _ hnone => (nomatch hnone), fun x hx hopens => ?_⟩
  · rw [hvisible, List.mem_append, List.mem_singleton] at hx
    refine hx.elim (h.shaped x) fun e => e ▸ ⟨(calls.zip outputs).map fun r =>
      ⟨r.1.id, r.2.1, r.2.2⟩, ?_, ?_⟩
    · have hzip : (calls.zip outputs).length = calls.length := by simp [hlength]
      rw [ne_eq, List.map_eq_nil_iff, ← List.length_eq_zero_iff, hzip, List.length_eq_zero_iff]
      exact hne
    · simp [toolResultMessage, resultsOf, Function.comp_def]
  · simp only [hanswers, List.mem_append, List.mem_singleton, Prod.mk.injEq, h.pairs]
    constructor
    · rintro (⟨u', c, hans, hseqs⟩ | ⟨rfl, rfl⟩)
      · exact ⟨u', c, .inl hans, hseqs⟩
      · exact ⟨u, _, .inr ⟨rfl, rfl⟩, huse, rfl⟩
    · rintro ⟨u', c, hans | ⟨rfl, rfl⟩, hseqs⟩
      · exact .inl ⟨u', c, hans, hseqs⟩
      · exact .inr ⟨hseqs.1.symm.trans huse, hseqs.2.symm⟩
  · simp only [hanswers]
    rw [hvisible, List.mem_append, List.mem_singleton] at hc
    rcases hc with hc | rfl
    · obtain ⟨u', hans⟩ := h.answered c hc hclose
      exact ⟨u', .inl hans⟩
    · exact ⟨u, .inr ⟨rfl, rfl⟩⟩
  · rcases (hanswers u' c).mp hans with hans | ⟨rfl, rfl⟩
    · exact h.matched u' c hans
    · exact (resultIds_resultsOf hlength).trans hids.symm
  · rw [hvisible, List.mem_append, List.mem_singleton] at hx
    rcases hx with hx | rfl
    · exact h.founded x hx hopens
    · simp [ThreadMessage.opens, toolResultMessage] at hopens

theorem FeedInv.step (h : FeedInv viewer f) {a : FeedAct} {f' : Feed}
    (hstep : feedStep viewer f a = some f') : FeedInv viewer f' := by
  cases a with
  | posted sender contents =>
    simp only [feedStep, Option.ite_none_right_eq_some, Option.some.injEq] at hstep
    obtain ⟨hplain, rfl⟩ := hstep
    refine h.append_idle (by simp [ThreadMessage.visibleTo, postedMessage]) ⟨rfl, rfl⟩ ?_
    exact ⟨contents, rfl, fun c hc => by simpa using List.all_eq_true.mp hplain c hc⟩
  | foreign owner message =>
    simp only [feedStep, Option.ite_none_right_eq_some, Option.some.injEq] at hstep
    obtain ⟨⟨howner, hkind⟩, rfl⟩ := hstep
    exact h.append_hidden (by simp [ThreadMessage.visibleTo, howner, hkind])
  | duplicate =>
    cases hstep
    exact h.duplicate
  | reasoning contents =>
    simp only [feedStep, Option.ite_none_right_eq_some, Option.some.injEq] at hstep
    obtain ⟨⟨-, hcalls⟩, rfl⟩ := hstep
    exact h.append_idle (by simp [ThreadMessage.visibleTo, reasoningMessage]) ⟨rfl, rfl⟩
      ⟨contents, rfl, hcalls⟩
  | toolUse contents =>
    simp only [feedStep, Option.ite_none_right_eq_some, Option.some.injEq] at hstep
    obtain ⟨⟨hready, hcalls⟩, rfl⟩ := hstep
    exact h.toolUse hready hcalls
  | toolResult outputs =>
    simp only [feedStep] at hstep
    split at hstep
    case h_1 => cases hstep
    case h_2 use calls hpending =>
      simp only [Option.ite_none_right_eq_some, Option.some.injEq] at hstep
      obtain ⟨⟨-, hlength⟩, rfl⟩ := hstep
      exact h.toolResult hpending hlength
  | nudge text =>
    simp only [feedStep, Option.ite_none_right_eq_some, Option.some.injEq] at hstep
    obtain ⟨-, rfl⟩ := hstep
    refine h.append_idle (by simp [ThreadMessage.visibleTo, nudgeMessage]) ⟨rfl, rfl⟩ ?_
    exact ⟨[.text text], rfl, fun c hc => by rw [List.mem_singleton.mp hc]; rfl⟩
  | stop =>
    cases hstep
    exact h.stop

theorem reachable_feedInv (h : Reachable (feedStep viewer) .init f) : FeedInv viewer f :=
  h.inv (fun _ _ _ hinv => hinv.step) feedInv_init

end Steps

def FeedAct.seen : FeedAct → Bool
  | .posted .. | .reasoning .. | .toolUse .. | .toolResult .. | .nudge .. => true
  | .foreign .. | .duplicate | .stop => false

structure FeedMoved (viewer : Viewer) (f : Feed) (a : FeedAct) (f' : Feed) : Prop where
  visible : ∃ new : List ThreadMessage,
    f'.thread.visible viewer.agent = f.thread.visible viewer.agent ++ new ∧
      new.length = a.seen.toNat ∧ ∀ m ∈ new, m.seq = f.thread.nextSeq + 1
  nextSeq : f.thread.nextSeq ≤ f'.thread.nextSeq
  pending : ∀ use calls, f'.pending = some (use, calls) →
    f.pending = some (use, calls) ∨ f.thread.nextSeq < use
  pairs : ∀ p ∈ f'.pairs, p ∈ f.pairs ∨ ∃ calls, f.pending = some (p.1, calls)

section Moved

variable {viewer : Viewer} {f f' : Feed}

theorem FeedMoved.append {a : FeedAct} {m : NewMessage} {pending : Option (Seq × List ToolCall)}
    {pairs : List (Seq × Seq)} (hseen : a.seen)
    (hm : ({ m with seq := f.thread.nextSeq + 1 } : ThreadMessage).visibleTo viewer.agent)
    (hpending : ∀ use calls, pending = some (use, calls) →
      f.pending = some (use, calls) ∨ f.thread.nextSeq < use)
    (hpairs : ∀ p ∈ pairs, p ∈ f.pairs ∨ ∃ calls, f.pending = some (p.1, calls)) :
    FeedMoved viewer f a ⟨f.thread.append m, pending, pairs⟩ where
  visible := ⟨_, visible_append_of_visible hm, by simp [hseen], fun x hx => by
    rw [List.mem_singleton.mp hx]⟩
  nextSeq := Nat.le_succ _
  pending := hpending
  pairs := hpairs

theorem feedStep_moved {a : FeedAct} (h : feedStep viewer f a = some f') :
    FeedMoved viewer f a f' := by
  cases a with
  | posted sender contents =>
    simp only [feedStep, Option.ite_none_right_eq_some, Option.some.injEq] at h
    obtain ⟨-, rfl⟩ := h
    exact .append rfl (by simp [ThreadMessage.visibleTo, postedMessage]) (fun _ _ => .inl) fun _ => .inl
  | foreign owner message =>
    simp only [feedStep, Option.ite_none_right_eq_some, Option.some.injEq] at h
    obtain ⟨⟨howner, hkind⟩, rfl⟩ := h
    refine ⟨⟨[], ?_, rfl, fun _ hm => absurd hm List.not_mem_nil⟩, Nat.le_succ _, fun _ _ => .inl,
      fun _ => .inl⟩
    rw [List.append_nil]
    exact visible_append_of_hidden (by simp [ThreadMessage.visibleTo, howner, hkind])
  | duplicate =>
    cases h
    exact ⟨⟨[], (List.append_nil _).symm, rfl, fun _ hm => absurd hm List.not_mem_nil⟩,
      Nat.le_succ _, fun _ _ => .inl, fun _ => .inl⟩
  | reasoning contents =>
    simp only [feedStep, Option.ite_none_right_eq_some, Option.some.injEq] at h
    obtain ⟨-, rfl⟩ := h
    exact .append rfl (by simp [ThreadMessage.visibleTo, reasoningMessage]) (fun _ _ => .inl)
      fun _ => .inl
  | toolUse contents =>
    simp only [feedStep, Option.ite_none_right_eq_some, Option.some.injEq] at h
    obtain ⟨-, rfl⟩ := h
    refine .append rfl (by simp [ThreadMessage.visibleTo, toolUseMessage]) (fun use calls he => ?_)
      fun _ => .inl
    obtain ⟨rfl, -⟩ := Prod.mk.inj (Option.some.inj he)
    exact .inr (Nat.lt_succ_self _)
  | toolResult outputs =>
    simp only [feedStep] at h
    split at h
    case h_1 => cases h
    case h_2 use calls hpending =>
      simp only [Option.ite_none_right_eq_some, Option.some.injEq] at h
      obtain ⟨-, rfl⟩ := h
      refine .append rfl (by simp [ThreadMessage.visibleTo, toolResultMessage])
        (fun _ _ he => (nomatch he)) fun p hp => ?_
      rcases List.mem_append.mp hp with hp | hp
      · exact .inl hp
      · rw [List.mem_singleton.mp hp]
        exact .inr ⟨calls, hpending⟩
  | nudge text =>
    simp only [feedStep, Option.ite_none_right_eq_some, Option.some.injEq] at h
    obtain ⟨-, rfl⟩ := h
    exact .append rfl (by simp [ThreadMessage.visibleTo, nudgeMessage]) (fun _ _ => .inl) fun _ => .inl
  | stop =>
    cases h
    exact ⟨⟨[], (List.append_nil _).symm, rfl, fun _ hm => absurd hm List.not_mem_nil⟩,
      Nat.le_refl _, fun _ _ he => (nomatch he), fun _ => .inl⟩

end Moved

end Patom.Threads
