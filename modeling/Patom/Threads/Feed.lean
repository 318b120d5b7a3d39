import Patom.Foundation.Pairing
import Patom.Provider.Chat

open Patom.Provider
open Patom.Foundation

namespace Patom.Threads

abbrev Seq := Nat

def Seq.ZERO : Seq := 0

def MAX_CONTEXT_MESSAGES : Nat := 200
def MAX_TOOL_RESULT_CHARS : Nat := 32000

inductive MessageKind
  | posted
  | reasoning
  | toolUse
  | toolResult
  | systemNote
  deriving DecidableEq

structure NewMessage where
  kind : MessageKind
  sender : Option ColleagueId
  ownerAgentId : Option AgentId
  body : ChatMessage
  deriving DecidableEq

structure ThreadMessage extends NewMessage where
  seq : Seq
  deriving DecidableEq

/-- `nextSeq` is the last number handed out; rows are kept in the order of their numbers. -/
structure Thread where
  nextSeq : Seq
  messages : List ThreadMessage
  deriving DecidableEq

def Thread.empty : Thread := ⟨0, []⟩

def Thread.append (m : NewMessage) (t : Thread) : Thread :=
  ⟨t.nextSeq + 1, t.messages ++ [{ m with seq := t.nextSeq + 1 }]⟩

/-- A duplicate idempotency key takes a number and leaves a hole. -/
def Thread.appendDuplicate (t : Thread) : Thread := { t with nextSeq := t.nextSeq + 1 }

def ThreadMessage.visibleTo (agent : AgentId) (m : ThreadMessage) : Bool :=
  m.kind = .posted ∨ m.ownerAgentId = some agent

def Thread.visible (agent : AgentId) (t : Thread) : List ThreadMessage :=
  t.messages.filter (·.visibleTo agent)

def newest {α : Type*} (n : Nat) (l : List α) : List α := l.drop (l.length - n)

/-- `CONTEXT_SQL` -/
def Thread.contextRows (agent : AgentId) (since : Seq) (t : Thread) : List ThreadMessage :=
  newest MAX_CONTEXT_MESSAGES ((t.visible agent).filter fun m => since < m.seq)

def userToAssistantBlocks (blocks : List UserContent) : List AssistantContent :=
  blocks.filterMap fun
    | .text t => some (.text t)
    | .toolResult _ | .image _ | .file _ => none

def assistantToUserBlocks (blocks : List AssistantContent) : List UserContent :=
  blocks.filterMap fun
    | .text t => some (.text t)
    | .reasoning _ | .toolCall _ => none

def prefixSenderLabel (label : Option String) (blocks : List UserContent) : List UserContent :=
  match label with
  | some label => if label = "" then blocks else .text (label ++ ": ") :: blocks
  | none => blocks

def mapRowForViewer (kind : MessageKind) (sender : Option ColleagueId) (senderLabel : Option String)
    (stored : ChatMessage) (viewer : ColleagueId) : ChatMessage :=
  if kind ≠ .posted then stored
  else if sender = some viewer then
    match stored with
    | .assistant blocks => .assistant blocks
    | .user blocks => .assistant (userToAssistantBlocks blocks)
  else
    match stored with
    | .user blocks => .user (prefixSenderLabel senderLabel blocks)
    | .assistant blocks => .user (prefixSenderLabel senderLabel (assistantToUserBlocks blocks))

def capToolResultOutput (output : String) (seq : Seq) : Option String :=
  let chars := output.toList
  let total := chars.length
  if total ≤ MAX_TOOL_RESULT_CHARS then none
  else
    let keep := MAX_TOOL_RESULT_CHARS / 2
    let omitted := total - keep - keep
    some (String.ofList (chars.take keep) ++ "\n[… omitted " ++ toString omitted ++
      " chars · thread seq " ++ toString seq ++ " …]\n" ++ String.ofList (chars.drop (total - keep)))

def capToolResult (seq : Seq) : UserContent → UserContent
  | .toolResult r =>
    .toolResult { r with output := (capToolResultOutput r.output seq).getD r.output }
  | .text t => .text t
  | .image att => .image att
  | .file att => .file att

def capToolResultsInPlace (seq : Seq) : ChatMessage → ChatMessage
  | .user contents => .user (contents.map (capToolResult seq))
  | .assistant contents => .assistant contents

structure RepairState where
  out : List (Seq × ChatMessage)
  deferred : List (Seq × ChatMessage)
  awaitingResult : Bool

def RepairState.push (s : RepairState) (row : Seq × MessageKind × ChatMessage) : RepairState :=
  let (seq, kind, msg) := row
  if s.awaitingResult then
    if kind = .toolResult then ⟨s.out ++ [(seq, msg)] ++ s.deferred, [], false⟩
    else { s with deferred := s.deferred ++ [(seq, msg)] }
  else { s with out := s.out ++ [(seq, msg)], awaitingResult := kind = .toolUse }

/-- The rows held back behind a tool use that never closed are kept. -/
def RepairState.flush (s : RepairState) : List (Seq × ChatMessage) := s.out ++ s.deferred

def repairToolPairs (rows : List (Seq × MessageKind × ChatMessage)) : List (Seq × ChatMessage) :=
  (rows.foldl RepairState.push ⟨[], [], false⟩).flush

def callIds : ChatMessage → List ToolCallId
  | .user _ => []
  | .assistant contents => (contents.filterMap AssistantContent.toolCall?).map (·.id)

def toolResultHead : ChatMessage → Option ToolCallId
  | .user (.toolResult r :: _) => some r.callId
  | _ => none

def dropOrphanToolResults (rows : List (Seq × ChatMessage)) : List (Seq × ChatMessage) :=
  let ids := rows.flatMap fun row => callIds row.2
  rows.filter fun row =>
    match toolResultHead row.2 with
    | some id => id ∈ ids
    | none => true

structure TailRow where
  seq : Seq
  message : ChatMessage
  deriving DecidableEq

structure Labels where
  overrides : ColleagueId → Option String
  names : ColleagueId → Option String

def Labels.of (labels : Labels) (sender : Option ColleagueId) : Option String :=
  (sender.bind labels.overrides).or (sender.bind labels.names)

structure Viewer where
  agent : AgentId
  colleague : ColleagueId
  deriving DecidableEq

def renderRow (viewer : Viewer) (labels : Labels) (m : ThreadMessage) : ChatMessage :=
  capToolResultsInPlace m.seq
    (mapRowForViewer m.kind m.sender (labels.of m.sender) m.body viewer.colleague)

def mappedRows (viewer : Viewer) (labels : Labels) (since : Seq) (t : Thread) :
    List (Seq × MessageKind × ChatMessage) :=
  (t.contextRows viewer.agent since).map fun m => (m.seq, m.kind, renderRow viewer labels m)

def contextTail (viewer : Viewer) (labels : Labels) (since : Seq) (t : Thread) : List TailRow :=
  (dropOrphanToolResults (repairToolPairs (mappedRows viewer labels since t))).map fun row =>
    ⟨row.1, row.2⟩

def ThreadMessage.opens (m : ThreadMessage) : Bool := m.kind = .toolUse
def ThreadMessage.closes (m : ThreadMessage) : Bool := m.kind = .toolResult

theorem ThreadMessage.not_closes_of_opens (m : ThreadMessage) (h : m.opens) : m.closes = false := by
  simp only [opens, decide_eq_true_eq] at h
  simp [closes, h]

section Repair

def rowOpens (row : Seq × MessageKind × ChatMessage) : Bool := row.2.1 = .toolUse
def rowCloses (row : Seq × MessageKind × ChatMessage) : Bool := row.2.1 = .toolResult
def dropKind (row : Seq × MessageKind × ChatMessage) : Seq × ChatMessage := (row.1, row.2.2)

theorem foldl_push (rows : List (Seq × MessageKind × ChatMessage)) (out : List (Seq × ChatMessage)) :
    (rows.foldl RepairState.push ⟨out, [], false⟩).flush =
        out ++ (rejoin rowOpens rowCloses none rows).map dropKind ∧
      ∀ held : List (Seq × MessageKind × ChatMessage),
        (rows.foldl RepairState.push ⟨out, held.map dropKind, true⟩).flush =
          out ++ (rejoin rowOpens rowCloses (some held) rows).map dropKind := by
  induction rows generalizing out with
  | nil => simp [RepairState.flush]
  | cons row rows ih =>
    constructor
    · cases hopen : rowOpens row with
      | false =>
        have hkind : row.2.1 ≠ .toolUse := by simpa [rowOpens] using hopen
        have hpush : RepairState.push ⟨out, [], false⟩ row = ⟨out ++ [dropKind row], [], false⟩ := by
          simp [RepairState.push, hkind, dropKind]
        simp [hpush, (ih _).1, rejoin, hopen]
      | true =>
        have hkind : row.2.1 = .toolUse := by simpa [rowOpens] using hopen
        have hpush : RepairState.push ⟨out, [], false⟩ row = ⟨out ++ [dropKind row], [], true⟩ := by
          simp [RepairState.push, hkind, dropKind]
        have hheld := (ih (out ++ [dropKind row])).2 []
        rw [List.map_nil] at hheld
        simp [hpush, hheld, rejoin, hopen]
    · intro held
      cases hclose : rowCloses row with
      | false =>
        have hkind : row.2.1 ≠ .toolResult := by simpa [rowCloses] using hclose
        have hpush : RepairState.push ⟨out, held.map dropKind, true⟩ row =
            ⟨out, (held ++ [row]).map dropKind, true⟩ := by
          simp [RepairState.push, hkind, dropKind]
        simp only [List.foldl_cons, hpush, (ih out).2 (held ++ [row])]
        simp [rejoin, hclose]
      | true =>
        have hkind : row.2.1 = .toolResult := by simpa [rowCloses] using hclose
        have hpush : RepairState.push ⟨out, held.map dropKind, true⟩ row =
            ⟨out ++ [dropKind row] ++ held.map dropKind, [], false⟩ := by
          simp [RepairState.push, hkind, dropKind]
        simp [hpush, (ih _).1, rejoin, hclose]

theorem repairToolPairs_eq (rows : List (Seq × MessageKind × ChatMessage)) :
    repairToolPairs rows = (rejoin rowOpens rowCloses none rows).map dropKind := by
  simpa [repairToolPairs] using (foldl_push rows []).1

theorem repairToolPairs_map (l : List ThreadMessage) (render : ThreadMessage → ChatMessage) :
    repairToolPairs (l.map fun m => (m.seq, m.kind, render m)) =
      (rejoin ThreadMessage.opens ThreadMessage.closes none l).map fun m => (m.seq, render m) := by
  have hmap : rejoin rowOpens rowCloses none (l.map fun m => (m.seq, m.kind, render m)) =
      (rejoin ThreadMessage.opens ThreadMessage.closes none l).map
        fun m => (m.seq, m.kind, render m) :=
    rejoin_map _ (fun _ => rfl) (fun _ => rfl) none l
  rw [repairToolPairs_eq, hmap, List.map_map]
  rfl

end Repair

section Window

variable {agent : AgentId} {since : Seq} {t : Thread}

theorem newest_suffix {α : Type*} (n : Nat) (l : List α) : newest n l <:+ l := List.drop_suffix _ _

theorem length_newest_le {α : Type*} (n : Nat) (l : List α) : (newest n l).length ≤ n := by
  rw [newest, List.length_drop]
  omega

theorem newest_eq_self {α : Type*} {n : Nat} {l : List α} (h : l.length ≤ n) : newest n l = l := by
  rw [newest, Nat.sub_eq_zero_of_le h, List.drop_zero]

theorem filter_gt_suffix {l : List ThreadMessage} (h : l.Pairwise fun m m' => m.seq < m'.seq)
    (since : Seq) : (l.filter fun m => since < m.seq) <:+ l := by
  induction l with
  | nil => exact List.suffix_refl []
  | cons m l ih =>
    rw [List.pairwise_cons] at h
    by_cases hm : since < m.seq
    · have hall : ∀ m' ∈ m :: l, decide (since < m'.seq) := by
        intro m' hm'
        rcases List.mem_cons.mp hm' with rfl | hm'
        · simpa using hm
        · simpa using Nat.lt_trans hm (h.1 m' hm')
      rw [List.filter_eq_self.mpr hall]
    · rw [List.filter_cons_of_neg (by simpa using hm)]
      exact (ih h.2).trans (List.suffix_cons m l)

variable (agent since) in
theorem contextRows_suffix (h : t.messages.Pairwise fun m m' => m.seq < m'.seq) :
    t.contextRows agent since <:+ t.visible agent :=
  (newest_suffix _ _).trans (filter_gt_suffix (h.sublist List.filter_sublist) since)

theorem since_lt_of_mem {m : ThreadMessage} (h : m ∈ t.contextRows agent since) : since < m.seq := by
  have := (newest_suffix _ _).subset h
  simpa using (List.mem_filter.mp this).2

end Window

end Patom.Threads
