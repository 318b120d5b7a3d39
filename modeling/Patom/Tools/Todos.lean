import Patom.Foundation.Envelope
import Patom.Types

open Patom.Foundation

namespace Patom.Tools

section Types

def MAX_TODO_ID_BYTES : Nat := 32
def MAX_TODO_CONTENT_BYTES : Nat := 512
def MAX_TODOS_PER_LIST : Nat := 50

def todoIdChar (c : Char) : Bool := c.isAlphanum || c == '-' || c == '_'

structure TodoId where
  asStr : String
  nonempty : asStr ≠ ""
  bounded : asStr.utf8ByteSize ≤ MAX_TODO_ID_BYTES
  allowed : asStr.toList.all todoIdChar

def TodoId.tryFrom (raw : String) : Except ParseError TodoId :=
  if h : raw = "" then .error (.empty "todo.id")
  else if h' : raw.utf8ByteSize ≤ MAX_TODO_ID_BYTES then
    if h'' : raw.toList.all todoIdChar then .ok ⟨raw, h, h', h''⟩
    else .error (.malformed "todo.id" "only [a-zA-Z0-9_-] permitted")
  else .error (.tooLong "todo.id" MAX_TODO_ID_BYTES raw.utf8ByteSize)

theorem TodoId.asStr_inj {a b : TodoId} : a.asStr = b.asStr ↔ a = b := by
  cases a
  cases b
  simp

instance todoIdDecidableEq : DecidableEq TodoId := fun _ _ => decidable_of_iff _ TodoId.asStr_inj

structure TodoContent where
  asStr : String
  nonempty : asStr ≠ ""
  bounded : asStr.utf8ByteSize ≤ MAX_TODO_CONTENT_BYTES

def TodoContent.tryFrom (raw : String) : Except ParseError TodoContent :=
  if h : raw = "" then .error (.empty "todo.content")
  else if h' : raw.utf8ByteSize ≤ MAX_TODO_CONTENT_BYTES then .ok ⟨raw, h, h'⟩
  else .error (.tooLong "todo.content" MAX_TODO_CONTENT_BYTES raw.utf8ByteSize)

inductive TodoStatus
  | pending
  | inProgress
  | completed
  deriving DecidableEq

def TodoStatus.asStr : TodoStatus → String
  | .pending => "pending"
  | .inProgress => "in_progress"
  | .completed => "completed"

theorem TodoStatus.asStr_inj {a b : TodoStatus} (h : a.asStr = b.asStr) : a = b := by
  cases a <;> cases b <;> first | rfl | exact absurd h (by decide)

structure TodoItem where
  id : TodoId
  content : TodoContent
  status : TodoStatus

structure TodoList where
  items : List TodoItem
  bounded : items.length ≤ MAX_TODOS_PER_LIST
  once : (items.map (·.id)).Nodup
  inProgress : items.countP (·.status = .inProgress) ≤ 1

def TodoList.tryFrom (items : List TodoItem) : Except ParseError TodoList :=
  if h : items.length ≤ MAX_TODOS_PER_LIST then
    if h' : (items.map (·.id)).Nodup then
      if h'' : items.countP (·.status = .inProgress) ≤ 1 then .ok ⟨items, h, h', h''⟩
      else .error (.malformed "todo.items" "at most one item may be in_progress")
    else .error (.malformed "todo.items" "duplicate id")
  else .error (.tooLong "todo.items" MAX_TODOS_PER_LIST items.length)

end Types

section Model

def escapeChar (c : Char) : List Char :=
  if c = '&' then "&amp;".toList
  else if c = '<' then "&lt;".toList
  else if c = '>' then "&gt;".toList
  else if c = '\n' ∨ c = '\r' then [' ']
  else [c]

def escapeEnvelopeText (raw : String) : String := String.ofList (raw.toList.flatMap escapeChar)

def renderItem (item : TodoItem) : String :=
  "- [" ++ item.status.asStr ++ "] (" ++ item.id.asStr ++ ") " ++
    escapeEnvelopeText item.content.asStr ++ "\n"

def renderSection (list : TodoList) : String :=
  if list.items.isEmpty then ""
  else "<todos>\n" ++ String.join (list.items.map renderItem) ++ "</todos>"

structure ShownTodo where
  id : TodoId
  status : TodoStatus
  content : String
  deriving DecidableEq

def showItem (item : TodoItem) : ShownTodo :=
  ⟨item.id, item.status, escapeEnvelopeText item.content.asStr⟩

def todosEnvelope : Envelope TodoList ShownTodo Char where
  newline := '\n'
  close := "</todos>".toList
  block list := (renderSection list).toList
  shown list := list.items.map showItem
  fixed _ := 2

end Model

section Laws

def ShownTodo.line (t : ShownTodo) : List Char :=
  "- [".toList ++ (t.status.asStr.toList ++ ']' :: (" (".toList ++ (t.id.asStr.toList ++ ')' ::
    (' ' :: t.content.toList))))

def TodoList.lines (list : TodoList) : List (List Char) :=
  if list.items = [] then [] else "<todos>".toList :: list.items.map fun item => (showItem item).line

theorem lines_eq_nil (list : TodoList) : list.lines = [] ↔ list.items = [] := by
  unfold TodoList.lines
  split
  · next h => simp [h]
  · next h => simp [h]

theorem renderItem_eq (item : TodoItem) :
    (renderItem item).toList = (showItem item).line ++ ['\n'] := by
  simp [renderItem, showItem, ShownTodo.line]

theorem todos_laid : todosEnvelope.Laid TodoList.lines where
  newline := by decide
  nonempty := by decide
  empty list h := by
    rw [lines_eq_nil] at h
    simp [todosEnvelope, renderSection, h]
  block list h := by
    rw [Ne, lines_eq_nil] at h
    change (renderSection list).toList = _ ++ "</todos>".toList
    rw [renderSection, if_neg (by simpa using h), TodoList.lines, if_neg h, String.toList_append,
      String.toList_append, String.toList_join, List.flatMap_map, List.flatMap_cons,
      List.flatMap_map]
    simp only [renderItem_eq]
    rfl
  lines list h := by
    change list.lines.length + 1 = 2 + (list.items.map showItem).length
    rw [TodoList.lines, if_neg ((lines_eq_nil list).not.mp h)]
    simp
    omega

theorem notMem_escapeChar {d : Char} (hd : d = '\n' ∨ d = '<') (c : Char) : d ∉ escapeChar c := by
  unfold escapeChar
  split_ifs with hamp hlt hgt hline
  · rcases hd with rfl | rfl <;> decide
  · rcases hd with rfl | rfl <;> decide
  · rcases hd with rfl | rfl <;> decide
  · rcases hd with rfl | rfl <;> decide
  · rw [List.mem_singleton]
    rintro rfl
    rcases hd with rfl | rfl
    · exact hline (.inl rfl)
    · exact hlt rfl

theorem notMem_escape {d : Char} (hd : d = '\n' ∨ d = '<') (raw : String) :
    d ∉ (escapeEnvelopeText raw).toList := by
  rw [escapeEnvelopeText, String.toList_ofList, List.mem_flatMap]
  rintro ⟨c, -, hc⟩
  exact notMem_escapeChar hd c hc

theorem notMem_id (id : TodoId) {d : Char} (hd : todoIdChar d = false) : d ∉ id.asStr.toList := by
  intro h
  rw [List.all_eq_true.mp id.allowed d h] at hd
  cases hd

theorem clean_line (item : TodoItem) : todosEnvelope.Clean (showItem item).line := by
  have hmem : ∀ d, d = '\n' ∨ d = '<' → d ∉ (showItem item).line := by
    intro d hd
    have hid : d ∉ item.id.asStr.toList := by
      apply notMem_id
      rcases hd with rfl | rfl <;> decide
    have hcontent := notMem_escape hd item.content.asStr
    have hstatus : d ∉ item.status.asStr.toList := by
      cases item.status <;> rcases hd with rfl | rfl <;> decide
    rcases hd with rfl | rfl <;> simp [ShownTodo.line, showItem, hid, hcontent, hstatus]
  have htag : '<' ∈ todosEnvelope.close := by decide
  exact clean_of_notMem htag (hmem '\n' (.inl rfl)) (hmem '<' (.inr rfl))

theorem clean_lines (list : TodoList) : ∀ line ∈ list.lines, todosEnvelope.Clean line := by
  unfold TodoList.lines
  split
  · simp
  · have hopen : todosEnvelope.Clean "<todos>".toList := by
      have htag : '/' ∈ todosEnvelope.close := by decide
      exact clean_of_notMem htag (by decide) (by decide)
    rw [List.forall_mem_cons, List.forall_mem_map]
    exact ⟨hopen, fun item _ => clean_line item⟩

theorem line_injective : Function.Injective ShownTodo.line := by
  intro t t' h
  have hstatus : ∀ t : ShownTodo, ']' ∉ t.status.asStr.toList := by
    intro t
    cases t.status <;> decide
  have hid : ∀ t : ShownTodo, ')' ∉ t.id.asStr.toList := fun t => notMem_id t.id (by decide)
  obtain ⟨hstatuses, hrest⟩ :=
    (append_cons_inj (hstatus t) (hstatus t')).mp (List.append_cancel_left h)
  obtain ⟨hids, hcontent⟩ := (append_cons_inj (hid t) (hid t')).mp (List.append_cancel_left hrest)
  rcases t with ⟨id, status, content⟩
  rcases t' with ⟨id', status', content'⟩
  rw [ShownTodo.mk.injEq]
  exact ⟨TodoId.asStr_inj.mp (String.toList_inj.mp hids),
    TodoStatus.asStr_inj (String.toList_inj.mp hstatuses),
    String.toList_inj.mp (List.cons.inj hcontent).2⟩

theorem todos_unforged (x y : TodoList) : todosEnvelope.Unforged x y := by
  rw [todos_laid.unforged_iff]
  refine ⟨clean_lines x, clean_lines y, fun h => ?_⟩
  have htail : ∀ list : TodoList, list.lines.tail = (list.items.map showItem).map ShownTodo.line := by
    intro list
    unfold TodoList.lines
    split
    · next h => simp [h]
    · rw [List.tail_cons, List.map_map]
      rfl
  have hitems := congrArg List.tail h
  rw [htail, htail] at hitems
  exact line_injective.list_map hitems

end Laws

end Patom.Tools
