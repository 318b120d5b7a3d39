import Patom.Discord.Connection
import Patom.Foundation.Table
import Patom.Foundation.Transition

/-! The supervisor of the gateway connections, and the tasks it has spawned and not yet joined. -/

open Patom.Foundation

namespace Patom.Discord

abbrev TaskId := Nat

inductive Joined
  | ok (appId : ApplicationId)
  | cancelled
  deriving DecidableEq

structure Task where
  id : TaskId
  appId : ApplicationId
  aborted : Bool
  result : Option Joined
  deriving DecidableEq

instance : Keyed Task TaskId := ⟨Task.id⟩

structure Handle where
  appId : ApplicationId
  task : TaskId
  deriving DecidableEq

instance : Keyed Handle ApplicationId := ⟨Handle.appId⟩

structure Supervisor where
  set : Table Task
  spawned : List ApplicationId
  handles : Table Handle
  next : TaskId
  draining : Bool

def Supervisor.new : Supervisor where
  set := .empty
  spawned := []
  handles := .empty
  next := 0
  draining := false

inductive SupervisorAct
  | connect (appId : ApplicationId)
  | disconnect (appId : ApplicationId)
  | joinNext (task : TaskId)
  | cancel
  | finish (task : TaskId)
  | stop (task : TaskId)

def Task.abort (t : Task) : Task := { t with aborted := true }

theorem Task.abort_key (t : Task) : key t.abort = key t := rfl

def Task.finish (t : Task) : Task := { t with result := some (.ok t.appId) }

def Task.stop (t : Task) : Task := { t with result := some .cancelled }

namespace Supervisor

variable (s : Supervisor)

def abort (id : TaskId) : Supervisor :=
  match s.set.find? id with
  | some t => { s with set := s.set.put t.abort }
  | none => s

def spawnConnection (appId : ApplicationId) : Supervisor :=
  if appId ∈ s.spawned then s
  else { s with
    set := s.set.put ⟨s.next, appId, false, none⟩
    spawned := appId :: s.spawned
    handles := s.handles.put ⟨appId, s.next⟩
    next := s.next + 1 }

def forget (appId : ApplicationId) : Supervisor :=
  { s with
    spawned := s.spawned.filter (· ≠ appId)
    handles := s.handles.delete (·.appId = appId) }

def disconnect (appId : ApplicationId) : Supervisor :=
  match s.handles.find? appId with
  | some handle => (s.forget appId).abort handle.task
  | none => s.forget appId

def joined (t : Task) : Supervisor :=
  let s := { s with set := s.set.delete (·.id = t.id) }
  match t.result with
  | some (.ok appId) => if s.draining then s else s.forget appId
  | _ => s

def abortAll : Supervisor :=
  { s with set := s.set.modify Task.abort Task.abort_key, draining := true }

end Supervisor

def supervisor : Except DiscordError (List ApplicationId) → Supervisor
  | .ok targets => targets.foldl .spawnConnection .new
  | .error _ => .new

/-- A task that has returned is past aborting; one aborted while it runs may still return. -/
def supervisorStep : Step Supervisor SupervisorAct
  | s, .connect appId => if s.draining then none else some (s.spawnConnection appId)
  | s, .disconnect appId => if s.draining then none else some (s.disconnect appId)
  | s, .joinNext id =>
    (s.set.find? id).bind fun t => if t.result.isSome then some (s.joined t) else none
  | s, .cancel => if s.draining then none else some s.abortAll
  | s, .finish id =>
    (s.set.find? id).bind fun t =>
      if t.result.isNone then some { s with set := s.set.put t.finish } else none
  | s, .stop id =>
    (s.set.find? id).bind fun t =>
      if t.aborted ∧ t.result.isNone then some { s with set := s.set.put t.stop } else none

def Task.live (t : Task) : Prop := t.aborted = false

structure OnePerBot (s : Supervisor) : Prop where
  spawned : ∀ appId, appId ∈ s.spawned ↔ ∃ t ∈ s.set, t.live ∧ t.appId = appId
  handle : ∀ t ∈ s.set, t.live → s.handles.find? t.appId = some ⟨t.appId, t.id⟩
  single : ∀ t ∈ s.set, ∀ t' ∈ s.set, t.live → t'.live → t.appId = t'.appId → t = t'

def Supervisor.Supervised (s : Supervisor) : Prop := s.draining = false → OnePerBot s

/-- A task that returned is reported finished before another is spawned for its bot. -/
def JoinsOwn (s : Supervisor) : SupervisorAct → Prop
  | .joinNext id => s.draining = false → ∀ t ∈ s.set.find? id, ∀ appId, t.result = some (.ok appId) →
    ∀ h ∈ s.handles.find? appId, h.task = id
  | _ => True

structure SupervisorInv (s : Supervisor) : Prop where
  handles : s.draining = false → ∀ h ∈ s.handles, ∃ t ∈ s.set, t.live ∧ t.appId = h.appId ∧ t.id = h.task
  fresh : ∀ t ∈ s.set, t.id < s.next
  result : ∀ t ∈ s.set, ∀ appId, t.result = some (.ok appId) → appId = t.appId
  stopped : ∀ t ∈ s.set, t.result = some .cancelled → t.aborted = true

variable {s : Supervisor} {t : Task} {appId : ApplicationId}

section Settle

variable {t' : Task} (ht : t ∈ s.set) (hid : t'.id = t.id) (happId : t'.appId = t.appId)
  (haborted : t'.aborted = t.aborted)

include ht hid happId haborted

theorem OnePerBot.settle (h : OnePerBot s) : OnePerBot { s with set := s.set.put t' } := by
  have hiff : t'.live ↔ t.live := by rw [Task.live, haborted, Task.live]
  have hmem : ∀ r, r ∈ s.set.put t' → r.live → ∃ r' ∈ s.set, r'.live ∧ r'.id = r.id ∧ r'.appId = r.appId := by
    intro r hr hlive
    obtain rfl | ⟨hr, -⟩ := Table.mem_put.mp hr
    · exact ⟨t, ht, hiff.mp hlive, hid.symm, happId.symm⟩
    · exact ⟨r, hr, hlive, rfl, rfl⟩
  exact {
    spawned := fun appId => by
      rw [h.spawned]
      constructor
      · rintro ⟨r, hr, hlive, rfl⟩
        by_cases e : r.id = t'.id
        · obtain rfl := Table.eq_of_key_eq hr ht (e.trans hid)
          exact ⟨t', Table.mem_put.mpr (.inl rfl), hiff.mpr hlive, happId⟩
        · exact ⟨r, Table.mem_put.mpr (.inr ⟨hr, e⟩), hlive, rfl⟩
      · rintro ⟨r, hr, hlive, rfl⟩
        obtain ⟨r', hr', hlive', -, e⟩ := hmem r hr hlive
        exact ⟨r', hr', hlive', e⟩
    handle := fun r hr hlive => by
      obtain ⟨r', hr', hlive', e, e'⟩ := hmem r hr hlive
      rw [← e, ← e']
      exact h.handle r' hr' hlive'
    single := fun r hr r' hr' hlive hlive' hsame => by
      obtain ⟨x, hx, hxlive, e, e'⟩ := hmem r hr hlive
      obtain ⟨x', hx', hxlive', k, k'⟩ := hmem r' hr' hlive'
      obtain rfl := h.single x hx x' hx' hxlive hxlive' (e'.trans (hsame.trans k'.symm))
      exact Table.eq_of_key_eq hr hr' (e.symm.trans k) }

theorem SupervisorInv.settle (h : SupervisorInv s)
    (hresult : ∀ appId, t'.result = some (.ok appId) → appId = t.appId)
    (hstopped : t'.result = some .cancelled → t'.aborted = true) :
    SupervisorInv { s with set := s.set.put t' } where
  handles hd handle hhandle := by
    obtain ⟨r, hr, hlive, happ, e⟩ := h.handles hd handle hhandle
    by_cases hrt : r.id = t'.id
    · obtain rfl := Table.eq_of_key_eq hr ht (hrt.trans hid)
      exact ⟨t', Table.mem_put.mpr (.inl rfl), haborted.trans hlive, happId.trans happ, hid.trans e⟩
    · exact ⟨r, Table.mem_put.mpr (.inr ⟨hr, hrt⟩), hlive, happ, e⟩
  fresh r hr := by
    obtain rfl | ⟨hr, -⟩ := Table.mem_put.mp hr
    · exact hid ▸ h.fresh t ht
    · exact h.fresh r hr
  result r hr appId e := by
    obtain rfl | ⟨hr, -⟩ := Table.mem_put.mp hr
    · exact (hresult appId e).trans happId.symm
    · exact h.result r hr appId e
  stopped r hr e := by
    obtain rfl | ⟨hr, -⟩ := Table.mem_put.mp hr
    · exact hstopped e
    · exact h.stopped r hr e

end Settle

section Spawn

theorem OnePerBot.spawnConnection (h : OnePerBot s) (hinv : SupervisorInv s) :
    OnePerBot (s.spawnConnection appId) := by
  unfold Supervisor.spawnConnection
  split
  · exact h
  · next hnew =>
    have hnone : ∀ t ∈ s.set, t.live → t.appId ≠ appId := fun t ht hlive e =>
      hnew ((h.spawned appId).mpr ⟨t, ht, hlive, e⟩)
    have hold : ∀ t ∈ s.set, t.id ≠ s.next := fun t ht => (hinv.fresh t ht).ne
    exact {
      spawned := fun appId' => by
        rw [List.mem_cons, h.spawned]
        constructor
        · rintro (rfl | ⟨t, ht, hlive, e⟩)
          · exact ⟨_, Table.mem_put.mpr (.inl rfl), rfl, rfl⟩
          · exact ⟨t, Table.mem_put.mpr (.inr ⟨ht, hold t ht⟩), hlive, e⟩
        · rintro ⟨t, ht, hlive, e⟩
          obtain rfl | ⟨ht, -⟩ := Table.mem_put.mp ht
          · exact .inl e.symm
          · exact .inr ⟨t, ht, hlive, e⟩
      handle := fun t ht hlive => by
        obtain rfl | ⟨ht, -⟩ := Table.mem_put.mp ht
        · exact Table.find?_put_self s.handles ⟨appId, s.next⟩
        · rw [Table.find?_put_ne _ (hnone t ht hlive).symm]
          exact h.handle t ht hlive
      single := fun t ht t' ht' hlive hlive' hsame => by
        obtain rfl | ⟨ht, -⟩ := Table.mem_put.mp ht <;> obtain rfl | ⟨ht', -⟩ := Table.mem_put.mp ht'
        · rfl
        · exact absurd hsame.symm (hnone t' ht' hlive')
        · exact absurd hsame (hnone t ht hlive)
        · exact h.single t ht t' ht' hlive hlive' hsame }

theorem SupervisorInv.spawnConnection (h : SupervisorInv s) :
    SupervisorInv (s.spawnConnection appId) := by
  unfold Supervisor.spawnConnection
  split
  · exact h
  · have hold : ∀ t ∈ s.set, t.id ≠ s.next := fun t ht => (h.fresh t ht).ne
    exact {
      handles := fun hd handle hhandle => by
        obtain rfl | ⟨hhandle, -⟩ := Table.mem_put.mp hhandle
        · exact ⟨_, Table.mem_put.mpr (.inl rfl), rfl, rfl, rfl⟩
        · obtain ⟨t, ht, hrest⟩ := h.handles hd handle hhandle
          exact ⟨t, Table.mem_put.mpr (.inr ⟨ht, hold t ht⟩), hrest⟩
      fresh := fun t ht => by
        obtain rfl | ⟨ht, -⟩ := Table.mem_put.mp ht
        · exact Nat.lt_succ_self _
        · exact Nat.lt_succ_of_lt (h.fresh t ht)
      result := fun t ht appId' e => by
        obtain rfl | ⟨ht, -⟩ := Table.mem_put.mp ht
        · cases e
        · exact h.result t ht appId' e
      stopped := fun t ht e => by
        obtain rfl | ⟨ht, -⟩ := Table.mem_put.mp ht
        · cases e
        · exact h.stopped t ht e }

end Spawn

section Forget

theorem mem_forget_spawned {appId' : ApplicationId} :
    appId' ∈ (s.forget appId).spawned ↔ appId' ∈ s.spawned ∧ appId' ≠ appId := by
  simp [Supervisor.forget]

theorem find?_forget {appId' : ApplicationId} (h : appId' ≠ appId) :
    (s.forget appId).handles.find? appId' = s.handles.find? appId' := by
  rw [Supervisor.forget, Table.find?_delete]
  cases hfind : s.handles.find? appId' with
  | none => rfl
  | some handle =>
    have hkey : handle.appId = appId' := Table.key_of_find? hfind
    simp [hkey, h]

theorem OnePerBot.forget (h : OnePerBot s) (set : Table Task)
    (hset : ∀ t, t ∈ set ∧ t.live ↔ t ∈ s.set ∧ t.live ∧ t.appId ≠ appId) :
    OnePerBot { s.forget appId with set } where
  spawned appId' := by
    rw [mem_forget_spawned, h.spawned]
    constructor
    · rintro ⟨⟨t, ht, hlive, rfl⟩, hne⟩
      obtain ⟨ht', -⟩ := (hset t).mpr ⟨ht, hlive, hne⟩
      exact ⟨t, ht', hlive, rfl⟩
    · rintro ⟨t, ht, hlive, rfl⟩
      obtain ⟨ht, -, hne⟩ := (hset t).mp ⟨ht, hlive⟩
      exact ⟨⟨t, ht, hlive, rfl⟩, hne⟩
  handle t ht hlive := by
    obtain ⟨ht, -, hne⟩ := (hset t).mp ⟨ht, hlive⟩
    exact (find?_forget hne).trans (h.handle t ht hlive)
  single t ht t' ht' hlive hlive' :=
    h.single t ((hset t).mp ⟨ht, hlive⟩).1 t' ((hset t').mp ⟨ht', hlive'⟩).1 hlive hlive'

theorem SupervisorInv.forget (h : SupervisorInv s) (set : Table Task)
    (hset : ∀ r ∈ s.set, r.live → r.appId ≠ appId → r ∈ set)
    (hback : ∀ t ∈ set, ∃ r ∈ s.set, t.id = r.id ∧ t.appId = r.appId ∧ t.result = r.result ∧
      (r.aborted = true → t.aborted = true)) :
    SupervisorInv { s.forget appId with set } where
  handles hd handle hhandle := by
    obtain ⟨hhandle, hne⟩ := Table.mem_delete.mp hhandle
    obtain ⟨r, hr, hlive, happId, hid⟩ := h.handles hd handle hhandle
    refine ⟨r, hset r hr hlive ?_, hlive, happId, hid⟩
    rw [happId]
    exact of_decide_eq_false hne
  fresh t ht := by
    obtain ⟨r, hr, hid, -⟩ := hback t ht
    rw [hid]
    exact h.fresh r hr
  result t ht appId' e := by
    obtain ⟨r, hr, -, happId, hresult, -⟩ := hback t ht
    rw [happId]
    exact h.result r hr appId' (hresult ▸ e)
  stopped t ht e := by
    obtain ⟨r, hr, -, -, hresult, haborted⟩ := hback t ht
    exact haborted (h.stopped r hr (hresult ▸ e))

end Forget

section Steps

theorem OnePerBot.disconnect (h : OnePerBot s) (hinv : SupervisorInv s) (hd : s.draining = false) :
    OnePerBot (s.disconnect appId) := by
  unfold Supervisor.disconnect
  split
  · next handle hfind =>
    obtain ⟨hmem, hkey⟩ := Table.find?_eq_some.mp hfind
    obtain ⟨t, ht, hlive, happId, hid⟩ := hinv.handles hd handle hmem
    have happ : t.appId = appId := happId.trans hkey
    rw [Supervisor.abort, show (s.forget appId).set.find? handle.task = some t from
      hid ▸ Table.find?_of_mem ht]
    refine h.forget _ fun r => ?_
    rw [Table.mem_put]
    constructor
    · rintro ⟨rfl | ⟨hr, hne⟩, hrlive⟩
      · cases hrlive
      · refine ⟨hr, hrlive, fun e => hne ?_⟩
        rw [h.single r hr t ht hrlive hlive (e.trans happ.symm)]
        rfl
    · rintro ⟨hr, hrlive, hne⟩
      refine ⟨.inr ⟨hr, fun e => hne ?_⟩, hrlive⟩
      rw [Table.eq_of_key_eq hr ht e, happ]
  · next hfind =>
    refine h.forget s.set fun r => and_congr_right fun hr => ?_
    refine ⟨fun hlive => ⟨hlive, fun e => ?_⟩, And.left⟩
    have hhandle := h.handle r hr hlive
    rw [e, hfind] at hhandle
    cases hhandle

theorem SupervisorInv.disconnect (h : SupervisorInv s) (hd : s.draining = false) :
    SupervisorInv (s.disconnect appId) := by
  unfold Supervisor.disconnect
  split
  · next handle hfind =>
    obtain ⟨hmem, hkey⟩ := Table.find?_eq_some.mp hfind
    obtain ⟨t, ht, hlive, happId, hid⟩ := h.handles hd handle hmem
    have happ : t.appId = appId := happId.trans hkey
    rw [Supervisor.abort, show (s.forget appId).set.find? handle.task = some t from
      hid ▸ Table.find?_of_mem ht]
    refine h.forget _ (fun r hr _ hne => ?_) fun r hr => ?_
    · refine Table.mem_put.mpr (.inr ⟨hr, fun e => hne ?_⟩)
      rw [Table.eq_of_key_eq hr ht e, happ]
    · obtain rfl | ⟨hr, -⟩ := Table.mem_put.mp hr
      · exact ⟨t, ht, rfl, rfl, rfl, fun _ => rfl⟩
      · exact ⟨r, hr, rfl, rfl, rfl, id⟩
  · exact h.forget s.set (fun _ hr _ _ => hr) fun r hr => ⟨r, hr, rfl, rfl, rfl, id⟩

theorem SupervisorInv.remove (h : SupervisorInv s) (ht : t ∈ s.set)
    (hd : s.draining = false → t.aborted = true) :
    SupervisorInv { s with set := s.set.delete (·.id = t.id) } where
  handles hrunning handle hhandle := by
    obtain ⟨r, hr, hlive, hrest⟩ := h.handles hrunning handle hhandle
    refine ⟨r, Table.mem_delete.mpr ⟨hr, decide_eq_false fun e => ?_⟩, hlive, hrest⟩
    rw [Table.eq_of_key_eq hr ht e, Task.live, hd hrunning] at hlive
    cases hlive
  fresh r hr := h.fresh r (Table.mem_delete.mp hr).1
  result r hr := h.result r (Table.mem_delete.mp hr).1
  stopped r hr := h.stopped r (Table.mem_delete.mp hr).1

theorem OnePerBot.remove (h : OnePerBot s) (ht : t ∈ s.set) (haborted : t.aborted = true) :
    OnePerBot { s with set := s.set.delete (·.id = t.id) } := by
  have hset : ∀ r, r ∈ s.set.delete (·.id = t.id) ∧ r.live ↔ r ∈ s.set ∧ r.live := by
    intro r
    rw [Table.mem_delete]
    refine ⟨fun hr => ⟨hr.1.1, hr.2⟩, fun hr => ⟨⟨hr.1, decide_eq_false fun e => ?_⟩, hr.2⟩⟩
    have hlive := hr.2
    rw [Table.eq_of_key_eq hr.1 ht e, Task.live, haborted] at hlive
    cases hlive
  exact {
    spawned := fun appId => by
      rw [h.spawned]
      refine exists_congr fun r => ?_
      rw [← and_assoc, ← and_assoc, hset]
    handle := fun r hr hlive => h.handle r ((hset r).mp ⟨hr, hlive⟩).1 hlive
    single := fun r hr r' hr' hlive hlive' =>
      h.single r ((hset r).mp ⟨hr, hlive⟩).1 r' ((hset r').mp ⟨hr', hlive'⟩).1 hlive hlive' }

theorem joined_ok (hresult : t.result = some (.ok appId)) (hd : s.draining = false) :
    s.joined t = { s.forget appId with set := s.set.delete (·.id = t.id) } := by
  rw [Supervisor.joined, hresult]
  exact if_neg (by simp [hd])

theorem joined_other (h : s.draining = false → ∀ appId, t.result ≠ some (.ok appId)) :
    s.joined t = { s with set := s.set.delete (·.id = t.id) } := by
  unfold Supervisor.joined
  split
  · next appId hresult =>
    cases hd : s.draining with
    | false => exact absurd hresult (h hd appId)
    | true => exact if_pos rfl
  · rfl

theorem onePerBot_joined (h : OnePerBot s) (hinv : SupervisorInv s) (hd : s.draining = false)
    (ht : t ∈ s.set) (hresult : t.result = some (.ok appId)) :
    OnePerBot (s.joined t) ↔ ∀ handle ∈ s.handles.find? appId, handle.task = t.id := by
  obtain rfl := hinv.result t ht appId hresult
  rw [joined_ok hresult hd]
  constructor
  · intro hP handle hhandle
    obtain ⟨hmem, hkey⟩ := Table.find?_eq_some.mp hhandle
    obtain ⟨r, hr, hlive, happId, hid⟩ := hinv.handles hd handle hmem
    by_contra hne
    have hr' : r ∈ s.set.delete (·.id = t.id) :=
      Table.mem_delete.mpr ⟨hr, decide_eq_false fun e => hne (hid.symm.trans e)⟩
    have hspawned := (hP.spawned t.appId).mpr ⟨r, hr', hlive, happId.trans hkey⟩
    exact (mem_forget_spawned.mp hspawned).2 rfl
  · intro hown
    refine h.forget _ fun r => ?_
    rw [Table.mem_delete, decide_eq_false_iff_not]
    constructor
    · rintro ⟨⟨hr, hne⟩, hlive⟩
      refine ⟨hr, hlive, fun e => hne ?_⟩
      have hhandle := h.handle r hr hlive
      rw [e] at hhandle
      exact hown _ hhandle
    · rintro ⟨hr, hlive, hne⟩
      exact ⟨⟨hr, fun e => hne (congrArg Task.appId (Table.eq_of_key_eq hr ht e))⟩, hlive⟩

theorem SupervisorInv.joined (h : SupervisorInv s) (ht : t ∈ s.set) (hresult : t.result.isSome) :
    SupervisorInv (s.joined t) := by
  by_cases hok : s.draining = false ∧ ∃ appId, t.result = some (.ok appId)
  · obtain ⟨hd, appId, hok⟩ := hok
    obtain rfl := h.result t ht appId hok
    rw [joined_ok hok hd]
    refine h.forget _ (fun r hr _ hne => ?_) fun r hr => ?_
    · refine Table.mem_delete.mpr ⟨hr, decide_eq_false fun e => hne ?_⟩
      rw [Table.eq_of_key_eq hr ht e]
    · exact ⟨r, (Table.mem_delete.mp hr).1, rfl, rfl, rfl, id⟩
  · rw [joined_other fun hd appId e => hok ⟨hd, appId, e⟩]
    refine h.remove ht fun hd => h.stopped t ht ?_
    obtain ⟨joined, hjoined⟩ := Option.isSome_iff_exists.mp hresult
    cases joined with
    | ok appId => exact absurd ⟨hd, appId, hjoined⟩ hok
    | cancelled => exact hjoined

theorem mem_abortAll : t ∈ s.abortAll.set ↔ ∃ r ∈ s.set, r.abort = t := by
  rw [Supervisor.abortAll, Table.mem_modify]

theorem SupervisorInv.abortAll (h : SupervisorInv s) : SupervisorInv s.abortAll where
  handles hd := by cases hd
  fresh t ht := by
    obtain ⟨r, hr, rfl⟩ := mem_abortAll.mp ht
    exact h.fresh r hr
  result t ht appId e := by
    obtain ⟨r, hr, rfl⟩ := mem_abortAll.mp ht
    exact h.result r hr appId e
  stopped t ht _ := by
    obtain ⟨r, -, rfl⟩ := mem_abortAll.mp ht
    rfl

theorem joined_draining : (s.joined t).draining = s.draining := by
  unfold Supervisor.joined
  split
  · dsimp only
    split <;> rfl
  · rfl

theorem SupervisorInv.step (h : SupervisorInv s) {a : SupervisorAct} {s' : Supervisor}
    (hstep : supervisorStep s a = some s') : SupervisorInv s' := by
  cases a with
  | connect appId =>
    obtain ⟨-, hstep⟩ := Option.ite_none_left_eq_some.mp hstep
    cases hstep
    exact h.spawnConnection
  | disconnect appId =>
    obtain ⟨hd, hstep⟩ := Option.ite_none_left_eq_some.mp hstep
    cases hstep
    exact h.disconnect (by simpa using hd)
  | joinNext id =>
    obtain ⟨t, ht, hstep⟩ := Option.bind_eq_some_iff.mp hstep
    obtain ⟨hresult, hstep⟩ := Option.ite_none_right_eq_some.mp hstep
    cases hstep
    exact h.joined (Table.mem_of_find? ht) hresult
  | cancel =>
    obtain ⟨-, hstep⟩ := Option.ite_none_left_eq_some.mp hstep
    cases hstep
    exact h.abortAll
  | finish id =>
    obtain ⟨t, ht, hstep⟩ := Option.bind_eq_some_iff.mp hstep
    obtain ⟨-, hstep⟩ := Option.ite_none_right_eq_some.mp hstep
    cases hstep
    refine h.settle (Table.mem_of_find? ht) rfl rfl rfl (fun appId e => ?_) fun e => by cases e
    cases e
    rfl
  | stop id =>
    obtain ⟨t, ht, hstep⟩ := Option.bind_eq_some_iff.mp hstep
    obtain ⟨⟨haborted, -⟩, hstep⟩ := Option.ite_none_right_eq_some.mp hstep
    cases hstep
    exact h.settle (Table.mem_of_find? ht) rfl rfl rfl (fun appId e => by cases e) fun _ => haborted

theorem supervised_step (hinv : SupervisorInv s) (h : s.Supervised) {a : SupervisorAct}
    {s' : Supervisor} (hstep : supervisorStep s a = some s') : s'.Supervised ↔ JoinsOwn s a := by
  cases a with
  | connect appId =>
    obtain ⟨hd, hstep⟩ := Option.ite_none_left_eq_some.mp hstep
    cases hstep
    exact iff_of_true (fun _ => (h (by simpa using hd)).spawnConnection hinv) trivial
  | disconnect appId =>
    obtain ⟨hd, hstep⟩ := Option.ite_none_left_eq_some.mp hstep
    cases hstep
    have hd : s.draining = false := by simpa using hd
    exact iff_of_true (fun _ => (h hd).disconnect hinv hd) trivial
  | joinNext id =>
    obtain ⟨t, hfind, hstep⟩ := Option.bind_eq_some_iff.mp hstep
    obtain ⟨hresult, hstep⟩ := Option.ite_none_right_eq_some.mp hstep
    cases hstep
    obtain ⟨ht, rfl⟩ := Table.find?_eq_some.mp hfind
    rw [Supervisor.Supervised, joined_draining]
    refine forall_congr' fun hd => ?_
    rw [hfind]
    by_cases hok : ∃ appId, t.result = some (.ok appId)
    · obtain ⟨appId, hok⟩ := hok
      rw [onePerBot_joined (h hd) hinv hd ht hok]
      constructor
      · intro hown r hr appId' e
        cases hr
        cases hok.symm.trans e
        exact hown
      · exact fun hown => hown t rfl appId hok
    · refine iff_of_true ?_ fun r hr appId e => ?_
      · rw [joined_other fun _ appId e => hok ⟨appId, e⟩]
        refine (h hd).remove ht (hinv.stopped t ht ?_)
        obtain ⟨joined, hjoined⟩ := Option.isSome_iff_exists.mp hresult
        cases joined with
        | ok appId => exact absurd ⟨appId, hjoined⟩ hok
        | cancelled => exact hjoined
      · cases hr
        exact absurd ⟨appId, e⟩ hok
  | cancel =>
    obtain ⟨-, hstep⟩ := Option.ite_none_left_eq_some.mp hstep
    cases hstep
    exact iff_of_true (fun hd => by cases hd) trivial
  | finish id =>
    obtain ⟨t, ht, hstep⟩ := Option.bind_eq_some_iff.mp hstep
    obtain ⟨-, hstep⟩ := Option.ite_none_right_eq_some.mp hstep
    cases hstep
    exact iff_of_true (fun hd => (h hd).settle (Table.mem_of_find? ht) rfl rfl rfl) trivial
  | stop id =>
    obtain ⟨t, ht, hstep⟩ := Option.bind_eq_some_iff.mp hstep
    obtain ⟨-, hstep⟩ := Option.ite_none_right_eq_some.mp hstep
    cases hstep
    exact iff_of_true (fun hd => (h hd).settle (Table.mem_of_find? ht) rfl rfl rfl) trivial

end Steps

section Runs

theorem supervisorInv_new : SupervisorInv .new where
  handles _ handle h := absurd h (Table.not_mem_empty handle)
  fresh t h := absurd h (Table.not_mem_empty t)
  result t h := absurd h (Table.not_mem_empty t)
  stopped t h := absurd h (Table.not_mem_empty t)

theorem onePerBot_new : OnePerBot .new where
  spawned appId := by simp [Supervisor.new]
  handle t h := absurd h (Table.not_mem_empty t)
  single t h := absurd h (Table.not_mem_empty t)

theorem supervised_foldl (targets : List ApplicationId) (hinv : SupervisorInv s) (h : OnePerBot s) :
    SupervisorInv (targets.foldl .spawnConnection s) ∧
      OnePerBot (targets.foldl .spawnConnection s) := by
  induction targets generalizing s with
  | nil => exact ⟨hinv, h⟩
  | cons target targets ih => exact ih hinv.spawnConnection (h.spawnConnection hinv)

theorem supervisor_starts (listed : Except DiscordError (List ApplicationId)) :
    SupervisorInv (supervisor listed) ∧ OnePerBot (supervisor listed) := by
  cases listed with
  | ok targets => exact supervised_foldl targets supervisorInv_new onePerBot_new
  | error e => exact ⟨supervisorInv_new, onePerBot_new⟩

theorem supervised_iff_joinsOwn (listed : Except DiscordError (List ApplicationId))
    (as : List SupervisorAct) :
    Always supervisorStep Supervisor.Supervised (supervisor listed) as ↔
      Steps supervisorStep JoinsOwn (supervisor listed) as :=
  have hstarts := supervisor_starts listed
  always_iff_steps SupervisorInv (fun _ _ _ hinv _ hstep _ => hinv.step hstep)
    (fun _ _ _ hinv h hstep => supervised_step hinv h hstep) hstarts.1 (fun _ => hstarts.2) as

namespace Sample

def application : ApplicationId := ⟨"4", by decide, by decide, by decide, by decide⟩

def reconnected : List SupervisorAct :=
  [.connect application, .finish 0, .disconnect application, .connect application, .joinNext 0, .connect application]

end Sample

theorem supervised_twice : ¬ ∀ (listed : Except DiscordError (List ApplicationId))
    (as : List SupervisorAct), Always supervisorStep Supervisor.Supervised (supervisor listed) as := by
  intro h
  obtain ⟨s, hrun, hd, hset⟩ : ∃ s, run supervisorStep (supervisor (.ok [])) Sample.reconnected = some s
      ∧ s.draining = false ∧ s.set.rows = [⟨1, Sample.application, false, none⟩, ⟨2, Sample.application, false, none⟩] :=
    ⟨_, rfl, rfl, rfl⟩
  have hP := (h (.ok []) Sample.reconnected).run hrun hd
  have hone := hP.single ⟨1, Sample.application, false, none⟩ (by rw [Table.mem_def, hset]; simp)
    ⟨2, Sample.application, false, none⟩ (by rw [Table.mem_def, hset]; simp) rfl rfl rfl
  cases hone

end Runs

end Patom.Discord
