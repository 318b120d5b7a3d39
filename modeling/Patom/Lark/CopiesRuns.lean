import Patom.Lark.Copies

open Patom.Foundation
open Patom.Runtime (IdempotencyKey)

namespace Patom.Lark

variable {d : BridgeDeps} {lark : LarkEvents} {w : InboundWork} {app : LarkApp}
  {user : LarkUserId} {k : IdempotencyKey} {db db' : BridgeSt} {j : Job} {pc pc' : Pc}
  {id : ThreadId} {s t : ChatSt} {h : Handler}

theorem colon_not_mem (x : LarkId) : ':' ∉ x.asStr.toList := fun h => by
  have hc := List.all_eq_true.mp x.chars ':' h
  revert hc
  decide

theorem append_cons_inj {α : Type} {a b a' b' : List α} {c : α} (ha : c ∉ a) (ha' : c ∉ a')
    (h : a ++ c :: b = a' ++ c :: b') : a = a' ∧ b = b' := by
  induction a generalizing a' with
  | nil =>
    cases a' with
    | nil => exact ⟨rfl, (List.cons.inj h).2⟩
    | cons x a' => exact absurd ((List.cons.inj h).1 ▸ List.mem_cons_self) ha'
  | cons x a ih =>
    cases a' with
    | nil => exact absurd ((List.cons.inj h).1 ▸ List.mem_cons_self) ha
    | cons x' a' =>
      obtain ⟨rfl, htail⟩ := List.cons.inj h
      obtain ⟨rfl, rfl⟩ := ih (fun hx => ha (List.mem_cons_of_mem x hx))
        (fun hx => ha' (List.mem_cons_of_mem x hx)) htail
      exact ⟨rfl, rfl⟩

theorem asStr_of_tryFrom {raw : String} (h : IdempotencyKey.tryFrom raw = .ok k) :
    k.asStr = raw := by
  unfold IdempotencyKey.tryFrom at h
  split at h
  · cases h
  · split at h
    · cases h
      rfl
    · cases h

theorem asStr_of_key {m : InboundMessage} (h : messageIdempotencyKey m = .ok k) :
    k.asStr = "lark:" ++ m.tenantKey.asStr ++ ":" ++ m.eventId.asStr := by
  unfold messageIdempotencyKey at h
  cases hraw : IdempotencyKey.tryFrom
      ("lark:" ++ m.tenantKey.asStr ++ ":" ++ m.eventId.asStr) with
  | error e =>
    rw [hraw] at h
    cases h
  | ok k' =>
    rw [hraw] at h
    cases h
    exact asStr_of_tryFrom hraw

theorem key_inj {m m' : InboundMessage} (h : messageIdempotencyKey m = .ok k)
    (h' : messageIdempotencyKey m' = .ok k) :
    m.tenantKey = m'.tenantKey ∧ m.eventId = m'.eventId := by
  have e := congrArg String.toList ((asStr_of_key h).symm.trans (asStr_of_key h'))
  simp only [String.toList_append, List.append_assoc] at e
  have e' := List.append_cancel_left e
  obtain ⟨ht, he⟩ := append_cons_inj (c := ':') (colon_not_mem _) (colon_not_mem _) e'
  exact ⟨LarkId.ext (String.toList_injective ht), LarkId.ext (String.toList_injective he)⟩

theorem work_of_key {w' : InboundWork} (hw : w ∈ lark.all) (hw' : w' ∈ lark.all)
    (h : messageIdempotencyKey w.event = .ok k) (h' : messageIdempotencyKey w'.event = .ok k) :
    w' = w := by
  obtain ⟨ht, he⟩ := key_inj h' h
  exact lark.distinct w' hw' w hw ht he

theorem hasKey_iff {k' : IdempotencyKey} (h : messageIdempotencyKey w.event = .ok k) :
    hasKey k' w = true ↔ k' = k := by
  rw [hasKey, h]
  simp [Except.toOption, eq_comm]

def Pc.idem? : Pc → Option IdempotencyKey
  | .append _ _ k _ | .participation _ _ k _ | .enqueue _ _ k _ _ => some k
  | .shadow | .channel _ | .lookup _ _ | .create _ _ | .bind _ _ | .receiver _ _ | .done
  | .failed _ => none

def Progress (w : InboundWork) (app : LarkApp) (k : IdempotencyKey) (db : BridgeSt)
    (id : ThreadId) : Pc → Prop
  | .shadow | .channel _ | .lookup _ _ => True
  | .create _ _ => lookupByThread w.threadKey db = none
  | .bind _ t => t = id ∧ lookupByThread w.threadKey db = none
  | .receiver _ t | .append _ t _ _ => lookupByThread w.threadKey db = some t
  | .participation _ t _ _ | .enqueue _ t _ _ _ =>
    lookupByThread w.threadKey db = some t ∧ isTrigger w = true
      ∧ (db.feed.find? (app.orgId, k)).isSome
  | .done => (db.feed.find? (app.orgId, k)).isSome
    ∧ (isTrigger w = true → (db.triggers.find? (app.orgId, k)).isSome)
  | .failed _ => False

section Outcome

variable (hadv : Advanced d j db pc pc' db')
include hadv

theorem Advanced.lookup_mono {K : ThreadKey} {t : ThreadId} (h : lookupByThread K db = some t) :
    lookupByThread K db' = some t := by
  obtain e | ⟨c, t', -, -, e⟩ := hadv.lookup K
  · exact e.trans h
  · rw [e, h, Option.some_or]

theorem Advanced.lookup_none {K : ThreadKey} (h : lookupByThread K db = none)
    (hpc : pc.creating = false ∨ j.key ≠ K) : lookupByThread K db' = none := by
  obtain e | ⟨c, t', rfl, -, e⟩ := hadv.lookup K
  · exact e.trans h
  · obtain hpc | hpc := hpc
    · cases hpc
    · rw [e, h, if_neg hpc, Option.none_or]

theorem Advanced.feed_mono {key : OrgId × IdempotencyKey} (h : (db.feed.find? key).isSome) :
    (db'.feed.find? key).isSome := by
  obtain e | ⟨c, t, k, r, t', message, -, -, -, e⟩ := hadv.feed
  · rwa [e]
  · rw [e, Table.find?_put]
    split
    · rfl
    · exact h

theorem Advanced.triggers_mono {key : OrgId × IdempotencyKey} (h : (db.triggers.find? key).isSome) :
    (db'.triggers.find? key).isSome := by
  obtain e | ⟨c, t, k, message, state, id, -, e⟩ := hadv.triggers
  · rwa [e]
  · rw [e, Table.find?_addNew, Option.or_of_isSome h]
    exact h

theorem Advanced.idem : ∀ i ∈ pc'.idem?, i ∈ pc.idem?
    ∨ messageIdempotencyKey j.work.event = .ok i := by
  intro i hi
  cases hadv with
  | addressed h =>
    cases hi
    exact .inr h
  | appended h =>
    split at hi
    · exact .inl hi
    · cases hi
  | shadow | channel | found | missed | created | bound | enqueued | failed => cases hi
  | joined h => exact .inl hi
  | ended h => exact .inl hi

theorem Advanced.early (h : pc'.early = true) : pc.early = true := by
  cases hadv with
  | shadow | channel | missed => rfl
  | appended => split at h <;> cases h
  | found | created | bound | addressed | joined | enqueued | failed => cases h
  | ended => exact h

theorem Advanced.ne_shadow : pc' ≠ .shadow := by
  rintro rfl
  generalize hp : Pc.shadow = p at hadv
  cases hadv with
  | appended => split at hp <;> cases hp
  | ended h => subst hp; cases h
  | shadow | channel | found | missed | created | bound | addressed | joined | enqueued
  | failed => cases hp

theorem Advanced.creating (h : pc'.creating = true) :
    pc.creating = true ∨ (∃ c channel, pc = .lookup c channel)
      ∧ lookupByThread j.key db = none := by
  cases hadv with
  | missed hnone => exact .inr ⟨⟨_, _, rfl⟩, hnone⟩
  | created => exact .inl rfl
  | appended => split at h <;> cases h
  | shadow | channel | found | bound | addressed | joined | enqueued | failed => cases h
  | ended => exact .inl h

end Outcome

theorem Advanced.bound_to {c : ShadowColleague} {t : ThreadId}
    (hadv : Advanced d j db (.bind c t) pc' db') (hne : ∀ e, pc' ≠ .failed e)
    (hnone : lookupByThread j.key db = none) : lookupByThread j.key db' = some t := by
  cases hadv with
  | bound => rw [lookupByThread_bind, hnone, if_pos rfl, Option.none_or]
  | failed e => exact absurd rfl (hne e)
  | ended h => cases h

theorem Advanced.made {c : ShadowColleague} {t : ThreadId}
    (hadv : Advanced d j db pc (.bind c t) db') (hs : Sealed db) : ThreadOf db' j.app.orgId t := by
  generalize hp : Pc.bind c t = p at hadv
  cases hadv with
  | created h =>
    cases hp
    exact (createThread_keeps hs h).2.2.2
  | appended => split at hp <;> cases hp
  | ended h =>
    subst hp
    cases h
  | shadow | channel | found | missed | bound | addressed | joined | enqueued | failed => cases hp

theorem Advanced.progress (hadv : Advanced d j db pc pc' db') (hw : j.work = w) (happ : j.app = app)
    (hidem : ∀ i ∈ pc.idem?, i = k) (hin : InOrg app.orgId pc db)
    (hp : Progress w app k db j.mint.thread pc) (hne : ∀ e, pc' ≠ .failed e) :
    Progress w app k db' j.mint.thread pc' := by
  subst hw happ
  have hmono : ∀ t, lookupByThread j.work.threadKey db = some t →
      lookupByThread j.work.threadKey db' = some t := fun t => hadv.lookup_mono
  have hfeed : (db.feed.find? (j.app.orgId, k)).isSome →
      (db'.feed.find? (j.app.orgId, k)).isSome := hadv.feed_mono
  cases hadv with
  | shadow | channel => trivial
  | found h => exact h
  | missed h => exact h
  | created h =>
    obtain ⟨ht, threads, rfl, -⟩ := createThread_rows h
    exact ⟨ht, hp⟩
  | bound =>
    refine (lookupByThread_bind (K := j.work.threadKey)).trans ?_
    rw [hp.2, Option.none_or]
    exact if_pos rfl
  | addressed h => exact hp
  | appended h =>
    obtain rfl := hidem _ rfl
    have hrow := append_isSome (hin.thread _ rfl) h
    split
    · exact ⟨hmono _ hp, ‹_›, hrow⟩
    · exact ⟨hrow, fun htrigger => absurd htrigger ‹_›⟩
  | joined h => exact ⟨hmono _ hp.1, hp.2.1, hfeed hp.2.2⟩
  | enqueued h =>
    obtain rfl := hidem _ rfl
    refine ⟨hfeed hp.2.2, fun _ => ?_⟩
    obtain ⟨triggers, rfl, rfl⟩ := enqueueTrigger_rows h
    exact Table.isSome_find?_addNew _ _
  | failed e => exact absurd rfl (hne e)
  | ended => exact hp

theorem Progress.mono (hadv : Advanced d j db pc pc' db') {p : Pc}
    (hp : Progress w app k db id p)
    (hcreating : p.creating = true → pc.creating = false ∨ j.key ≠ w.threadKey) :
    Progress w app k db' id p := by
  cases p with
  | shadow | channel | lookup => trivial
  | create => exact hadv.lookup_none hp (hcreating rfl)
  | bind => exact ⟨hp.1, hadv.lookup_none hp.2 (hcreating rfl)⟩
  | receiver | append => exact hadv.lookup_mono hp
  | participation | enqueue => exact ⟨hadv.lookup_mono hp.1, hp.2.1, hadv.feed_mono hp.2.2⟩
  | done => exact ⟨hadv.feed_mono hp.1, fun h => hadv.triggers_mono (hp.2 h)⟩
  | failed => exact hp

/-- What holds of a store, its handlers, and the rows of one delivery. -/
structure ChatInv (d : BridgeDeps) (lark : LarkEvents) (w : InboundWork) (app : LarkApp)
    (k : IdempotencyKey) (s : ChatSt) : Prop where
  closed : Sealed s.db
  fresh : ∀ h ∈ s.handlers, h.pc = .shadow → h.job.mint.fresh s.db = true
  free : ∀ h ∈ s.handlers, h.pc.early = true → s.db.threads.find? h.job.mint.thread = none
  mints : ∀ h ∈ s.handlers, ∀ h' ∈ s.handlers, key h ≠ key h' →
    h.job.mint.user ≠ h'.job.mint.user ∧ h.job.mint.colleague ≠ h'.job.mint.colleague
  accepted : ∀ h ∈ s.handlers, h.job.work ∈ lark.all
    ∧ accept d h.job.work h.job.mint = .ok (some h.job)
  made : ∀ h ∈ s.handlers, ∀ c t, h.pc = .bind c t → ThreadOf s.db h.job.app.orgId t
  idem : ∀ h ∈ s.handlers, ∀ i ∈ h.pc.idem?, messageIdempotencyKey h.job.work.event = .ok i
  inOrg : ∀ h ∈ s.handlers, h.job.work = w → InOrg app.orgId h.pc s.db
  progress : ∀ h ∈ s.handlers, h.job.work = w → Progress w app k s.db (key h) h.pc
  alone : ∀ h ∈ s.handlers, ∀ h' ∈ s.handlers, h.job.work = w → h.pc.creating = true →
    h'.pc.creating = true → h'.job.key = w.threadKey → key h' = key h
  created : ∀ h ∈ s.handlers, h.job.work = w → ∀ t, s.db.threads.find? (key h) = some t →
    (∃ c, h.pc = .bind c (key h)) ∨ lookupByThread w.threadKey s.db = some (key h)
  feed : ∀ r ∈ s.db.feed, r.idempotencyKey = k →
    r.orgId = app.orgId ∧ lookupByThread w.threadKey s.db = some r.threadId
  triggers : ∀ t ∈ s.db.triggers, t.idempotencyKey = k → t.orgId = app.orgId
    ∧ t.receiverAgentId = app.agentId ∧ isTrigger w = true
    ∧ lookupByThread w.threadKey s.db = some t.threadId
  delivered : w ∈ s.delivered → ∃ h ∈ s.handlers, h.job.work = w

theorem chatInv_init (hk : messageIdempotencyKey w.event = .ok k) (h : Unheard w s) :
    ChatInv d lark w app k s := by
  have hnone : ∀ h', h' ∉ s.handlers := fun h' hh => by
    rw [h.handlers] at hh
    exact Table.not_mem_empty h' hh
  refine ⟨h.closed, ?_, ?_, ?_, ?_, ?_, ?_, ?_, ?_, ?_, ?_, ?_, ?_, ?_⟩
  all_goals first
    | exact fun h' hh => absurd hh (hnone h')
    | skip
  · intro r hr e
    exact absurd ((hasKey_iff hk).mpr e) (by simp [h.feed r hr])
  · intro t ht e
    exact absurd ((hasKey_iff hk).mpr e) (by simp [h.triggers t ht])
  · intro hw
    rw [h.delivered] at hw
    cases hw

theorem Mint.unused_iff {mint : Mint} : mint.unused s = true ↔ mint.fresh s.db = true
    ∧ ∀ h ∈ s.handlers, key h ≠ mint.thread ∧ h.job.mint.user ≠ mint.user
      ∧ h.job.mint.colleague ≠ mint.colleague := by
  simp [Mint.unused, Table.mem_def, key, and_assoc]

theorem ChatInv.deliver_job (hi : ChatInv d lark w app k s) {w' : InboundWork} {mint : Mint}
    (hw' : w' ∈ lark.all) (hmint : mint.unused s = true)
    (hacc : accept d w' mint = .ok (some j)) :
    ChatInv d lark w app k
      { s with handlers := s.handlers.put ⟨j, .shadow⟩, delivered := w' :: s.delivered } := by
  obtain ⟨-, rfl, rfl⟩ := accept_eq_some hacc
  obtain ⟨hfresh, hunused⟩ := Mint.unused_iff.mp hmint
  have hmem : ∀ h ∈ s.handlers.put ⟨j, .shadow⟩, h = ⟨j, .shadow⟩ ∨ h ∈ s.handlers := fun h hh =>
    (Table.mem_put.mp hh).imp id And.left
  refine ⟨hi.closed, ?_, ?_, ?_, ?_, ?_, ?_, ?_, ?_, ?_, ?_, hi.feed, hi.triggers, ?_⟩
  · intro h hh hpc
    obtain rfl | hh := hmem h hh
    · exact hfresh
    · exact hi.fresh h hh hpc
  · intro h hh hpc
    obtain rfl | hh := hmem h hh
    · exact (Mint.fresh_iff.mp hfresh).1
    · exact hi.free h hh hpc
  · intro h hh h' hh' hne
    obtain rfl | hh := hmem h hh <;> obtain rfl | hh' := hmem h' hh'
    · exact absurd rfl hne
    · exact ⟨(hunused h' hh').2.1.symm, (hunused h' hh').2.2.symm⟩
    · exact (hunused h hh).2
    · exact hi.mints h hh h' hh' hne
  · intro h hh
    obtain rfl | hh := hmem h hh
    · exact ⟨hw', hacc⟩
    · exact hi.accepted h hh
  · intro h hh c t hpc
    obtain rfl | hh := hmem h hh
    · cases hpc
    · exact hi.made h hh c t hpc
  · intro h hh i hidem
    obtain rfl | hh := hmem h hh
    · cases hidem
    · exact hi.idem h hh i hidem
  · intro h hh hw
    obtain rfl | hh := hmem h hh
    · exact ⟨fun c hc => (by cases hc), fun t ht => (by cases ht)⟩
    · exact hi.inOrg h hh hw
  · intro h hh hw
    obtain rfl | hh := hmem h hh
    · trivial
    · exact hi.progress h hh hw
  · intro h hh h' hh' hw hpc hpc' hkey
    obtain rfl | hh := hmem h hh
    · cases hpc
    · obtain rfl | hh' := hmem h' hh'
      · cases hpc'
      · exact hi.alone h hh h' hh' hw hpc hpc' hkey
  · intro h hh hw t ht
    obtain rfl | hh := hmem h hh
    · exact absurd ((Mint.fresh_iff.mp hfresh).1.symm.trans ht) (by simp)
    · exact hi.created h hh hw t ht
  · intro hw
    by_cases e : w = j.work
    · exact ⟨⟨j, .shadow⟩, Table.mem_put.mpr (.inl rfl), e.symm⟩
    · obtain ⟨h, hh, hhw⟩ := hi.delivered ((List.mem_cons.mp hw).resolve_left e)
      exact ⟨h, Table.mem_put.mpr (.inr ⟨hh, (hunused h hh).1⟩), hhw⟩

theorem ChatInv.deliver (hp : Plain d w app user k) (hi : ChatInv d lark w app k s)
    {w' : InboundWork} {mint : Mint} (hw' : w' ∈ lark.all) (hmint : mint.unused s = true) :
    ChatInv d lark w app k (s.deliver d w' mint) := by
  have hother : accept d w' mint ≠ accept d w mint →
      ChatInv d lark w app k { s with delivered := w' :: s.delivered } := fun hne =>
    { hi with
      delivered := fun hw => hi.delivered <| (List.mem_cons.mp hw).resolve_left
        fun e => hne (e ▸ rfl) }
  unfold ChatSt.deliver
  cases hacc : accept d w' mint with
  | error e => exact hother (by rw [hacc, hp.accepted]; exact fun h => by cases h)
  | ok o =>
    cases o with
    | none => exact hother (by rw [hacc, hp.accepted]; exact fun h => by cases h)
    | some j => exact hi.deliver_job hw' hmint hacc

theorem moved_or_stayed {x : Handler} (hx : x ∈ s.handlers.put { h with pc := pc' }) :
    x = { h with pc := pc' } ∨ x ∈ s.handlers ∧ key x ≠ key h :=
  Table.mem_put.mp hx

structure Moves (d : BridgeDeps) (lark : LarkEvents) (w : InboundWork) (app : LarkApp)
    (k : IdempotencyKey) (s : ChatSt) (h : Handler) (pc' : Pc) (db' : BridgeSt) : Prop where
  inv : ChatInv d lark w app k s
  mem : h ∈ s.handlers
  adv : Advanced d h.job s.db h.pc pc' db'
  listed : w ∈ lark.all
  key : messageIdempotencyKey w.event = .ok k
  app : h.job.work = w → h.job.app = app
  succeeds : h.job.work = w → ∀ e, pc' ≠ .failed e
  known : h.job.work = w → h.pc = .shadow →
    ∀ r ∈ s.db.handles.find? (h.job.work.event.tenantKey, h.job.user), r.orgId = h.job.app.orgId
  own : h.job.work = w → ∀ c channel, h.pc = .lookup c channel →
    ownThread h.job.app.orgId h.job.key s.db = true
  apart : ∀ c channel, h.pc = .lookup c channel → lookupByThread h.job.key s.db = none →
    ∀ h' ∈ s.handlers, h'.pc.creating = true → h'.job.key = h.job.key →
      h.job.work ≠ w ∧ h'.job.work ≠ w

namespace Moves

variable (m : Moves d lark w app k s h pc' db')
include m

theorem keeps : Sealed db' ∧ Grows s.db db' :=
  m.adv.keeps m.inv.closed (m.inv.fresh h m.mem) (m.inv.made h m.mem)

theorem free {x : Handler} (hkey : Foundation.key x ≠ Foundation.key h)
    (hfree : s.db.threads.find? (Foundation.key x) = none) :
    db'.threads.find? (Foundation.key x) = none := by
  obtain e | ⟨c, channel, -, -, hinsert⟩ := m.adv.threads
  · rwa [e]
  · rw [Table.find?_insert? hinsert, if_neg, hfree]
    exact fun e => hkey e.symm

theorem fresh {x : Handler} (hx : x ∈ s.handlers) (hkey : Foundation.key x ≠ Foundation.key h)
    (hfresh : x.job.mint.fresh s.db = true) : x.job.mint.fresh db' = true := by
  obtain ⟨hfree, hnew⟩ := Mint.fresh_iff.mp hfresh
  refine Mint.fresh_iff.mpr ⟨m.free hkey hfree, fun r hr => ?_⟩
  obtain e | ⟨-, c, e, huser, hid⟩ := m.adv.colleagues
  · exact hnew r (e ▸ hr)
  · rw [e, Table.mem_put] at hr
    obtain rfl | ⟨hr, -⟩ := hr
    · obtain ⟨hu, hc⟩ := m.inv.mints h m.mem x hx fun e => hkey e.symm
      exact ⟨huser ▸ hu, hid ▸ hc⟩
    · exact hnew r hr

theorem inOrg (hw : h.job.work = w) : InOrg app.orgId pc' db' := by
  have happ := m.app hw
  rw [← happ]
  exact m.adv.inOrg m.inv.closed (m.inv.fresh h m.mem) (happ ▸ m.inv.inOrg h m.mem hw)
    (m.known hw) (m.own hw)

theorem idem_eq (hw : h.job.work = w) {i : IdempotencyKey} (hi : i ∈ h.pc.idem?) : i = k := by
  have hkey := m.inv.idem h m.mem i hi
  rw [hw, m.key] at hkey
  exact (Except.ok.inj hkey).symm

theorem work_eq (hk : k ∈ h.pc.idem?) : h.job.work = w :=
  work_of_key m.listed (m.inv.accepted h m.mem).1 m.key (m.inv.idem h m.mem k hk)

theorem progress (hw : h.job.work = w) : Progress w app k db' (Foundation.key h) pc' :=
  m.adv.progress hw (m.app hw) (fun _ hi => m.idem_eq hw hi) (m.inv.inOrg h m.mem hw)
    (m.inv.progress h m.mem hw) (m.succeeds hw)

theorem progress_other {x : Handler} (hx : x ∈ s.handlers)
    (hkey : Foundation.key x ≠ Foundation.key h) (hw : x.job.work = w) :
    Progress w app k db' (Foundation.key x) x.pc := by
  refine (m.inv.progress x hx hw).mono m.adv fun hcreating => ?_
  by_contra hboth
  simp only [not_or, Bool.not_eq_false, not_not] at hboth
  exact hkey (m.inv.alone x hx h m.mem hw hcreating hboth.1 hboth.2).symm

theorem alone {x y : Handler} (hx : x ∈ s.handlers.put { h with pc := pc' })
    (hy : y ∈ s.handlers.put { h with pc := pc' }) (hw : x.job.work = w)
    (hcx : x.pc.creating = true) (hcy : y.pc.creating = true) (hkey : y.job.key = w.threadKey) :
    Foundation.key y = Foundation.key x := by
  obtain rfl | ⟨hx, hkx⟩ := moved_or_stayed hx <;> obtain rfl | ⟨hy, hky⟩ := moved_or_stayed hy
  · rfl
  · obtain hc | ⟨⟨c, channel, hpc⟩, hnone⟩ := m.adv.creating hcx
    · exact m.inv.alone h m.mem y hy hw hc hcy hkey
    · have hsame : y.job.key = h.job.key := hkey.trans (congrArg InboundWork.threadKey hw).symm
      exact absurd hw (m.apart c channel hpc hnone y hy hcy hsame).1
  · obtain hc | ⟨⟨c, channel, hpc⟩, hnone⟩ := m.adv.creating hcy
    · exact m.inv.alone x hx h m.mem hw hcx hc hkey
    · have hsame : x.job.key = h.job.key := (congrArg InboundWork.threadKey hw).trans hkey.symm
      exact absurd hw (m.apart c channel hpc hnone x hx hcx hsame).2
  · exact m.inv.alone x hx y hy hw hcx hcy hkey

theorem created {x : Handler} (hx : x ∈ s.handlers.put { h with pc := pc' })
    (hw : x.job.work = w) {t : PatomThread}
    (ht : db'.threads.find? (Foundation.key x) = some t) :
    (∃ c, x.pc = .bind c (Foundation.key x))
      ∨ lookupByThread w.threadKey db' = some (Foundation.key x) := by
  obtain rfl | ⟨hx, hkey⟩ := moved_or_stayed hx
  · obtain e | ⟨c, channel, -, hpc', -⟩ := m.adv.threads
    · obtain ⟨c, hpc⟩ | hlookup := m.inv.created h m.mem hw t (e ▸ ht)
      · have hprogress := m.inv.progress h m.mem hw
        rw [hpc] at hprogress
        have hadv := hpc ▸ m.adv
        subst hw
        exact .inr (hadv.bound_to (m.succeeds rfl) hprogress.2)
      · exact .inr (m.adv.lookup_mono hlookup)
    · exact .inl ⟨c, hpc'⟩
  · refine (m.inv.created x hx hw t ?_).imp id m.adv.lookup_mono
    obtain e | ⟨c, channel, -, -, hinsert⟩ := m.adv.threads
    · exact e ▸ ht
    · rwa [Table.find?_insert? hinsert, if_neg fun e => hkey e.symm] at ht

theorem feed {r : FeedRow} (hr : r ∈ db'.feed) (hk : r.idempotencyKey = k) :
    r.orgId = app.orgId ∧ lookupByThread w.threadKey db' = some r.threadId := by
  obtain e | ⟨c, t, k', rec, t', message, hpc, ht', -, e⟩ := m.adv.feed
  · obtain ⟨horg, hlookup⟩ := m.inv.feed r (e ▸ hr) hk
    exact ⟨horg, m.adv.lookup_mono hlookup⟩
  · rw [e, Table.mem_put] at hr
    obtain rfl | ⟨hr, -⟩ := hr
    · obtain rfl : k' = k := hk
      have hw := m.work_eq (hpc ▸ rfl)
      have hin := m.inv.inOrg h m.mem hw
      have hlookup := m.inv.progress h m.mem hw
      rw [hpc] at hin hlookup
      obtain ⟨x, hx, horg⟩ := hin.thread t rfl
      obtain rfl := Option.some_inj.mp (hx.symm.trans ht')
      exact ⟨horg, m.adv.lookup_mono hlookup⟩
    · obtain ⟨horg, hlookup⟩ := m.inv.feed r hr hk
      exact ⟨horg, m.adv.lookup_mono hlookup⟩

theorem triggers {t : Trigger} (ht : t ∈ db'.triggers) (hk : t.idempotencyKey = k) :
    t.orgId = app.orgId ∧ t.receiverAgentId = app.agentId ∧ isTrigger w = true
      ∧ lookupByThread w.threadKey db' = some t.threadId := by
  have hold : t ∈ s.db.triggers → _ := fun ht => m.inv.triggers t ht hk
  obtain e | ⟨c, t', k', message, state, id, hpc, e⟩ := m.adv.triggers
  · obtain ⟨horg, hagent, htrigger, hlookup⟩ := hold (e ▸ ht)
    exact ⟨horg, hagent, htrigger, m.adv.lookup_mono hlookup⟩
  · rw [e] at ht
    obtain ht | rfl := Table.mem_or_eq_of_mem_addNew ht
    · obtain ⟨horg, hagent, htrigger, hlookup⟩ := hold ht
      exact ⟨horg, hagent, htrigger, m.adv.lookup_mono hlookup⟩
    · obtain rfl : k' = k := hk
      have hw := m.work_eq (hpc ▸ rfl)
      have hlookup := m.inv.progress h m.mem hw
      rw [hpc] at hlookup
      exact ⟨congrArg LarkApp.orgId (m.app hw), congrArg LarkApp.agentId (m.app hw), hlookup.2.1,
        m.adv.lookup_mono hlookup.1⟩

theorem chatInv : ChatInv d lark w app k
    { s with db := db', handlers := s.handlers.put { h with pc := pc' } } := by
  have g := m.keeps.2
  refine ⟨m.keeps.1, ?_, ?_, ?_, ?_, ?_, ?_, ?_, ?_, ?_, ?_, ?_, ?_, ?_⟩
  · intro x hx hpc
    obtain rfl | ⟨hx, hkey⟩ := moved_or_stayed hx
    · exact absurd hpc m.adv.ne_shadow
    · exact m.fresh hx hkey (m.inv.fresh x hx hpc)
  · intro x hx hearly
    obtain rfl | ⟨hx, hkey⟩ := moved_or_stayed hx
    · have hfree := m.inv.free h m.mem (m.adv.early hearly)
      obtain e | ⟨c, channel, -, hpc', -⟩ := m.adv.threads
      · change db'.threads.find? h.job.mint.thread = none
        rwa [e]
      · subst hpc'
        cases hearly
    · exact m.free hkey (m.inv.free x hx hearly)
  · intro x hx y hy hne
    obtain rfl | ⟨hx, -⟩ := moved_or_stayed hx <;> obtain rfl | ⟨hy, -⟩ := moved_or_stayed hy
    · exact absurd rfl hne
    · exact m.inv.mints h m.mem y hy hne
    · exact m.inv.mints x hx h m.mem hne
    · exact m.inv.mints x hx y hy hne
  · intro x hx
    obtain rfl | ⟨hx, -⟩ := moved_or_stayed hx
    · exact m.inv.accepted h m.mem
    · exact m.inv.accepted x hx
  · intro x hx c t hpc
    obtain rfl | ⟨hx, -⟩ := moved_or_stayed hx
    · subst hpc
      exact m.adv.made m.inv.closed
    · exact g.thread (m.inv.made x hx c t hpc)
  · intro x hx i hidem
    obtain rfl | ⟨hx, -⟩ := moved_or_stayed hx
    · exact (m.adv.idem i hidem).elim (m.inv.idem h m.mem i) id
    · exact m.inv.idem x hx i hidem
  · intro x hx hw
    obtain rfl | ⟨hx, -⟩ := moved_or_stayed hx
    · exact m.inOrg hw
    · exact g.inOrg (m.inv.inOrg x hx hw)
  · intro x hx hw
    obtain rfl | ⟨hx, hkey⟩ := moved_or_stayed hx
    · exact m.progress hw
    · exact m.progress_other hx hkey hw
  · exact fun x hx y hy hw hcx hcy hkey => m.alone hx hy hw hcx hcy hkey
  · exact fun x hx hw t ht => m.created hx hw ht
  · exact fun r hr hk => m.feed hr hk
  · exact fun t ht hk => m.triggers ht hk
  · intro hw
    obtain ⟨x, hx, hxw⟩ := m.inv.delivered hw
    by_cases hkey : Foundation.key x = Foundation.key h
    · obtain rfl := Table.eq_of_key_eq hx m.mem hkey
      exact ⟨_, Table.mem_put.mpr (.inl rfl), hxw⟩
    · exact ⟨x, Table.mem_put.mpr (.inr ⟨hx, hkey⟩), hxw⟩

end Moves

theorem Plain.app_eq (hp : Plain d w app user k) :
    (d.apps.find? fun app => app.appId = w.event.appId) = some app :=
  (accept_eq_some (hp.accepted ⟨0, 0, 0, 0, 0, 0, 0⟩)).1

theorem ChatInv.job_eq (hi : ChatInv d lark w app k s) (hp : Plain d w app user k)
    (hh : h ∈ s.handlers) (hw : h.job.work = w) : h.job = ⟨w, app, user, h.job.mint⟩ := by
  have hacc := (hi.accepted h hh).2
  rw [hw, hp.accepted] at hacc
  exact (Option.some_inj.mp (Except.ok.inj hacc)).symm

theorem Moves.of_apart (hi : ChatInv d lark w app k s) (hw : w ∈ lark.all)
    (hp : Plain d w app user k) (hfind : s.handlers.find? id = some h)
    (hg : Patom.Lark.apart w s (.step id) = true) :
    Moves d lark w app k s h (advance d h.job s.db h.pc).1 (advance d h.job s.db h.pc).2 := by
  have hmem := Table.mem_of_find? hfind
  simp only [Patom.Lark.apart, hfind, Option.all_some] at hg
  have hknown : h.job.work = w → h.pc = .shadow →
      knownOrNew h.job.app.orgId h.job.work.event.tenantKey h.job.user s.db = true := by
    intro e hpc
    rw [hpc] at hg
    simpa [e] using hg
  refine ⟨hi, hmem, advanced d h.job s.db h.pc, hw, hp.key, fun e => by rw [hi.job_eq hp hmem e],
    fun e => ?_, fun e hpc => known_of_knownOrNew (hknown e hpc), fun e c channel hpc => ?_,
    fun c channel hpc hnone x hx hcreating hkey => ?_⟩
  · have happ : h.job.app = app := by rw [hi.job_eq hp hmem e]
    refine advance_ne_failed (happ ▸ hi.inOrg h hmem e) (e ▸ hp.channel) ?_ (hknown e)
      (hi.free h hmem) fun err hpc => ?_
    · rw [e, hp.key]
      rfl
    · have hprogress := hi.progress h hmem e
      rw [hpc] at hprogress
      exact hprogress
  · rw [hpc] at hg
    simp only [Bool.and_eq_true] at hg
    simpa [e] using hg.1
  · rw [hpc] at hg
    simp only [Bool.and_eq_true, hnone, Option.isSome_none, Bool.false_or,
      List.all_eq_true] at hg
    have hx' := hg.2 x hx
    simp only [hcreating, hkey, decide_true, Bool.true_and, Bool.not_eq_true', Bool.or_eq_false_iff,
      decide_eq_false_iff_not] at hx'
    exact hx'

theorem ChatInv.step (hw : w ∈ lark.all) (hp : Plain d w app user k) {a : ChatAct}
    (hi : ChatInv d lark w app k s) (hg : apart w s a = true) (hs : chatStep d lark s a = some t) :
    ChatInv d lark w app k t := by
  cases a with
  | deliver w' mint =>
    simp only [chatStep, Option.ite_none_right_eq_some, Option.some.injEq] at hs
    obtain ⟨⟨hw', hmint⟩, rfl⟩ := hs
    exact hi.deliver hp hw' hmint
  | step id =>
    simp only [chatStep] at hs
    obtain ⟨h, hfind, rfl⟩ := Option.map_eq_some_iff.mp hs
    exact (Moves.of_apart hi hw hp hfind hg).chatInv

theorem ChatInv.once (hi : ChatInv d lark w app k s) (hp : Plain d w app user k)
    (hs : settled [w] s = true) : Once d [w] s := by
  simp only [settled, Bool.and_eq_true, List.all_eq_true, List.mem_singleton, forall_eq,
    decide_eq_true_eq] at hs
  obtain ⟨hdelivered, hended⟩ := hs
  have hdone : ∀ h ∈ s.handlers, h.job.work = w → h.pc = .done := by
    intro h hh hw
    have hpc := hended h (List.mem_filter.mpr ⟨hh, by simp [hw]⟩)
    have hprogress := hi.progress h hh hw
    cases e : h.pc with
    | done => rfl
    | failed err =>
      rw [e] at hprogress
      exact hprogress.elim
    | shadow | channel | lookup | create | bind | receiver | append | participation | enqueue =>
      rw [e] at hpc
      cases hpc
  obtain ⟨h, hh, hw⟩ := hi.delivered hdelivered
  have hprogress := hi.progress h hh hw
  rw [hdone h hh hw] at hprogress
  obtain ⟨hrow, htrigger⟩ := hprogress
  obtain ⟨r, hr⟩ := Option.isSome_iff_exists.mp hrow
  have hrk : r.idempotencyKey = k := congrArg Prod.snd (Table.key_of_find? hr)
  obtain ⟨-, hlookup⟩ := hi.feed r (Table.mem_of_find? hr) hrk
  refine ⟨r.threadId, ?_, ?_, ?_, ?_⟩
  · intro w' hw'
    rw [List.mem_singleton.mp hw', hlookup]
  · have hrows : s.feedOf [w] = [r] := by
      refine Table.filter_eq_singleton (Table.mem_of_find? hr) ?_ fun r' hr' hkey => ?_
      · simp [hasKey_iff hp.key, hrk]
      · have hk' : r'.idempotencyKey = k := by simpa [hasKey_iff hp.key] using hkey
        rw [Table.key_of_find? hr]
        exact Prod.ext (hi.feed r' hr' hk').1 hk'
    rw [hrows]
    rfl
  · intro x hx t ht
    obtain ⟨hx, hxw⟩ := List.mem_filter.mp hx
    have hwork : x.job.work = w := by simpa using hxw
    obtain ⟨c, hpc⟩ | hbound := hi.created x hx hwork t ht
    · rw [hdone x hx hwork] at hpc
      cases hpc
    · exact (Table.key_of_find? ht).trans (Option.some_inj.mp (hbound.symm.trans hlookup))
  · intro w' hw' app' happ'
    obtain rfl := List.mem_singleton.mp hw'
    obtain rfl := Option.some_inj.mp (hp.app_eq.symm.trans happ')
    cases htr : isTrigger w' with
    | true =>
      obtain ⟨t, ht⟩ := Option.isSome_iff_exists.mp (htrigger htr)
      have htk : t.idempotencyKey = k := congrArg Prod.snd (Table.key_of_find? ht)
      obtain ⟨-, hagent, -, hbound⟩ := hi.triggers t (Table.mem_of_find? ht) htk
      have hrows : s.triggersOf w' = [t] := by
        refine Table.filter_eq_singleton (Table.mem_of_find? ht) ?_ fun t' ht' hkey => ?_
        · rw [hasKey_iff hp.key, htk]
        · have hk' : t'.idempotencyKey = k := (hasKey_iff hp.key).mp hkey
          rw [Table.key_of_find? ht]
          exact Prod.ext (hi.triggers t' ht' hk').1 hk'
      rw [hrows, if_pos rfl, List.map_singleton, hagent,
        Option.some_inj.mp (hbound.symm.trans hlookup)]
    | false =>
      have hrows : s.triggersOf w' = [] := by
        refine List.filter_eq_nil_iff.mpr fun t' ht' hkey => ?_
        have htr' := (hi.triggers t' ht' ((hasKey_iff hp.key).mp hkey)).2.2.1
        rw [htr] at htr'
        cases htr'
      rw [hrows]
      rfl

/-- One bot's message is there once after every run that keeps lookups and bindings apart. -/
theorem once_of_apart (hw : w ∈ lark.all) (hp : Plain d w app user k) (hs : Unheard w s)
    {acts : List ChatAct} (h : Steps (chatStep d lark) (fun s a => apart w s a = true) s acts) :
    Always (chatStep d lark) (fun s => settled [w] s = true → Once d [w] s) s acts := by
  have hi : ChatInv d lark w app k s := chatInv_init hp.key hs
  clear hs
  induction acts generalizing s with
  | nil => exact hi.once hp
  | cons a as ih =>
    exact ⟨hi.once hp, fun t e => ih (h t e).2 (hi.step hw hp (h t e).1 e)⟩

def officeTenant : TenantKey := ⟨"t-office", by decide, by decide, by decide⟩
def officeChat : LarkChatId := ⟨"oc-office", by decide, by decide, by decide⟩
def officeMessage : LarkMessageId := ⟨"om-office", by decide, by decide, by decide⟩
def carla : LarkUserId := ⟨"carla", by decide, by decide, by decide⟩
def openCarla : LarkOpenId := ⟨"ou-carla", by decide, by decide, by decide⟩
def clerk : LarkApp := ⟨⟨"cli-clerk", by decide, by decide, by decide⟩, 1, 11⟩
def scribe : LarkApp := ⟨⟨"cli-scribe", by decide, by decide, by decide⟩, 1, 12⟩
def openClerk : LarkOpenId := ⟨"ou-clerk", by decide, by decide, by decide⟩
def officeDeps : BridgeDeps :=
  ⟨[clerk, scribe], fun _ agent => 20 + agent, fun w => w.event.text⟩

def toOffice (app : LarkApp) (event : LarkEventId) (clerkId : String) : InboundWork :=
  ⟨⟨event, app.appId, officeTenant, openCarla, some carla, "user", officeChat, "group",
    officeMessage, none, "@clerk file this", [⟨"@_user_1", some clerkId, "clerk"⟩]⟩, some openClerk⟩

def toClerk : InboundWork :=
  toOffice clerk ⟨"ev-clerk", by decide, by decide, by decide⟩ "ou-clerk"
def toScribe : InboundWork :=
  toOffice scribe ⟨"ev-scribe", by decide, by decide, by decide⟩ "ou-clerk-seen-by-scribe"

def officeEvents : LarkEvents where
  all := [toClerk, toScribe]
  distinct := by
    intro w hw w' hw' _ he
    simp only [List.mem_cons, List.not_mem_nil, or_false] at hw hw'
    rcases hw with rfl | rfl <;> rcases hw' with rfl | rfl
    · rfl
    · exact absurd he (by decide)
    · exact absurd he (by decide)
    · rfl

def quiet : ChatSt := ⟨.init, .empty, []⟩
def drawn (n : Uuid) : Mint := ⟨n + 1, n + 2, n + 3, n + 4, n + 5, n + 6, n + 7⟩
def handled (w : InboundWork) (n : Uuid) : List ChatAct :=
  .deliver w (drawn n) :: List.replicate TRANSACTIONS (.step (n + 4))

theorem unheard_quiet (w : InboundWork) : Unheard w quiet :=
  ⟨sealed_init, rfl, rfl, fun r hr => absurd hr (Table.not_mem_empty r),
    fun t ht => absurd ht (Table.not_mem_empty t)⟩

theorem copies_office : Copies officeDeps 1 [toClerk, toScribe] where
  same := by
    intro w hw w' hw'
    simp only [List.mem_cons, List.not_mem_nil, or_false] at hw hw'
    rcases hw with rfl | rfl <;> rcases hw' with rfl | rfl <;>
      exact ⟨rfl, rfl, rfl, rfl, rfl, rfl, rfl, rfl⟩
  apps := by decide
  bots := by
    intro w hw
    simp only [List.mem_cons, List.not_mem_nil, or_false] at hw
    rcases hw with rfl | rfl
    · exact ⟨clerk, by decide, rfl⟩
    · exact ⟨scribe, by decide, rfl⟩
  human := by decide

/-- The message is in the thread once for each bot that hears it. -/
theorem not_once : ¬ ∀ (d : BridgeDeps) (lark : LarkEvents) (org : OrgId)
    (works : List InboundWork) (s : ChatSt) (acts : List ChatAct), works ≠ [] →
      Copies d org works → (∀ w ∈ works, w ∈ lark.all ∧ Unheard w s) →
        Always (chatStep d lark) (fun s => settled works s = true → Once d works s) s acts := by
  intro h
  have hall := h officeDeps officeEvents 1 [toClerk, toScribe] quiet
    (handled toClerk 100 ++ handled toScribe 200) (by simp) copies_office
    fun w hw => ⟨hw, unheard_quiet w⟩
  have hrun : ((run (chatStep officeDeps officeEvents) quiet
      (handled toClerk 100 ++ handled toScribe 200)).any fun t =>
        settled [toClerk, toScribe] t && (t.feedOf [toClerk, toScribe]).length = 2) = true := by
    decide +kernel
  obtain ⟨t, ht, hbad⟩ := (Option.any_eq_true _ _).mp hrun
  simp only [Bool.and_eq_true, decide_eq_true_eq] at hbad
  obtain ⟨thread, honce⟩ := hall.run ht hbad.1
  have hlength := congrArg List.length honce.row
  rw [List.length_map, hbad.2] at hlength
  cases hlength

theorem plain_clerk : Plain officeDeps toClerk clerk carla
    ⟨"lark:t-office:ev-clerk", by decide, by decide⟩ :=
  ⟨fun mint => rfl, rfl, by decide +kernel⟩

theorem once_of_apart_twice : Always (chatStep officeDeps officeEvents)
    (fun s => settled [toClerk] s = true → Once officeDeps [toClerk] s) quiet
    (handled toClerk 100 ++ handled toClerk 200) :=
  once_of_apart List.mem_cons_self plain_clerk (unheard_quiet toClerk) (by decide +kernel)

end Patom.Lark
