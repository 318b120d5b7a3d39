import Patom.Discord.Connection
import Patom.Foundation.Transition

open Patom.Foundation

namespace Patom.Discord.Zombies

structure SentBeat where
  sent : Nat
  requested : Bool
  acked : Bool

/-- `deadline` is the next tick; `overdue` is set once a scheduled beat goes out over one that has
been un-ACKed for an interval. -/
structure BeatSt where
  interval : Nat
  now : Nat
  deadline : Nat
  conn : ConnState
  beats : List SentBeat
  running : Bool
  zombied : Bool
  overdue : Bool

/-- `answers` is the beat that an ACK is for, if any; `sent` is what the transport says to a
beat. -/
inductive BeatAct
  | wait (elapsed : Nat)
  | tick (sent : Except DiscordError Unit)
  | event (ev : Option WsEvent) (answers : Option Nat) (sent : Except DiscordError Unit)

def isAck : Option WsEvent → Bool
  | some (.text (some recv)) => recv.op = .heartbeatAck
  | _ => false

def isRequest : Option WsEvent → Bool
  | some (.text (some recv)) => recv.op = .heartbeat
  | _ => false

def answer (beats : List SentBeat) : Option Nat → List SentBeat
  | some i => beats.modify i fun b => { b with acked := true }
  | none => beats

namespace BeatSt

variable (s : BeatSt)

def start (interval jitter now : Nat) (prior : Option SessionState) : BeatSt where
  interval := interval
  now := now
  deadline := now + jitter
  conn := ⟨prior, true⟩
  beats := []
  running := true
  zombied := false
  overdue := false

def isOverdue (b : SentBeat) : Bool := !b.acked && b.sent + s.interval ≤ s.now

def unAcked : Bool := s.beats.any fun b => !b.acked

def anyOverdue : Bool := s.beats.any s.isOverdue

def isFresh (b : SentBeat) : Bool := b.requested && !b.acked && s.now < b.sent + s.interval

def anyFresh : Bool := s.beats.any s.isFresh

def pushBeat (requested : Bool) (conn : ConnState) : BeatSt :=
  { s with conn := conn, beats := s.beats ++ [⟨s.now, requested, false⟩] }

def tick (sent : Except DiscordError Unit) : BeatSt :=
  match beat sent s.conn with
  | .inl conn =>
    { s.pushBeat false conn with
      deadline := s.now + s.interval, overdue := s.overdue || s.anyOverdue }
  | .inr _ => { s with running := false, zombied := !s.conn.acked }

def event (ev : Option WsEvent) (answers : Option Nat) (sent : Except DiscordError Unit) : BeatSt :=
  match runEvent sent s.conn ev with
  | .inl conn =>
    if isRequest ev then s.pushBeat true conn
    else if isAck ev then { s with conn := conn, beats := answer s.beats answers }
    else { s with conn := conn }
  | .inr _ => { s with running := false }

end BeatSt

def beatStep : Step BeatSt BeatAct
  | s, .wait elapsed => if s.running then some { s with now := s.now + elapsed } else none
  | s, .tick sent => if s.running && s.deadline ≤ s.now then some (s.tick sent) else none
  | s, .event ev answers sent => if s.running then some (s.event ev answers sent) else none

/-- A connection is given up over an overdue beat only, and no scheduled beat goes out over one. -/
def Sound (s : BeatSt) : Prop := (s.zombied = true → s.anyOverdue = true) ∧ s.overdue = false

/-- An ACK leaves no beat un-ACKed, and a tick that finds a fresh beat finds an overdue one. -/
def orderly (s : BeatSt) : BeatAct → Bool
  | .wait _ => true
  | .tick _ => !s.anyFresh || s.anyOverdue
  | .event ev answers _ => !isAck ev || (answer s.beats answers).all (·.acked)

def Orderly (s : BeatSt) (a : BeatAct) : Prop := orderly s a = true

instance orderlyDecidable (s : BeatSt) (a : BeatAct) : Decidable (Orderly s a) :=
  inferInstanceAs (Decidable (orderly s a = true))

variable {s t : BeatSt} {a : BeatAct} {conn conn' : ConnState} {ev : Option WsEvent}
  {answers : Option Nat} {sent : Except DiscordError Unit}

theorem acked_handleDispatch (recv : GatewayRecv) (conn : ConnState) :
    (handleDispatch recv conn).acked = conn.acked := by
  unfold handleDispatch
  split
  · split <;> rfl
  · rfl

theorem acked_sendBeat (h : sendBeat sent conn = .inl conn') : conn'.acked = false := by
  cases sent with
  | ok u =>
    obtain rfl := Sum.inl.inj h
    rfl
  | error e => cases h

theorem acked_beat (h : beat sent conn = .inl conn') :
    conn.acked = true ∧ conn'.acked = false := by
  unfold beat at h
  split at h
  · exact ⟨‹_›, acked_sendBeat h⟩
  · cases h

theorem acked_runEvent (h : runEvent sent conn ev = .inl conn') :
    conn'.acked = if isRequest ev then false else if isAck ev then true else conn.acked := by
  cases ev with
  | none => cases h
  | some ev =>
    cases ev with
    | close code => cases h
    | text frame =>
      cases frame with
      | none =>
        obtain rfl := Sum.inl.inj h
        rfl
      | some recv =>
        obtain ⟨op, seq, eventType, data⟩ := recv
        cases op with
        | heartbeat => exact acked_sendBeat h
        | dispatch =>
          obtain rfl := Sum.inl.inj h
          exact acked_handleDispatch _ _
        | reconnect => cases h
        | invalidSession => cases h
        | heartbeatAck =>
          obtain rfl := Sum.inl.inj h
          rfl
        | _ =>
          obtain rfl := Sum.inl.inj h
          rfl

theorem unAcked_pushBeat (requested : Bool) (conn : ConnState) :
    (s.pushBeat requested conn).unAcked = true := by
  simp [BeatSt.unAcked, BeatSt.pushBeat]

theorem unAcked_of_all {beats : List SentBeat} (h : beats.all (·.acked) = true) :
    { s with conn := conn, beats := beats }.unAcked = false := by
  rw [BeatSt.unAcked, List.any_eq_false]
  intro b hb
  rw [List.all_eq_true.mp h b hb]
  exact Bool.false_ne_true

theorem anyOverdue_of_unAcked (h : s.unAcked = false) : s.anyOverdue = false := by
  rw [BeatSt.anyOverdue, List.any_eq_false]
  rw [BeatSt.unAcked, List.any_eq_false] at h
  intro b hb hover
  exact h b hb (Bool.and_eq_true_iff.mp hover).1

theorem mem_answer {beats : List SentBeat} {b : SentBeat} (h : b ∈ answer beats answers) :
    ∃ c ∈ beats, b.requested = c.requested ∧ b.sent = c.sent := by
  cases answers with
  | none => exact ⟨b, h, rfl, rfl⟩
  | some i =>
    obtain ⟨j, hj, rfl⟩ := List.mem_iff_getElem.mp h
    have hlt : j < beats.length := by simpa [answer] using hj
    refine ⟨beats[j], List.getElem_mem _, ?_⟩
    simp only [answer, List.getElem_modify]
    split <;> exact ⟨rfl, rfl⟩

def Spaced (s : BeatSt) : Prop :=
  ∀ b ∈ s.beats, b.requested = false → b.sent + s.interval ≤ s.deadline

theorem Spaced.pushBeat_true (h : Spaced s) (conn : ConnState) :
    Spaced (s.pushBeat true conn) := by
  intro b hb hscheduled
  rcases List.mem_append.mp hb with hb | hb
  · exact h b hb hscheduled
  · obtain rfl := List.mem_singleton.mp hb
    cases hscheduled

theorem Spaced.answer (h : Spaced s) :
    Spaced { s with conn := conn, beats := answer s.beats answers } := by
  intro b hb hscheduled
  obtain ⟨c, hc, hrequested, hsent⟩ := mem_answer hb
  rw [hsent]
  exact h c hc (hrequested.symm.trans hscheduled)

theorem Spaced.overdue_or_fresh (h : Spaced s) (hdue : s.deadline ≤ s.now)
    (hun : s.unAcked = true) : s.anyOverdue = true ∨ s.anyFresh = true := by
  obtain ⟨b, hb, hacked⟩ := List.any_eq_true.mp hun
  by_cases hold : b.sent + s.interval ≤ s.now
  · exact .inl (List.any_eq_true.mpr ⟨b, hb, by simp [BeatSt.isOverdue, hold, hacked]⟩)
  · refine .inr (List.any_eq_true.mpr ⟨b, hb, ?_⟩)
    have hrequested : b.requested = true := by
      by_contra hscheduled
      have hspaced := h b hb (Bool.eq_false_iff.mpr hscheduled)
      omega
    simp only [BeatSt.isFresh, hrequested, hacked, Bool.true_and, decide_eq_true_eq]
    omega

structure BeatInv (s : BeatSt) : Prop where
  flag : s.running = true → s.conn.acked = !s.unAcked
  spaced : Spaced s
  sound : Sound s
  open_ : s.running = true → s.zombied = false

theorem BeatInv.start (interval jitter now : Nat) (prior : Option SessionState) :
    BeatInv (.start interval jitter now prior) where
  flag _ := rfl
  spaced b hb := by cases hb
  sound := ⟨fun h => (by cases h), rfl⟩
  open_ _ := rfl

theorem BeatInv.wait (hi : BeatInv s) (hrunning : s.running = true) (elapsed : Nat) :
    BeatInv { s with now := s.now + elapsed } where
  flag := hi.flag
  spaced := hi.spaced
  sound := ⟨fun h => absurd ((hi.open_ hrunning).symm.trans h) Bool.false_ne_true, hi.sound.2⟩
  open_ := hi.open_

theorem BeatInv.tick (hi : BeatInv s) (hrunning : s.running = true) (hdue : s.deadline ≤ s.now)
    (horderly : Orderly s (.tick sent)) : BeatInv (s.tick sent) := by
  have hflag := hi.flag hrunning
  obtain ⟨-, hoverdue⟩ := hi.sound
  have hopen := hi.open_ hrunning
  unfold BeatSt.tick
  cases hbeat : beat sent s.conn with
  | inl conn =>
    obtain ⟨hacked, hsent⟩ := acked_beat hbeat
    have hnone : s.unAcked = false := by
      rw [hacked] at hflag
      simpa using hflag.symm
    refine ⟨fun _ => ?_, fun b hb hscheduled => ?_, ⟨fun h => ?_, ?_⟩, fun _ => hopen⟩
    · exact hsent.trans (congrArg (!·) (unAcked_pushBeat false conn)).symm
    · rcases List.mem_append.mp hb with hb | hb
      · have hspaced := hi.spaced b hb hscheduled
        change b.sent + s.interval ≤ s.now + s.interval
        omega
      · obtain rfl := List.mem_singleton.mp hb
        exact Nat.le_refl _
    · exact absurd (hopen.symm.trans h) Bool.false_ne_true
    · simp [hoverdue, anyOverdue_of_unAcked hnone]
  | inr result =>
    refine ⟨fun h => (by cases h), hi.spaced, ⟨fun h => ?_, hoverdue⟩, fun h => (by cases h)⟩
    have hun : s.unAcked = true := by simpa [hflag] using h
    rcases hi.spaced.overdue_or_fresh hdue hun with hover | hfresh
    · exact hover
    · exact (Bool.or_eq_true_iff.mp horderly).resolve_left (by simp [hfresh])

theorem BeatInv.event (hi : BeatInv s) (hrunning : s.running = true)
    (horderly : Orderly s (.event ev answers sent)) : BeatInv (s.event ev answers sent) := by
  have hflag := hi.flag hrunning
  have hopen := hi.open_ hrunning
  have hquiet : ∀ t : BeatSt, t.zombied = s.zombied → t.overdue = s.overdue → Sound t :=
    fun t hz ho => ⟨fun h => absurd (hopen.symm.trans (hz.symm.trans h)) Bool.false_ne_true,
      ho.trans hi.sound.2⟩
  unfold BeatSt.event
  cases hrun : runEvent sent s.conn ev with
  | inr result =>
    exact ⟨fun h => (by cases h), hi.spaced, hquiet _ rfl rfl, fun h => (by cases h)⟩
  | inl conn =>
    have hacked := acked_runEvent hrun
    by_cases hrequest : isRequest ev = true
    · simp only [hrequest, if_true] at hacked ⊢
      refine ⟨fun _ => ?_, hi.spaced.pushBeat_true conn, hquiet _ rfl rfl, fun _ => hopen⟩
      exact hacked.trans (congrArg (!·) (unAcked_pushBeat true conn)).symm
    · by_cases hack : isAck ev = true
      · simp only [hrequest, hack, if_true] at hacked ⊢
        refine ⟨fun _ => ?_, hi.spaced.answer, hquiet _ rfl rfl, fun _ => hopen⟩
        have hall := (Bool.or_eq_true_iff.mp horderly).resolve_left (by simp [hack])
        exact hacked.trans (congrArg (!·) (unAcked_of_all hall)).symm
      · simp only [hrequest, hack] at hacked ⊢
        exact ⟨fun _ => hacked.trans hflag, hi.spaced, hquiet _ rfl rfl, fun _ => hopen⟩

theorem BeatInv.step (hi : BeatInv s) (horderly : Orderly s a) (h : beatStep s a = some t) :
    BeatInv t := by
  cases a with
  | wait elapsed =>
    obtain ⟨hrunning, h⟩ := Option.ite_none_right_eq_some.mp h
    obtain rfl := Option.some.inj h
    exact hi.wait hrunning elapsed
  | tick sent =>
    obtain ⟨hready, h⟩ := Option.ite_none_right_eq_some.mp h
    obtain ⟨hrunning, hdue⟩ := Bool.and_eq_true_iff.mp hready
    obtain rfl := Option.some.inj h
    exact hi.tick hrunning (of_decide_eq_true hdue) horderly
  | event ev answers sent =>
    obtain ⟨hrunning, h⟩ := Option.ite_none_right_eq_some.mp h
    obtain rfl := Option.some.inj h
    exact hi.event hrunning horderly

theorem sound_of_orderly (interval jitter now : Nat) (prior : Option SessionState)
    (acts : List BeatAct)
    (h : Steps beatStep Orderly (.start interval jitter now prior) acts) :
    Always beatStep Sound (.start interval jitter now prior) acts :=
  (Steps.always (fun _ => True) (fun _ _ _ _ _ _ _ => trivial)
    (fun _ _ _ _ hi hstep horderly => BeatInv.step hi horderly hstep) trivial
    (BeatInv.start interval jitter now prior) h).mono fun _ hi => hi.sound

def heartbeatFrame (op : Opcode) : GatewayRecv where
  op := op
  seq := none
  eventType := none
  data := none

def ackOf (i : Nat) : BeatAct :=
  .event (some (.text (some (heartbeatFrame .heartbeatAck)))) (some i) (.ok ())

def request : BeatAct :=
  .event (some (.text (some (heartbeatFrame .heartbeat)))) none (.ok ())

theorem sound_of_orderly_acked :
    Always beatStep Sound (.start 10 5 0 none)
      [.wait 5, .tick (.ok ()), .wait 1, ackOf 0, .wait 2, request, .wait 2, ackOf 1, .wait 5,
        .tick (.ok ()), .wait 10, .tick (.ok ())] :=
  sound_of_orderly 10 5 0 none _ (by decide +kernel)

def hasty : List BeatAct :=
  [.wait 5, .tick (.ok ()), .wait 1, ackOf 0, .wait 8, request, .wait 1, .tick (.ok ())]

def masked : List BeatAct :=
  [.wait 5, .tick (.ok ()), .wait 1, request, .wait 1, ackOf 0, .wait 9, .tick (.ok ())]

theorem not_sound :
    ¬ (∀ interval jitter now prior acts, Always beatStep (fun s => s.zombied = true →
      s.anyOverdue = true) (.start interval jitter now prior) acts) ∧
    ¬ ∀ interval jitter now prior acts, Always beatStep (fun s => s.overdue = false)
      (.start interval jitter now prior) acts := by
  constructor
  · intro hall
    have hrun : ((run beatStep (.start 10 5 0 none) hasty).any fun t =>
        t.zombied && !t.anyOverdue) = true := by decide +kernel
    obtain ⟨t, ht, hbad⟩ := (Option.any_eq_true _ _).mp hrun
    obtain ⟨hzombied, hfresh⟩ := Bool.and_eq_true_iff.mp hbad
    have hover := (hall 10 5 0 none hasty).run ht hzombied
    simp [hover] at hfresh
  · intro hall
    have hrun : ((run beatStep (.start 10 5 0 none) masked).any fun t => t.overdue) = true := by
      decide +kernel
    obtain ⟨t, ht, hbad⟩ := (Option.any_eq_true _ _).mp hrun
    have hnone := (hall 10 5 0 none masked).run ht
    exact Bool.false_ne_true (hnone.symm.trans hbad)

end Patom.Discord.Zombies
