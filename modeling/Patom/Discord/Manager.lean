import Patom.Discord.Connection
import Patom.Foundation.Transition

open Patom.Foundation

namespace Patom.Discord

def U32_MAX : Nat := 4294967295

/-- One turn of the driver's loop: the session it was made with, the one the gateway still owed
the bot, and whether a backoff had just been waited out. -/
structure Attempt where
  prior : Option SessionState
  owed : Option SessionState
  waited : Bool
  opened : Option Opening
  live : Bool

structure Ended where
  attempt : Attempt
  held : Option SessionState
  outcome : Except DiscordError Directive

inductive Phase
  | idle
  | dialing
  | hello
  | running (st : ConnState)
  | waiting
  | ended

/-- `supervise_bot`, with a record of its attempts, the newest first. -/
structure Driver where
  session : Option SessionState
  reconnects : Nat
  cancelled : Bool
  phase : Phase
  attempt : Attempt
  owed : Option SessionState
  waited : Bool
  log : List Ended

def Driver.init : Driver where
  session := none
  reconnects := 0
  cancelled := false
  phase := .idle
  attempt := ⟨none, none, false, none, false⟩
  owed := none
  waited := false
  log := []

inductive DriverAct
  | enter
  | connectFailed (e : DiscordError)
  | connected
  | helloTimeout
  | handshake (ev : Option WsEvent) (sent : Except DiscordError Unit)
  | tick (sent : Except DiscordError Unit)
  | event (ev : Option WsEvent) (sent : Except DiscordError Unit)
  | wake
  | cancel
  | observeCancel

def learned (recv : GatewayRecv) : Option SessionState :=
  if recv.eventType = some "READY" then (parseReady recv).toOption.map (·.session recv.seq) else none

def owedAfter (ev : Option WsEvent) (owed : Option SessionState) : Option SessionState :=
  match ev with
  | some (.text (some recv)) =>
    match recv.op with
    | .dispatch => (learned recv).or (owed.map (·.at recv.seq))
    | .invalidSession => if parseInvalidSessionResumable recv then owed else none
    | _ => owed
  | _ => owed

def greets : Option WsEvent → Bool
  | some (.text (some recv)) =>
    recv.op = .dispatch && (recv.eventType = some "READY" || recv.eventType = some "RESUMED")
  | _ => false

namespace Driver

variable (s : Driver)

def begins : Bool := !s.cancelled && s.reconnects ≤ DISCORD_RECONNECT_MAX

def begin : Driver :=
  { s with
    session := none
    phase := .dialing
    attempt := ⟨s.session, s.owed, s.waited, none, false⟩
    waited := false }

def failed : Driver :=
  { s with reconnects := min (s.reconnects + 1) U32_MAX, phase := .waiting }

def arm (held : Option SessionState) (outcome : Except DiscordError RunResult) : Driver :=
  let s := { s with log := ⟨s.attempt, held, outcome.map RunResult.directive⟩ :: s.log }
  match outcome with
  | .ok result =>
    match result.directive with
    | .stop => { s with phase := .ended, owed := none }
    | .resume => { s with session := result.session, reconnects := 0, phase := .idle }
    | .freshReconnect => { s with owed := none }.failed
    | .fatal _ => { s with phase := .ended, owed := none }
  | .error _ => s.failed

def ran (held : Option SessionState) : Ran → Driver
  | .inl st => { s with phase := .running st }
  | .inr outcome => s.arm held outcome

def note (ev : Option WsEvent) : Driver :=
  { s with
    owed := owedAfter ev s.owed
    attempt := { s.attempt with live := s.attempt.live || greets ev } }

def opened (prior : Option SessionState) : Driver :=
  { s with
    phase := .running ⟨prior, true⟩
    attempt := { s.attempt with opened := some (opening prior) } }

end Driver

def driverStep : Step Driver DriverAct
  | s, .enter =>
    match s.phase with
    | .idle => some (if s.begins then s.begin else { s with phase := .ended })
    | _ => none
  | s, .connectFailed e =>
    match s.phase with
    | .dialing => some (s.arm s.attempt.prior (.error e))
    | _ => none
  | s, .connected =>
    match s.phase with
    | .dialing => some { s with phase := .hello }
    | _ => none
  | s, .helloTimeout =>
    match s.phase with
    | .hello => some (s.arm s.attempt.prior (.error (.gateway "HELLO timed out")))
    | _ => none
  | s, .handshake ev sent =>
    match s.phase with
    | .hello =>
      match readHello ev with
      | none => some s
      | some (.error e) => some (s.arm s.attempt.prior (.error e))
      | some (.ok _) =>
        match sent with
        | .error e => some (s.arm s.attempt.prior (.error e))
        | .ok () => some (s.opened s.attempt.prior)
    | _ => none
  | s, .tick sent =>
    match s.phase with
    | .running st => some (s.ran st.session (beat sent st))
    | _ => none
  | s, .event ev sent =>
    match s.phase with
    | .running st => some ((s.note ev).ran st.session (runEvent sent st ev))
    | _ => none
  | s, .wake =>
    match s.phase with
    | .waiting => some { s with phase := .idle, waited := true }
    | _ => none
  | s, .cancel => some { s with cancelled := true }
  | s, .observeCancel =>
    if s.cancelled then
      match s.phase with
      | .hello => some (s.arm s.attempt.prior (.error (.gateway "cancelled before HELLO")))
      | .running st => some (s.arm st.session (.ok ⟨.stop, st.session⟩))
      | .waiting => some { s with phase := .idle }
      | _ => none
    else none

section Connection

variable {st st' : ConnState} {sent : Except DiscordError Unit} {ev : Option WsEvent}
  {result : RunResult}

theorem handleDispatch_session (recv : GatewayRecv) :
    (handleDispatch recv st).session = (learned recv).or (st.session.map (·.at recv.seq)) := by
  unfold handleDispatch learned
  by_cases hready : recv.eventType = some "READY"
  · simp only [hready, if_true]
    cases parseReady recv <;> rfl
  · simp only [hready, if_false, Option.none_or]

theorem resumeOrFresh_resume (h : resumeOrFresh st = .resume) : st.session.isSome := by
  unfold resumeOrFresh at h
  split at h
  · assumption
  · cases h

theorem closeDirective_resume {code : Option Nat} (h : closeDirective code st = .resume) :
    st.session.isSome := by
  unfold closeDirective at h
  split at h <;> try cases h
  split at h
  · assumption
  · cases h

theorem runEvent_session (h : runEvent sent st ev = .inl st') :
    st'.session = owedAfter ev st.session := by
  obtain _ | ev := ev
  · cases h
  obtain (_ | recv) | code := ev
  · cases h
    rfl
  · simp only [runEvent, handleEvent] at h
    cases hop : recv.op <;> rw [hop] at h
    case dispatch =>
      cases h
      simp only [owedAfter, hop]
      exact handleDispatch_session recv
    case heartbeat =>
      obtain _ | _ := sent <;> cases h
      simp only [owedAfter, hop]
    case reconnect => cases h
    case invalidSession => cases h
    all_goals
      cases h
      simp only [owedAfter, hop]
  · cases h

theorem runEvent_ok (h : runEvent sent st ev = .inr (.ok result)) :
    result.session = st.session ∧ greets ev = false ∧
      (result.directive = .resume → owedAfter ev st.session = st.session ∧ st.session.isSome) := by
  obtain _ | ev := ev
  · cases h
    exact ⟨rfl, rfl, fun e => ⟨rfl, resumeOrFresh_resume e⟩⟩
  obtain (_ | recv) | code := ev
  · cases h
  · simp only [runEvent, handleEvent] at h
    cases hop : recv.op <;> rw [hop] at h
    case heartbeat => obtain _ | _ := sent <;> cases h
    case reconnect =>
      cases h
      exact ⟨rfl, by simp [greets, hop], fun e => ⟨by simp [owedAfter, hop], resumeOrFresh_resume e⟩⟩
    case invalidSession =>
      cases h
      refine ⟨rfl, by simp [greets, hop], fun e => ?_⟩
      by_cases hres : parseInvalidSessionResumable recv && st.session.isSome
      · simp only [Bool.and_eq_true] at hres
        exact ⟨by simp [owedAfter, hop, hres.1], hres.2⟩
      · simp [hres] at e
    all_goals cases h
  · cases h
    exact ⟨rfl, rfl, fun e => ⟨rfl, closeDirective_resume e⟩⟩

theorem runEvent_error {e : DiscordError} (h : runEvent sent st ev = .inr (.error e)) :
    greets ev = false ∧ ∀ owed, owedAfter ev owed = owed := by
  obtain _ | ev := ev
  · cases h
  obtain (_ | recv) | code := ev
  · cases h
  · simp only [runEvent, handleEvent] at h
    cases hop : recv.op <;> rw [hop] at h
    case heartbeat => exact ⟨by simp [greets, hop], fun owed => by simp [owedAfter, hop]⟩
    all_goals cases h
  · cases h

theorem beat_inl (h : beat sent st = .inl st') : st'.session = st.session := by
  unfold beat sendBeat at h
  split at h
  · split at h <;> cases h
    rfl
  · cases h

theorem beat_ok (h : beat sent st = .inr (.ok result)) :
    result.session = st.session ∧ (result.directive = .resume → st.session.isSome) := by
  unfold beat sendBeat at h
  split at h
  · split at h <;> cases h
  · cases h
    exact ⟨rfl, resumeOrFresh_resume⟩

end Connection

def Driver.held (s : Driver) : Option (Option SessionState) :=
  match s.phase with
  | .dialing | .hello => some s.attempt.prior
  | .running st => some st.session
  | .idle | .waiting | .ended => none

inductive DriverStepped (s : Driver) : Driver → Prop
  | begun (hphase : s.phase = .idle) (h : s.begins = true) : DriverStepped s s.begin
  | exhausted (hphase : s.phase = .idle) (h : s.begins = false) :
      DriverStepped s { s with phase := .ended }
  | connected (hphase : s.phase = .dialing) : DriverStepped s { s with phase := .hello }
  | kept : DriverStepped s s
  | opened (hphase : s.phase = .hello) : DriverStepped s (s.opened s.attempt.prior)
  | carried {st st' : ConnState} (hphase : s.phase = .running st) {ev : Option WsEvent}
      (hsession : st'.session = owedAfter ev st.session) :
      DriverStepped s { s.note ev with phase := .running st' }
  | finished {held owed : Option SessionState} {outcome : Except DiscordError RunResult}
      (hheld : s.held = some held) (herror : ∀ e, outcome = .error e → owed = s.owed)
      (hresume : ∀ result, outcome = .ok result → result.directive = .resume →
        result.session = held ∧ held.isSome ∧ (held = s.owed → owed = s.owed)) :
      DriverStepped s ({ s with owed }.arm held outcome)
  | woken (hphase : s.phase = .waiting) : DriverStepped s { s with phase := .idle, waited := true }
  | cancelled : DriverStepped s { s with cancelled := true }
  | roused (hphase : s.phase = .waiting) (h : s.cancelled = true) :
      DriverStepped s { s with phase := .idle }

variable {s t : Driver}

theorem note_none : s.note none = s := by
  simp [Driver.note, owedAfter, greets]

theorem note_quiet {ev : Option WsEvent} (h : greets ev = false) :
    s.note ev = { s with owed := owedAfter ev s.owed } := by
  simp [Driver.note, h]

theorem DriverStepped.returned {held : Option SessionState}
    {outcome : Except DiscordError RunResult} (hheld : s.held = some held)
    (hresume : ∀ result, outcome = .ok result → result.directive = .resume →
      result.session = held ∧ held.isSome) : DriverStepped s (s.arm held outcome) :=
  @DriverStepped.finished s held s.owed outcome hheld (fun _ _ => rfl) fun result h hr =>
    ⟨(hresume result h hr).1, (hresume result h hr).2, fun _ => rfl⟩

theorem DriverStepped.errored {held : Option SessionState} (hheld : s.held = some held)
    (e : DiscordError) : DriverStepped s (s.arm held (.error e)) :=
  .returned hheld fun _ h => by cases h

theorem DriverStepped.ticked {st : ConnState} (hphase : s.phase = .running st)
    (sent : Except DiscordError Unit) : DriverStepped s (s.ran st.session (beat sent st)) := by
  have hheld : s.held = some st.session := by rw [Driver.held, hphase]
  cases hrun : beat sent st with
  | inl st' =>
    have hcarried : DriverStepped s { s.note none with phase := .running st' } :=
      .carried hphase (beat_inl hrun)
    rwa [note_none] at hcarried
  | inr outcome =>
    cases outcome with
    | error e => exact .errored hheld e
    | ok result =>
      obtain ⟨hsession, hsome⟩ := beat_ok hrun
      show DriverStepped s (s.arm st.session (.ok result))
      refine .returned hheld fun r h hr => ?_
      cases h
      exact ⟨hsession, hsome hr⟩

theorem DriverStepped.heard {st : ConnState} (hphase : s.phase = .running st)
    (ev : Option WsEvent) (sent : Except DiscordError Unit) :
    DriverStepped s ((s.note ev).ran st.session (runEvent sent st ev)) := by
  have hheld : s.held = some st.session := by rw [Driver.held, hphase]
  cases hrun : runEvent sent st ev with
  | inl st' => exact .carried hphase (runEvent_session hrun)
  | inr outcome =>
    cases outcome with
    | error e =>
      obtain ⟨hquiet, howed⟩ := runEvent_error hrun
      rw [note_quiet hquiet, howed]
      exact .errored hheld e
    | ok result =>
      obtain ⟨hsession, hquiet, hresume⟩ := runEvent_ok hrun
      rw [note_quiet hquiet]
      show DriverStepped s ({ s with owed := owedAfter ev s.owed }.arm st.session (.ok result))
      refine .finished hheld (fun _ h => by cases h) fun r h hr => ?_
      cases h
      obtain ⟨howed, hsome⟩ := hresume hr
      exact ⟨hsession, hsome, fun e => e ▸ howed⟩

theorem driverStep_stepped {act : DriverAct} (h : driverStep s act = some t) :
    DriverStepped s t := by
  cases act
  case cancel =>
    cases h
    exact .cancelled
  all_goals cases hphase : s.phase <;> simp only [driverStep, hphase] at h
  case enter.idle =>
    cases h
    cases hb : s.begins with
    | true => exact .begun hphase hb
    | false => exact .exhausted hphase hb
  case connectFailed.dialing e =>
    cases h
    exact .errored (by rw [Driver.held, hphase]) e
  case connected.dialing =>
    cases h
    exact .connected hphase
  case helloTimeout.hello =>
    cases h
    exact .errored (by rw [Driver.held, hphase]) _
  case handshake.hello ev sent =>
    have hheld : s.held = some s.attempt.prior := by rw [Driver.held, hphase]
    split at h
    · cases h
      exact .kept
    · cases h
      exact .errored hheld _
    · split at h
      · cases h
        exact .errored hheld _
      · cases h
        exact .opened hphase
  case tick.running sent st =>
    cases h
    exact .ticked hphase sent
  case event.running ev sent st =>
    cases h
    exact .heard hphase ev sent
  case wake.waiting =>
    cases h
    exact .woken hphase
  case observeCancel.hello =>
    split at h <;> cases h
    exact .errored (by rw [Driver.held, hphase]) _
  case observeCancel.running st =>
    split at h <;> cases h
    refine .returned (by rw [Driver.held, hphase]) fun r e hr => ?_
    cases e
    cases hr
  case observeCancel.waiting =>
    split at h <;> cases h
    exact .roused hphase ‹_›
  all_goals first
    | cases h
    | split at h <;> cases h

end Patom.Discord
