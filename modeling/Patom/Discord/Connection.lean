import Patom.Types

namespace Patom.Discord

def DISCORD_SNOWFLAKE_MAX_LEN : Nat := 20
def DISCORD_SESSION_FIELD_MAX_LEN : Nat := 512
def DISCORD_RECONNECT_MAX : Nat := 64

def decimal (digits : List Char) : Nat :=
  digits.foldl (fun n c => 10 * n + (c.toNat - 48)) 0

@[ext] structure DiscordUserId where
  asStr : String
  nonempty : asStr ≠ ""
  bounded : asStr.utf8ByteSize ≤ DISCORD_SNOWFLAKE_MAX_LEN
  digits : asStr.toList.all Char.isDigit
  fits : decimal asStr.toList < 2 ^ 64

instance : DecidableEq DiscordUserId := fun _ _ => decidable_of_iff _ DiscordUserId.ext_iff.symm

def DiscordUserId.tryFrom (raw : String) : Except ParseError DiscordUserId :=
  if h : raw = "" then .error (.empty "discord_user_id")
  else if h' : raw.utf8ByteSize ≤ DISCORD_SNOWFLAKE_MAX_LEN then
    if hd : raw.toList.all Char.isDigit then
      if hf : decimal raw.toList < 2 ^ 64 then .ok ⟨raw, h, h', hd, hf⟩
      else .error (.malformed "discord_user_id" "snowflake must fit in u64")
    else .error (.malformed "discord_user_id" "snowflake must be ASCII digits")
  else .error (.tooLong "discord_user_id" DISCORD_SNOWFLAKE_MAX_LEN raw.utf8ByteSize)

abbrev ApplicationId := DiscordUserId

inductive FatalClose
  | authFailed
  | invalidShard
  | shardingRequired
  | invalidApiVersion
  | invalidIntents
  | disallowedIntents
  deriving DecidableEq

def FatalClose.code : FatalClose → Nat
  | .authFailed => 4004
  | .invalidShard => 4010
  | .shardingRequired => 4011
  | .invalidApiVersion => 4012
  | .invalidIntents => 4013
  | .disallowedIntents => 4014

inductive CloseAction
  | normal
  | reconnect
  | fatal (close : FatalClose)
  deriving DecidableEq

def classifyClose : Option Nat → CloseAction
  | some 1000 | some 1001 => .normal
  | some 4004 => .fatal .authFailed
  | some 4010 => .fatal .invalidShard
  | some 4011 => .fatal .shardingRequired
  | some 4012 => .fatal .invalidApiVersion
  | some 4013 => .fatal .invalidIntents
  | some 4014 => .fatal .disallowedIntents
  | _ => .reconnect

theorem classifyClose_code (close : FatalClose) : classifyClose (some close.code) = .fatal close := by
  cases close <;> rfl

inductive DiscordError
  | gateway (detail : String)
  | postFailed (status : Nat) (body : String)
  | unknownApp (app : String)
  | http (detail : String)
  | decode (detail : String)
  | parse (e : ParseError)
  | crypto (detail : String)
  | db (detail : String)
  deriving DecidableEq

inductive Opcode
  | dispatch
  | heartbeat
  | identify
  | resume
  | reconnect
  | requestGuildMembers
  | invalidSession
  | hello
  | heartbeatAck
  | other (raw : Fin 256)
  deriving DecidableEq

def Opcode.fromU8 (raw : Fin 256) : Opcode :=
  match raw.val with
  | 0 => .dispatch
  | 1 => .heartbeat
  | 2 => .identify
  | 6 => .resume
  | 7 => .reconnect
  | 8 => .requestGuildMembers
  | 9 => .invalidSession
  | 10 => .hello
  | 11 => .heartbeatAck
  | _ => .other raw

def Opcode.asU8 : Opcode → Fin 256
  | .dispatch => 0
  | .heartbeat => 1
  | .identify => 2
  | .resume => 6
  | .reconnect => 7
  | .requestGuildMembers => 8
  | .invalidSession => 9
  | .hello => 10
  | .heartbeatAck => 11
  | .other raw => raw

theorem Opcode.asU8_fromU8 (raw : Fin 256) : (Opcode.fromU8 raw).asU8 = raw := by
  unfold Opcode.fromU8
  split
  on_goal 10 => rfl
  all_goals
    rename_i h
    exact Fin.ext h.symm

structure RawReady where
  sessionId : String
  resumeGatewayUrl : String
  userId : DiscordUserId

/-- A payload, by how it reads in each of the shapes the connection asks for. -/
structure Payload where
  asBool : Option Bool
  heartbeatInterval : Option Nat
  ready : Option RawReady

structure GatewayRecv where
  op : Opcode
  seq : Option Nat
  eventType : Option String
  data : Option Payload

inductive WsEvent
  | text (frame : Option GatewayRecv)
  | close (code : Option Nat)

structure Hello where
  heartbeatIntervalMs : Nat
  deriving DecidableEq

structure Ready where
  sessionId : String
  resumeGatewayUrl : String
  botUserId : DiscordUserId
  deriving DecidableEq

def GatewayRecv.parseData {α : Type} (recv : GatewayRecv) (read : Payload → Option α) :
    Except DiscordError α :=
  match recv.data with
  | none => .error (.gateway ("op " ++ toString recv.op.asU8.val ++ " carried no data"))
  | some data =>
    match read data with
    | none => .error (.decode "payload of another shape")
    | some a => .ok a

def parseHello (recv : GatewayRecv) : Except DiscordError Hello := do
  let interval ← recv.parseData (·.heartbeatInterval)
  if interval = 0 then throw (.gateway "hello heartbeat_interval was 0")
  return ⟨interval⟩

def boundedSessionField (raw field : String) : Except DiscordError String :=
  if raw = "" then .error (.parse (.empty field))
  else if DISCORD_SESSION_FIELD_MAX_LEN < raw.utf8ByteSize then
    .error (.parse (.tooLong field DISCORD_SESSION_FIELD_MAX_LEN raw.utf8ByteSize))
  else .ok raw

def parseReady (recv : GatewayRecv) : Except DiscordError Ready := do
  let raw ← recv.parseData (·.ready)
  let sessionId ← boundedSessionField raw.sessionId "discord_session_id"
  let resumeGatewayUrl ← boundedSessionField raw.resumeGatewayUrl "discord_resume_gateway_url"
  return ⟨sessionId, resumeGatewayUrl, raw.userId⟩

/-- A payload that is no `bool` is taken as not resumable. -/
def parseInvalidSessionResumable (recv : GatewayRecv) : Bool :=
  (recv.data.bind (·.asBool)).getD false

structure SessionState where
  sessionId : String
  resumeGatewayUrl : String
  lastSeq : Nat
  botUserId : DiscordUserId
  deriving DecidableEq

inductive Directive
  | stop
  | resume
  | freshReconnect
  | fatal (close : FatalClose)
  deriving DecidableEq

structure RunResult where
  directive : Directive
  session : Option SessionState

structure ConnState where
  session : Option SessionState
  acked : Bool

inductive FrameAction
  | continue
  | beatNow
  | done (directive : Directive)

inductive Opening
  | identify
  | resume (sessionId : String) (seq : Nat)
  deriving DecidableEq

def opening : Option SessionState → Opening
  | some s => .resume s.sessionId s.lastSeq
  | none => .identify

def resumeOrFresh (st : ConnState) : Directive :=
  if st.session.isSome then .resume else .freshReconnect

def closeDirective (code : Option Nat) (st : ConnState) : Directive :=
  match classifyClose code with
  | .normal => .stop
  | .fatal fc => .fatal fc
  | .reconnect => if st.session.isSome then .resume else .freshReconnect

def Ready.session (ready : Ready) (seq : Option Nat) : SessionState :=
  ⟨ready.sessionId, ready.resumeGatewayUrl, seq.getD 0, ready.botUserId⟩

def SessionState.at (seq : Option Nat) (s : SessionState) : SessionState :=
  { s with lastSeq := seq.getD s.lastSeq }

def handleDispatch (recv : GatewayRecv) (st : ConnState) : ConnState :=
  let st := { st with session := st.session.map (·.at recv.seq) }
  if recv.eventType = some "READY" then
    match parseReady recv with
    | .ok ready => { st with session := some (ready.session recv.seq) }
    | .error _ => st
  else st

def handleEvent (ev : WsEvent) (st : ConnState) : FrameAction × ConnState :=
  match ev with
  | .close code => (.done (closeDirective code st), st)
  | .text none => (.continue, st)
  | .text (some recv) =>
    match recv.op with
    | .heartbeatAck => (.continue, { st with acked := true })
    | .heartbeat => (.beatNow, st)
    | .reconnect => (.done (resumeOrFresh st), st)
    | .invalidSession =>
      let resumable := parseInvalidSessionResumable recv && st.session.isSome
      (.done (if resumable then .resume else .freshReconnect), st)
    | .dispatch => (.continue, handleDispatch recv st)
    | _ => (.continue, st)

abbrev Ran := ConnState ⊕ Except DiscordError RunResult

section Run

variable (sent : Except DiscordError Unit) (st : ConnState)

/-- `sent` is what the transport says to the heartbeat. -/
def sendBeat : Ran :=
  match sent with
  | .ok () => .inl { st with acked := false }
  | .error e => .inr (.error e)

def beat : Ran :=
  if st.acked then sendBeat sent st else .inr (.ok ⟨resumeOrFresh st, st.session⟩)

def runEvent (ev : Option WsEvent) : Ran :=
  match ev with
  | none => .inr (.ok ⟨resumeOrFresh st, st.session⟩)
  | some ev =>
    match handleEvent ev st with
    | (.continue, st) => .inl st
    | (.beatNow, st) => sendBeat sent st
    | (.done directive, st) => .inr (.ok ⟨directive, st.session⟩)

end Run

/-- `read_hello` waits on, or ends. -/
def readHello : Option WsEvent → Option (Except DiscordError Hello)
  | some (.text (some recv)) => if recv.op = .hello then some (parseHello recv) else none
  | some (.text none) => some (.error (.decode "frame"))
  | some (.close code) =>
    some (.error (.gateway ("closed during handshake: " ++
      match code with
      | some c => "Some(" ++ toString c ++ ")"
      | none => "None")))
  | none => some (.error (.gateway "stream ended before HELLO"))

end Patom.Discord
