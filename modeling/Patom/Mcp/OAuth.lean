import Patom.Foundation.Table
import Patom.Foundation.Transition
import Patom.Mcp.Registry

/-! The OAuth flows of a dynamically registered server: what starts and callbacks write, and what
the authorization server is asked for. -/

open Patom.Foundation

namespace Patom.Mcp.OAuth

abbrev CsrfToken := String
abbrev ClientId := String
abbrev Code := String
abbrev AccessToken := String

structure StoredCredentials where
  clientId : ClientId
  tokenResponse : Option AccessToken
  deriving DecidableEq

inductive CredentialPayload
  | oauth2 (stored : StoredCredentials)
  | staticHeaders
  deriving DecidableEq

structure McpCredentialRecord where
  serverId : McpServerId
  orgId : OrgId
  payload : CredentialPayload
  deriving DecidableEq

structure PendingCtx where
  state : CsrfToken
  serverId : McpServerId
  orgId : OrgId
  expiresAt : Time
  deriving DecidableEq

instance credentialKeyed : Keyed McpCredentialRecord McpServerId := ⟨(·.serverId)⟩
instance pendingKeyed : Keyed PendingCtx CsrfToken := ⟨(·.state)⟩

inductive McpError
  | backend (detail : String)
  deriving DecidableEq

def McpError.display : McpError → String
  | .backend detail => "mcp store backend error: " ++ detail

inductive AuthError
  | internalError (detail : String)
  deriving DecidableEq

inductive OAuthError
  | rmcp (e : AuthError)
  | misconfigured (detail : String)
  deriving DecidableEq

section Stores

variable (server : McpServerId) (org : OrgId) (credentials : Table McpCredentialRecord)

def upsert (payload : CredentialPayload) : Except McpError (Table McpCredentialRecord) :=
  match credentials.find? server with
  | some row =>
    if row.orgId = org then .ok (credentials.put { row with payload })
    else .error (.backend "credential upsert: org_id mismatch on existing row")
  | none => .ok (credentials.put ⟨server, org, payload⟩)

def read : Option McpCredentialRecord :=
  (credentials.find? server).filter (·.orgId = org)

def load : Except AuthError (Option StoredCredentials) :=
  match read server org credentials with
  | none => .ok none
  | some ⟨_, _, .oauth2 stored⟩ => .ok (some stored)
  | some ⟨_, _, .staticHeaders⟩ => .error (.internalError ("server " ++ server.display ++ "/" ++
      org.display ++ " has static_headers credentials, not oauth2"))

def save (stored : StoredCredentials) : Except AuthError (Table McpCredentialRecord) :=
  (upsert server org credentials (.oauth2 stored)).mapError fun e =>
    .internalError ("credential upsert: " ++ e.display)

/-- The client of a callback is the one of the row. -/
def configureOauthClient : Except OAuthError ClientId := do
  match ← (load server org credentials).mapError .rmcp with
  | some stored => .ok stored.clientId
  | none => .error (.misconfigured ("callback for DCR server " ++ server.display ++ "/" ++
      org.display ++ " has no persisted client_id; start_authorization must run first"))

def readPendingCtx (now : Time) (pending : Table PendingCtx) (csrf : CsrfToken) :
    Option PendingCtx :=
  (pending.find? csrf).filter (now < ·.expiresAt)

end Stores

/-- The server of the flows, and the client that the authorization server has issued a code to. -/
structure OAuthEnv where
  serverId : McpServerId
  orgId : OrgId
  issuedTo : Code → ClientId

structure Registration where
  csrf : CsrfToken
  clientId : ClientId
  deriving DecidableEq

instance registrationKeyed : Keyed Registration CsrfToken := ⟨(·.csrf)⟩

/-- `writer` is the flow that had written the row when it was read. -/
inductive CallbackPc
  | pending
  | configured (clientId : ClientId) (writer : Option CsrfToken)
  | granted (clientId : ClientId) (token : AccessToken)
  deriving DecidableEq

structure Callback where
  id : Nat
  csrf : CsrfToken
  code : Code
  pc : CallbackPc
  deriving DecidableEq

instance callbackKeyed : Keyed Callback Nat := ⟨(·.id)⟩

/-- `starts` have registered their client and not saved it yet.  `writer` is the flow that has
written the row last, `exchanged` the clients under which the flows have exchanged a code, and
`replaced` the tokens that a bootstrap has overwritten. -/
structure OAuthSt where
  clock : Time
  credentials : Table McpCredentialRecord
  pending : Table PendingCtx
  registered : Table Registration
  starts : Table Registration
  callbacks : Table Callback
  writer : Option CsrfToken
  exchanged : List (CsrfToken × ClientId)
  replaced : List AccessToken

def OAuthSt.init : OAuthSt := ⟨0, .empty, .empty, .empty, .empty, .empty, none, [], []⟩

inductive Answer
  | granted (token : AccessToken)
  | refused (deletes : Bool)

inductive OAuthAct
  | tick (d : Duration)
  | startAuthorization (csrf : CsrfToken) (clientId : ClientId) (ttl : Duration)
  | saveBootstrap (csrf : CsrfToken)
  | abandonStart (csrf : CsrfToken)
  | vendorError (csrf : CsrfToken)
  | callback (id : Nat) (csrf : CsrfToken) (code : Code)
  | configure (id : Nat)
  | exchange (id : Nat) (answer : Answer)
  | saveToken (id : Nat)
  | abandonCallback (id : Nat)

section Step

variable (env : OAuthEnv) (s : OAuthSt)

def OAuthSt.stored : Option StoredCredentials :=
  (load env.serverId env.orgId s.credentials).toOption.join

def OAuthSt.token : Option AccessToken := (s.stored env).bind (·.tokenResponse)

def OAuthSt.endStart (csrf : CsrfToken) : OAuthSt :=
  { s with starts := s.starts.delete (·.csrf = csrf) }

def OAuthSt.endCallback (id : Nat) : OAuthSt :=
  { s with callbacks := s.callbacks.delete (·.id = id) }

def OAuthSt.write (flow : CsrfToken) (stored : StoredCredentials) : OAuthSt :=
  match save env.serverId env.orgId s.credentials stored with
  | .ok credentials => { s with credentials, writer := some flow }
  | .error _ => s

/-- The client is registered and the state saved; the row is still as it was. -/
def startAuthorization (csrf : CsrfToken) (clientId : ClientId) (ttl : Duration) : Option OAuthSt :=
  if s.registered.rows.all fun r => r.csrf ≠ csrf && r.clientId ≠ clientId then
    some { s with
      registered := s.registered.put ⟨csrf, clientId⟩
      starts := s.starts.put ⟨csrf, clientId⟩
      pending := s.pending.put ⟨csrf, env.serverId, env.orgId, s.clock + ttl⟩ }
  else none

def saveBootstrap (r : Registration) : OAuthSt :=
  { (s.endStart r.csrf).write env r.csrf ⟨r.clientId, none⟩ with
    replaced := s.replaced ++ (s.token env).toList }

def exchange (c : Callback) (clientId : ClientId) : Answer → Option OAuthSt
  | .granted token =>
    if env.issuedTo c.code = clientId then
      some { s with
        pending := s.pending.delete (·.state = c.csrf)
        callbacks := s.callbacks.put { c with pc := .granted clientId token }
        exchanged := s.exchanged ++ [(c.csrf, clientId)] }
    else none
  | .refused deletes =>
    some { s.endCallback c.id with
      pending := if deletes then s.pending.delete (·.state = c.csrf) else s.pending
      exchanged := s.exchanged ++ [(c.csrf, clientId)] }

def oauthStep : Step OAuthSt OAuthAct
  | s, .tick d => some { s with clock := s.clock + d }
  | s, .startAuthorization csrf clientId ttl => startAuthorization env s csrf clientId ttl
  | s, .saveBootstrap csrf => (s.starts.find? csrf).map (saveBootstrap env s)
  | s, .abandonStart csrf => some (s.endStart csrf)
  | s, .vendorError csrf =>
    match readPendingCtx s.clock s.pending csrf with
    | some _ => some { s with pending := s.pending.delete (·.state = csrf) }
    | none => some s
  | s, .callback id csrf code =>
    if (s.callbacks.find? id).isNone then
      match readPendingCtx s.clock s.pending csrf with
      | some _ => some { s with callbacks := s.callbacks.put ⟨id, csrf, code, .pending⟩ }
      | none => some s
    else none
  | s, .configure id => (s.callbacks.find? id).bind fun c =>
    match c.pc, configureOauthClient env.serverId env.orgId s.credentials with
    | .pending, .ok clientId =>
      some { s with callbacks := s.callbacks.put { c with pc := .configured clientId s.writer } }
    | .pending, .error _ => some (s.endCallback id)
    | _, _ => none
  | s, .exchange id answer => (s.callbacks.find? id).bind fun c =>
    match c.pc, s.pending.find? c.csrf with
    | .configured clientId _, some _ => exchange env s c clientId answer
    | .configured _ _, none => some (s.endCallback id)
    | _, _ => none
  | s, .saveToken id => (s.callbacks.find? id).bind fun c =>
    match c.pc with
    | .granted clientId token =>
      some ((s.endCallback id).write env c.csrf ⟨clientId, some token⟩)
    | _ => none
  | s, .abandonCallback id => some (s.endCallback id)

/-- Only what an exchange has brought takes the place of a token, and each callback exchanges its
code under the client that its own start has registered. -/
structure Undisturbed (s : OAuthSt) : Prop where
  kept : s.replaced = []
  own : ∀ p ∈ s.exchanged, ⟨p.1, p.2⟩ ∈ s.registered

/-- No start writes its bootstrap over a token, and what a callback has read was written by its own
flow. -/
def Unshared (s : OAuthSt) : OAuthAct → Prop
  | .saveBootstrap _ => s.token env = none
  | .exchange id _ => ∀ c ∈ s.callbacks.find? id, ∀ clientId writer,
      c.pc = .configured clientId writer → (s.pending.find? c.csrf).isSome → writer = some c.csrf
  | _ => True

end Step

variable {env : OAuthEnv} {s t : OAuthSt}

section Rows

variable {server : McpServerId} {org : OrgId} {credentials credentials' : Table McpCredentialRecord}

theorem read_upsert {payload : CredentialPayload}
    (h : upsert server org credentials payload = .ok credentials') :
    ∃ row, read server org credentials' = some row ∧ row.payload = payload := by
  unfold upsert at h
  split at h
  case h_1 row hrow =>
    have hserver : row.serverId = server := Table.key_of_find? hrow
    split at h
    case isTrue horg =>
      cases h
      have hfind : (credentials.put { row with payload }).find? server =
          some { row with payload } := hserver ▸ Table.find?_put_self credentials _
      exact ⟨{ row with payload }, by rw [read, hfind]; simp [horg], rfl⟩
    case isFalse => cases h
  case h_2 hnone =>
    cases h
    have hfind : (credentials.put ⟨server, org, payload⟩).find? server =
        some ⟨server, org, payload⟩ := Table.find?_put_self credentials _
    exact ⟨⟨server, org, payload⟩, by simp [read, hfind], rfl⟩

theorem configureOauthClient_ok {clientId : ClientId}
    (h : configureOauthClient server org credentials = .ok clientId) :
    ∃ row token, read server org credentials = some row ∧
      row.payload = .oauth2 ⟨clientId, token⟩ := by
  unfold configureOauthClient load at h
  split at h
  case h_1 => cases h
  case h_2 server' org' stored hrow =>
    cases h
    exact ⟨_, stored.tokenResponse, hrow, rfl⟩
  case h_3 => cases h

end Rows

variable (env) in
theorem write_cases (s : OAuthSt) (flow : CsrfToken) (stored : StoredCredentials) :
    s.write env flow stored = s ∨ ∃ credentials, s.write env flow stored =
      { s with credentials, writer := some flow } ∧ ∃ row,
        read env.serverId env.orgId credentials = some row ∧ row.payload = .oauth2 stored := by
  unfold OAuthSt.write save
  cases h : upsert env.serverId env.orgId s.credentials (.oauth2 stored) with
  | error e => exact .inl rfl
  | ok credentials => exact .inr ⟨credentials, rfl, read_upsert h⟩

structure OAuthInv (env : OAuthEnv) (s : OAuthSt) : Prop where
  clients : ∀ r ∈ s.registered, ∀ r' ∈ s.registered, r.clientId = r'.clientId → r = r'
  starts : ∀ r ∈ s.starts, r ∈ s.registered
  written : ∀ row, read env.serverId env.orgId s.credentials = some row →
    ∃ r ∈ s.registered, s.writer = some r.csrf ∧ ∃ token, row.payload = .oauth2 ⟨r.clientId, token⟩
  configured : ∀ c ∈ s.callbacks, ∀ clientId writer, c.pc = .configured clientId writer →
    ∃ r ∈ s.registered, writer = some r.csrf ∧ r.clientId = clientId
  granted : ∀ c ∈ s.callbacks, ∀ clientId token, c.pc = .granted clientId token →
    (c.csrf, clientId) ∈ s.exchanged

theorem oauthInv_init : OAuthInv env .init where
  clients _ hr := absurd hr (Table.not_mem_empty _)
  starts _ hr := absurd hr (Table.not_mem_empty _)
  written _ hrow := by cases hrow
  configured _ hc := absurd hc (Table.not_mem_empty _)
  granted _ hc := absurd hc (Table.not_mem_empty _)

theorem undisturbed_init : Undisturbed .init :=
  ⟨rfl, fun _ hp => absurd hp List.not_mem_nil⟩

section Frames

variable (h : OAuthInv env s)

include h

theorem OAuthInv.write {r : Registration} (hr : r ∈ s.registered) (token : Option AccessToken) :
    OAuthInv env (s.write env r.csrf ⟨r.clientId, token⟩) := by
  obtain hsame | ⟨credentials, hwrite, row, hrow, hpayload⟩ :=
    write_cases env s r.csrf ⟨r.clientId, token⟩
  · rwa [hsame]
  · rw [hwrite]
    refine ⟨h.clients, h.starts, fun row' hrow' => ?_, h.configured, h.granted⟩
    obtain rfl := Option.some.inj (hrow'.symm.trans hrow)
    exact ⟨r, hr, rfl, token, hpayload⟩

theorem OAuthInv.endStart (csrf : CsrfToken) : OAuthInv env (s.endStart csrf) :=
  ⟨h.clients, fun r hr => h.starts r (Table.mem_delete.mp hr).1, h.written, h.configured, h.granted⟩

theorem OAuthInv.endCallback (id : Nat) : OAuthInv env (s.endCallback id) :=
  ⟨h.clients, h.starts, h.written, fun c hc => h.configured c (Table.mem_delete.mp hc).1,
    fun c hc => h.granted c (Table.mem_delete.mp hc).1⟩

theorem OAuthInv.putCallback {c : Callback}
    (hc : ∀ clientId writer, c.pc = .configured clientId writer →
      ∃ r ∈ s.registered, writer = some r.csrf ∧ r.clientId = clientId)
    (hg : ∀ clientId token, c.pc = .granted clientId token → (c.csrf, clientId) ∈ s.exchanged) :
    OAuthInv env { s with callbacks := s.callbacks.put c } := by
  refine ⟨h.clients, h.starts, h.written, fun d hd => ?_, fun d hd => ?_⟩ <;>
    obtain rfl | ⟨hd, -⟩ := Table.mem_put.mp hd
  · exact hc
  · exact h.configured d hd
  · exact hg
  · exact h.granted d hd

theorem OAuthInv.logExchange (p : CsrfToken × ClientId) (pending : Table PendingCtx) :
    OAuthInv env { s with pending, exchanged := s.exchanged ++ [p] } :=
  ⟨h.clients, h.starts, h.written, h.configured,
    fun c hc clientId token hpc => List.mem_append_left _ (h.granted c hc clientId token hpc)⟩

theorem OAuthInv.startAuthorization {csrf : CsrfToken} {clientId : ClientId} {ttl : Duration}
    (hstep : startAuthorization env s csrf clientId ttl = some t) : OAuthInv env t := by
  obtain ⟨hfresh, ht⟩ := Option.ite_none_right_eq_some.mp hstep
  cases ht
  have hnew : ∀ r ∈ s.registered, r.csrf ≠ csrf ∧ r.clientId ≠ clientId := by
    intro r hr
    simpa using List.all_eq_true.mp hfresh r hr
  have hgrows : ∀ r ∈ s.registered, r ∈ s.registered.put ⟨csrf, clientId⟩ := fun r hr =>
    Table.mem_put.mpr (.inr ⟨hr, (hnew r hr).1⟩)
  refine ⟨fun r hr r' hr' hid => ?_, fun r hr => ?_, fun row hrow => ?_,
    fun c hc id writer hpc => ?_, h.granted⟩
  · obtain rfl | ⟨hr, -⟩ := Table.mem_put.mp hr <;> obtain rfl | ⟨hr', -⟩ := Table.mem_put.mp hr'
    · rfl
    · exact absurd hid.symm (hnew r' hr').2
    · exact absurd hid (hnew r hr).2
    · exact h.clients r hr r' hr' hid
  · obtain rfl | ⟨hr, -⟩ := Table.mem_put.mp hr
    · exact Table.mem_put.mpr (.inl rfl)
    · exact hgrows r (h.starts r hr)
  · obtain ⟨r, hr, hrest⟩ := h.written row hrow
    exact ⟨r, hgrows r hr, hrest⟩
  · obtain ⟨r, hr, hrest⟩ := h.configured c hc id writer hpc
    exact ⟨r, hgrows r hr, hrest⟩

end Frames

section Step

theorem OAuthInv.own_iff (h : OAuthInv env s) {c : Callback} (hc : c ∈ s.callbacks)
    {clientId : ClientId} {writer : Option CsrfToken} (hpc : c.pc = .configured clientId writer) :
    ⟨c.csrf, clientId⟩ ∈ s.registered ↔ writer = some c.csrf := by
  obtain ⟨r, hr, rfl, rfl⟩ := h.configured c hc clientId writer hpc
  constructor
  · intro hown
    exact congrArg (fun r => some r.csrf) (h.clients r hr _ hown rfl)
  · intro hwriter
    rw [← Option.some.inj hwriter]
    exact hr

theorem exchange_exchanged {c : Callback} {clientId : ClientId} {answer : Answer}
    (hstep : exchange env s c clientId answer = some t) :
    t.replaced = s.replaced ∧ t.registered = s.registered
      ∧ t.exchanged = s.exchanged ++ [(c.csrf, clientId)] := by
  cases answer with
  | granted token =>
    obtain ⟨-, ht⟩ := Option.ite_none_right_eq_some.mp hstep
    cases ht
    exact ⟨rfl, rfl, rfl⟩
  | refused deletes =>
    cases hstep
    exact ⟨rfl, rfl, rfl⟩

theorem OAuthInv.exchange (h : OAuthInv env s) {c : Callback} {clientId : ClientId}
    {answer : Answer} (hstep : exchange env s c clientId answer = some t) : OAuthInv env t := by
  cases answer with
  | granted token =>
    obtain ⟨-, ht⟩ := Option.ite_none_right_eq_some.mp hstep
    cases ht
    refine (h.logExchange (c.csrf, clientId) _).putCallback ?_ ?_
    · intro id writer hpc
      cases hpc
    · intro id token' hpc
      cases hpc
      exact List.mem_append_right _ (List.mem_singleton_self _)
  | refused deletes =>
    cases hstep
    exact (h.endCallback c.id).logExchange _ _

variable (env) in
theorem write_frame (s : OAuthSt) (flow : CsrfToken) (stored : StoredCredentials) :
    (s.write env flow stored).replaced = s.replaced
      ∧ (s.write env flow stored).registered = s.registered
      ∧ (s.write env flow stored).exchanged = s.exchanged := by
  obtain hsame | ⟨credentials, hwrite, -⟩ := write_cases env s flow stored
  · rw [hsame]
    exact ⟨rfl, rfl, rfl⟩
  · rw [hwrite]
    exact ⟨rfl, rfl, rfl⟩

theorem OAuthInv.step {a : OAuthAct} (h : OAuthInv env s) (hundisturbed : Undisturbed s)
    (hstep : oauthStep env s a = some t) : OAuthInv env t := by
  cases a with
  | tick d =>
    cases hstep
    exact ⟨h.clients, h.starts, h.written, h.configured, h.granted⟩
  | startAuthorization csrf clientId ttl => exact h.startAuthorization hstep
  | saveBootstrap csrf =>
    obtain ⟨r, hr, rfl⟩ := Option.map_eq_some_iff.mp hstep
    have hwrite := (h.endStart r.csrf).write (h.starts r (Table.mem_of_find? hr)) none
    exact ⟨hwrite.clients, hwrite.starts, hwrite.written, hwrite.configured, hwrite.granted⟩
  | abandonStart csrf =>
    cases hstep
    exact h.endStart csrf
  | vendorError csrf =>
    simp only [oauthStep] at hstep
    split at hstep <;> cases hstep
    · exact ⟨h.clients, h.starts, h.written, h.configured, h.granted⟩
    · exact h
  | callback id csrf code =>
    obtain ⟨-, hstep⟩ := Option.ite_none_right_eq_some.mp hstep
    split at hstep <;> cases hstep
    · exact h.putCallback (fun _ _ hpc => by cases hpc) (fun _ _ hpc => by cases hpc)
    · exact h
  | configure id =>
    obtain ⟨c, hc, hstep⟩ := Option.bind_eq_some_iff.mp hstep
    split at hstep
    case h_1 clientId hpc hload =>
      cases hstep
      refine h.putCallback (fun id writer hpc' => ?_) (fun _ _ hpc' => by cases hpc')
      cases hpc'
      obtain ⟨row, token, hrow, hpayload⟩ := configureOauthClient_ok hload
      obtain ⟨r, hr, hwriter, token', hpayload'⟩ := h.written row hrow
      cases hpayload.symm.trans hpayload'
      exact ⟨r, hr, hwriter, rfl⟩
    case h_2 =>
      cases hstep
      exact h.endCallback id
    case h_3 => cases hstep
  | exchange id answer =>
    obtain ⟨c, hc, hstep⟩ := Option.bind_eq_some_iff.mp hstep
    split at hstep
    case h_1 => exact h.exchange hstep
    case h_2 =>
      cases hstep
      exact h.endCallback id
    case h_3 => cases hstep
  | saveToken id =>
    obtain ⟨c, hc, hstep⟩ := Option.bind_eq_some_iff.mp hstep
    split at hstep
    case h_1 clientId token hpc =>
      cases hstep
      have hown := hundisturbed.own _ (h.granted c (Table.mem_of_find? hc) clientId token hpc)
      exact (h.endCallback id).write (r := ⟨c.csrf, clientId⟩) hown (some token)
    case h_2 => cases hstep
  | abandonCallback id =>
    cases hstep
    exact h.endCallback id

theorem undisturbed_of_frame (hreplaced : t.replaced = s.replaced)
    (hregistered : ∀ r ∈ s.registered, r ∈ t.registered) (hexchanged : t.exchanged = s.exchanged)
    (h : Undisturbed s) : Undisturbed t :=
  ⟨hreplaced.trans h.kept, fun p hp => hregistered _ (h.own p (hexchanged ▸ hp))⟩

theorem undisturbed_saveBootstrap_iff {csrf : CsrfToken} (hs : Undisturbed s)
    (hstep : oauthStep env s (.saveBootstrap csrf) = some t) :
    Undisturbed t ↔ Unshared env s (.saveBootstrap csrf) := by
  obtain ⟨r, -, rfl⟩ := Option.map_eq_some_iff.mp hstep
  obtain ⟨-, hregistered, hexchanged⟩ :=
    write_frame env (s.endStart r.csrf) r.csrf ⟨r.clientId, none⟩
  constructor
  · intro ht
    have hnil : s.replaced ++ (s.token env).toList = [] := ht.kept
    exact Option.toList_eq_nil_iff.mp (List.append_eq_nil_iff.mp hnil).2
  · intro htoken
    refine ⟨?_, fun p hp => ?_⟩
    · show s.replaced ++ (s.token env).toList = []
      rw [show s.token env = none from htoken, hs.kept]
      rfl
    · have hp' : p ∈ s.exchanged := hexchanged ▸ hp
      exact hregistered.symm ▸ hs.own p hp'

theorem OAuthInv.exchange_iff {id : Nat} {answer : Answer} (h : OAuthInv env s)
    (hs : Undisturbed s) (hstep : oauthStep env s (.exchange id answer) = some t) :
    Undisturbed t ↔ Unshared env s (.exchange id answer) := by
  obtain ⟨c, hc, hstep⟩ := Option.bind_eq_some_iff.mp hstep
  split at hstep
  case h_1 clientId writer row hpc hrow =>
    obtain ⟨hreplaced, hregistered, hexchanged⟩ := exchange_exchanged hstep
    have hown := h.own_iff (Table.mem_of_find? hc) hpc
    constructor
    · intro ht c' hc' clientId' writer' hpc' _
      obtain rfl := Option.some.inj (hc.symm.trans hc')
      cases hpc.symm.trans hpc'
      refine hown.mp (hregistered ▸ ht.own (c.csrf, clientId) ?_)
      rw [hexchanged]
      exact List.mem_append_right _ (List.mem_singleton_self _)
    · intro hguard
      refine ⟨hreplaced.trans hs.kept, fun p hp => ?_⟩
      rw [hexchanged] at hp
      rw [hregistered]
      obtain hp | hp := List.mem_append.mp hp
      · exact hs.own p hp
      · obtain rfl := List.mem_singleton.mp hp
        exact hown.mpr (hguard c hc clientId writer hpc (Option.isSome_of_eq_some hrow))
  case h_2 clientId writer hpc hrow =>
    cases hstep
    have hkept : Undisturbed (s.endCallback id) := ⟨hs.kept, hs.own⟩
    refine iff_of_true hkept ?_
    intro c' hc' _ _ _ hpending
    obtain rfl := Option.some.inj (hc.symm.trans hc')
    rw [hrow] at hpending
    cases hpending
  case h_3 => cases hstep

theorem OAuthInv.undisturbed_iff {a : OAuthAct} (h : OAuthInv env s) (hs : Undisturbed s)
    (hstep : oauthStep env s a = some t) : Undisturbed t ↔ Unshared env s a := by
  have hkeeps {t : OAuthSt} (hreplaced : t.replaced = s.replaced)
      (hregistered : ∀ r ∈ s.registered, r ∈ t.registered)
      (hexchanged : t.exchanged = s.exchanged) : Undisturbed t ↔ True :=
    iff_true_intro (undisturbed_of_frame hreplaced hregistered hexchanged hs)
  cases a with
  | tick d =>
    cases hstep
    exact hkeeps rfl (fun _ hr => hr) rfl
  | startAuthorization csrf clientId ttl =>
    obtain ⟨hfresh, ht⟩ := Option.ite_none_right_eq_some.mp hstep
    cases ht
    refine hkeeps rfl (fun r hr => Table.mem_put.mpr (.inr ⟨hr, ?_⟩)) rfl
    have hnew := List.all_eq_true.mp hfresh r hr
    exact (by simpa using hnew : r.csrf ≠ csrf ∧ r.clientId ≠ clientId).1
  | saveBootstrap csrf =>
    exact undisturbed_saveBootstrap_iff hs hstep
  | abandonStart csrf =>
    cases hstep
    exact hkeeps rfl (fun _ hr => hr) rfl
  | vendorError csrf =>
    simp only [oauthStep] at hstep
    split at hstep <;> cases hstep <;> exact hkeeps rfl (fun _ hr => hr) rfl
  | callback id csrf code =>
    obtain ⟨-, hstep⟩ := Option.ite_none_right_eq_some.mp hstep
    split at hstep <;> cases hstep <;> exact hkeeps rfl (fun _ hr => hr) rfl
  | configure id =>
    obtain ⟨c, hc, hstep⟩ := Option.bind_eq_some_iff.mp hstep
    split at hstep
    case h_1 =>
      cases hstep
      exact hkeeps rfl (fun _ hr => hr) rfl
    case h_2 =>
      cases hstep
      exact hkeeps rfl (fun _ hr => hr) rfl
    case h_3 => cases hstep
  | exchange id answer =>
    exact h.exchange_iff hs hstep
  | saveToken id =>
    obtain ⟨c, hc, hstep⟩ := Option.bind_eq_some_iff.mp hstep
    split at hstep
    case h_1 clientId token hpc =>
      cases hstep
      obtain ⟨hreplaced, hregistered, hexchanged⟩ :=
        write_frame env (s.endCallback id) c.csrf ⟨clientId, some token⟩
      exact hkeeps hreplaced (fun _ hr => hregistered.symm ▸ hr) hexchanged
    case h_2 => cases hstep
  | abandonCallback id =>
    cases hstep
    exact hkeeps rfl (fun _ hr => hr) rfl

end Step

/-- Over any interleaving of starts and callbacks, tokens are kept and clients are one's own
exactly if no start is saved over a token and no row is read that another flow has written. -/
theorem undisturbed_iff_unshared (env : OAuthEnv) (as : List OAuthAct) :
    Always (oauthStep env) Undisturbed .init as ↔ Steps (oauthStep env) (Unshared env) .init as :=
  always_iff_steps (OAuthInv env) (fun _ _ _ h hs hstep _ => h.step hs hstep)
    (fun _ _ _ h hs hstep => h.undisturbed_iff hs hstep) oauthInv_init undisturbed_init as

namespace Sample

def notion : OAuthEnv where
  serverId := 1
  orgId := 2
  issuedTo code := code

def begun (csrf : CsrfToken) (clientId : ClientId) : List OAuthAct :=
  [.startAuthorization csrf clientId 600, .saveBootstrap csrf]

def connected : List OAuthAct :=
  begun "csrf-1" "client-1" ++ [.callback 1 "csrf-1" "client-1", .configure 1,
    .exchange 1 (.granted "token-1"), .saveToken 1]

def abandoned : List OAuthAct := connected ++ begun "csrf-2" "client-2"

def overlapping : List OAuthAct :=
  begun "csrf-1" "client-1" ++ begun "csrf-2" "client-2" ++
    [.callback 1 "csrf-1" "client-1", .configure 1, .exchange 1 (.refused true)]

end Sample

/-- A start throws the token away, and a callback comes with the client of another flow. -/
theorem flows_disturbed :
    ¬ Always (oauthStep Sample.notion) Undisturbed .init Sample.abandoned ∧
      ¬ Always (oauthStep Sample.notion) Undisturbed .init Sample.overlapping := by
  have hlost : ((run (oauthStep Sample.notion) .init Sample.abandoned).any
      fun t => t.replaced ≠ []) = true := by decide +kernel
  have hstrange : ((run (oauthStep Sample.notion) .init Sample.overlapping).any
      fun t => t.exchanged.any fun p => !t.registered.rows.contains ⟨p.1, p.2⟩) = true := by
    decide +kernel
  obtain ⟨t, hrun, hreplaced⟩ := (Option.any_eq_true _ _).mp hlost
  obtain ⟨u, hrun', hforeign⟩ := (Option.any_eq_true _ _).mp hstrange
  refine ⟨fun h => of_decide_eq_true hreplaced (h.run hrun).kept, fun h => ?_⟩
  obtain ⟨p, hp, hnot⟩ := List.any_eq_true.mp hforeign
  have hown := (h.run hrun').own p hp
  rw [List.contains_iff_mem.mpr hown] at hnot
  cases hnot

end Patom.Mcp.OAuth
