import Patom.Foundation.Transition
import Patom.Mcp.Registry

open Patom.Foundation

namespace Patom.Mcp

def McpState.catalogue (s : McpState) : McpState := { s with servers := .empty }

def enabled (col : Collation) (db : McpServers) : List McpServerRecord :=
  (listEnabled col db).take MAX_MCP_SERVERS

structure Served where
  row : McpServerRecord
  now : Time
  reply : Reply

def serve (acc : Table ConnectedServer × McpState) (x : Served) :
    Table ConnectedServer × McpState :=
  (refreshOne x.now x.row x.reply acc).1

/-- The catalogue is one built from just these rows, whatever their servers answered. -/
def BuiltFrom (rows : List McpServerRecord) (s : McpState) : Prop :=
  ∃ (prior : Table ConnectedServer) (served : List Served), served.map (·.row) = rows
    ∧ s.catalogue = (served.foldl serve (prior, .default)).2.finish.catalogue

inductive Phase
  | started
  | listed (rows : List McpServerRecord)
  | serving (rest : List McpServerRecord) (acc : Table ConnectedServer × McpState)

/-- A refresh under way; `current` while no row has changed since it started. -/
structure Flight where
  current : Bool
  phase : Phase

/-- A registry over its store; `fresh` once a refresh that started after the last change of a row
has completed. -/
structure Registry where
  db : McpServers
  inner : McpState
  flights : List Flight
  fresh : Bool

inductive Registry.Act
  | change (db : McpServers)
  | start
  | list (i : Nat)
  | fail (i : Nat)
  | take (i : Nat)
  | serve (i : Nat) (now : Time) (reply : Reply)
  | swap (i : Nat)

/-- One `await` of one refresh, or a write to `mcp_servers`. -/
def Registry.step (col : Collation) : Step Registry Registry.Act
  | r, .change db => some
    { r with db, fresh := false, flights := r.flights.map fun f => { f with current := false } }
  | r, .start => some { r with flights := r.flights ++ [⟨true, .started⟩] }
  | r, .list i => do
    let ⟨current, .started⟩ ← r.flights[i]? | none
    return { r with flights := r.flights.set i ⟨current, .listed (enabled col r.db)⟩ }
  | r, .fail i => do
    let ⟨_, .started⟩ ← r.flights[i]? | none
    return { r with flights := r.flights.eraseIdx i }
  | r, .take i => do
    let ⟨current, .listed rows⟩ ← r.flights[i]? | none
    return { r with
      inner := { r.inner with servers := .empty }
      flights := r.flights.set i ⟨current, .serving rows (r.inner.servers, .default)⟩ }
  | r, .serve i now reply => do
    let ⟨current, .serving (row :: rest) acc⟩ ← r.flights[i]? | none
    return { r with
      flights := r.flights.set i ⟨current, .serving rest (refreshOne now row reply acc).1⟩ }
  | r, .swap i => do
    let ⟨current, .serving [] acc⟩ ← r.flights[i]? | none
    return { r with
      inner := acc.2.finish
      flights := r.flights.eraseIdx i
      fresh := r.fresh || current }

def Registry.new (db : McpServers) : Registry := ⟨db, .default, [], false⟩

/-- After a refresh that started after the last change, the catalogue is of the changed rows. -/
def Registry.Current (col : Collation) (r : Registry) : Prop :=
  r.fresh = true → BuiltFrom (enabled col r.db) r.inner

/-- The process: one coordinator, and a queue of one signal that stands for every later one. -/
structure Server where
  registry : Registry
  queued : Bool

inductive Server.Act
  | change (db : McpServers)
  | request
  | wake
  | list
  | fail
  | take
  | serve (now : Time) (reply : Reply)
  | swap

def Server.on (s : Server) (r : Option Registry) : Option Server :=
  r.map fun registry => { s with registry }

/-- `McpRefresher::spawn`: the coordinator starts a refresh once the one before is done. -/
def Server.step (col : Collation) : Step Server Server.Act
  | s, .change db => s.on (s.registry.step col (.change db))
  | s, .request => some { s with queued := true }
  | s, .wake =>
    if s.queued && s.registry.flights.isEmpty then
      { s with queued := false }.on (s.registry.step col .start)
    else none
  | s, .list => s.on (s.registry.step col (.list 0))
  | s, .fail => s.on (s.registry.step col (.fail 0))
  | s, .take => s.on (s.registry.step col (.take 0))
  | s, .serve now reply => s.on (s.registry.step col (.serve 0 now reply))
  | s, .swap => s.on (s.registry.step col (.swap 0))

def Server.boot (db : McpServers) : Server :=
  ⟨{ Registry.new db with flights := [⟨true, .started⟩] }, false⟩

end Patom.Mcp
