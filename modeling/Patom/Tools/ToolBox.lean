import Patom.Mcp.Registry
import Patom.Runtime.Types

open Patom.Foundation
open Patom.Mcp (ToolSpec RegisteredTool)
open Patom.Runtime (RequestKind)

namespace Patom.Tools

structure RequestKindModes where
  bits : BitVec 8
  deriving DecidableEq

namespace RequestKindModes

def NONE : RequestKindModes := ⟨0⟩
def NORMAL : RequestKindModes := ⟨1 <<< 0⟩
def REFLECTION : RequestKindModes := ⟨1 <<< 1⟩
def RESOLUTION : RequestKindModes := ⟨1 <<< 2⟩
def ALL : RequestKindModes := ⟨0b00000111⟩

def forKind : RequestKind → RequestKindModes
  | .normal => NORMAL
  | .reflection => REFLECTION
  | .resolution => RESOLUTION

def includes (modes : RequestKindModes) (kind : RequestKind) : Bool :=
  modes.bits &&& (forKind kind).bits ≠ 0

end RequestKindModes

structure Tool where
  name : ToolName
  description : String
  inputSchema : String
  modes : RequestKindModes := .ALL

def Tool.spec (tool : Tool) : ToolSpec := ⟨tool.name, tool.description, tool.inputSchema⟩

structure ToolEntry where
  tool : Tool
  spec : ToolSpec
  modes : RequestKindModes

def ToolEntry.of (tool : Tool) : ToolEntry := ⟨tool, tool.spec, tool.modes⟩

instance toolEntryKeyed : Keyed ToolEntry ToolName := ⟨(·.spec.name)⟩

def named (name : String) (specs : List ToolSpec) : List ToolSpec :=
  specs.filter (·.name.asStr = name)

section Lookup

variable {ρ : Type*} [Keyed ρ ToolName]

def lookup (table : Table ρ) (name : String) : Option ρ :=
  table.rows.find? fun r => (Keyed.key r).asStr = name

theorem filter_lookup (table : Table ρ) (name : String) :
    table.rows.filter (fun r => (Keyed.key r).asStr = name) = (lookup table name).toList := by
  have hnodup : ((table.rows.map Keyed.key).map ToolName.asStr).Nodup :=
    table.nodup.map fun _ _ => ToolName.ext
  have hcount := List.nodup_iff_count_le_one.mp hnodup name
  rw [List.map_map, List.count, List.countP_map, List.countP_eq_length_filter] at hcount
  have hlen : (table.rows.filter fun r => (Keyed.key r).asStr = name).length ≤ 1 := hcount
  rw [lookup, ← List.head?_filter]
  cases h : table.rows.filter fun r => (Keyed.key r).asStr = name with
  | nil => rfl
  | cons r rest =>
    rw [h, List.length_cons] at hlen
    rw [List.eq_nil_of_length_eq_zero (Nat.le_zero.mp (Nat.le_of_succ_le_succ hlen))]
    rfl

theorem name_of_lookup {table : Table ρ} {name : String} {r : ρ} (h : lookup table name = some r) :
    (Keyed.key r).asStr = name := by
  simpa using List.find?_some h

theorem mem_of_lookup {table : Table ρ} {name : String} {r : ρ} (h : lookup table name = some r) :
    r ∈ table :=
  List.mem_of_find?_eq_some h

theorem lookup_of_mem {table : Table ρ} {r : ρ} (h : r ∈ table) :
    lookup table (Keyed.key r).asStr = some r := by
  cases hfind : lookup table (Keyed.key r).asStr with
  | none => simpa using List.find?_eq_none.mp hfind r h
  | some r' =>
    exact congrArg some (Table.eq_of_key_eq (mem_of_lookup hfind) h
      (ToolName.ext (name_of_lookup hfind)))

theorem named_of_perm {table : Table ρ} {specs : List ToolSpec} {spec : ρ → ToolSpec}
    (hkey : ∀ r, (spec r).name = Keyed.key r) {p : ρ → Bool}
    (hperm : specs.Perm ((table.rows.filter p).map spec)) (name : String) :
    named name specs = (((lookup table name).filter p).map spec).toList := by
  have hrows : named name ((table.rows.filter p).map spec)
      = (((lookup table name).filter p).map spec).toList := by
    calc named name ((table.rows.filter p).map spec)
        = ((table.rows.filter p).filter fun r => (Keyed.key r).asStr = name).map spec := by
          simp only [named, List.filter_map, Function.comp_def, hkey]
      _ = ((table.rows.filter fun r => (Keyed.key r).asStr = name).filter p).map spec := by
          rw [List.filter_comm]
      _ = ((lookup table name).toList.filter p).map spec := by rw [filter_lookup]
      _ = (((lookup table name).filter p).map spec).toList := by
          cases lookup table name with
          | none => rfl
          | some r => cases hr : p r <;> simp [Option.filter, hr]
  have hnamed : (named name specs).Perm (((lookup table name).filter p).map spec).toList :=
    hrows ▸ hperm.filter _
  cases h : ((lookup table name).filter p).map spec with
  | none =>
    rw [h] at hnamed
    exact hnamed.eq_nil
  | some s =>
    rw [h] at hnamed
    exact List.perm_singleton.mp hnamed

end Lookup

structure ToolRegistry where
  byName : Table ToolEntry
  specs : List ToolSpec
  entries : ∀ e ∈ byName, e = .of e.tool
  cached : specs.Perm (byName.rows.map (·.spec))

namespace ToolRegistry

def sorted (specs : List ToolSpec) : List ToolSpec :=
  specs.mergeSort fun s s' => s.name.asStr ≤ s'.name.asStr

def register (acc : Table ToolEntry × List ToolSpec) (tool : Tool) :
    Option (Table ToolEntry × List ToolSpec) :=
  let entry := ToolEntry.of tool
  (acc.1.insert? entry).map fun byName => (byName, acc.2 ++ [entry.spec])

def Registered (acc : Table ToolEntry × List ToolSpec) : Prop :=
  (∀ e ∈ acc.1, e = .of e.tool) ∧ acc.2 = acc.1.rows.map (·.spec)

theorem registered_foldlM (tools : List Tool) {acc acc' : Table ToolEntry × List ToolSpec}
    (h : Registered acc) (hfold : tools.foldlM register acc = some acc') : Registered acc' := by
  induction tools generalizing acc with
  | nil =>
    cases hfold
    exact h
  | cons tool tools ih =>
    obtain ⟨next, hnext, hrest⟩ := Option.bind_eq_some_iff.mp hfold
    refine ih ?_ hrest
    obtain ⟨byName, hinsert, rfl⟩ := Option.map_eq_some_iff.mp hnext
    refine ⟨fun e he => ?_, ?_⟩
    · obtain he | rfl := (Table.mem_insert? hinsert).mp he
      · exact h.1 e he
      · rfl
    · rw [h.2, Table.rows_insert? hinsert, List.map_append]
      rfl

/-- `ToolRegistryBuilder::build` -/
def build (tools : List Tool) : Option ToolRegistry :=
  match h : tools.foldlM register (.empty, []) with
  | none => none
  | some acc =>
    have hacc : Registered acc :=
      registered_foldlM tools ⟨fun e he => absurd he (Table.not_mem_empty e), rfl⟩ h
    some ⟨acc.1, sorted acc.2, hacc.1, (List.mergeSort_perm _ _).trans (.of_eq hacc.2)⟩

variable (registry : ToolRegistry)

def get (name : String) : Option Tool := (lookup registry.byName name).map (·.tool)

def getFor (kind : RequestKind) (name : String) : Option Tool :=
  ((lookup registry.byName name).filter (·.modes.includes kind)).map (·.tool)

def specsFor (kind : RequestKind) : List ToolSpec :=
  if registry.byName.rows.any fun e => !e.modes.includes kind then
    sorted ((registry.byName.rows.filter (·.modes.includes kind)).map (·.spec))
  else registry.specs

theorem getFor_eq (kind : RequestKind) (name : String) :
    registry.getFor kind name = (registry.get name).filter (·.modes.includes kind) := by
  rw [getFor, get]
  cases h : lookup registry.byName name with
  | none => rfl
  | some e =>
    have hmodes : e.modes = e.tool.modes := by rw [registry.entries e (mem_of_lookup h), ToolEntry.of]
    simp only [Option.filter, Option.map_some, hmodes]
    split <;> rfl

theorem specsFor_perm (kind : RequestKind) :
    (registry.specsFor kind).Perm
      ((registry.byName.rows.filter (·.modes.includes kind)).map (·.spec)) := by
  unfold specsFor
  split
  · exact List.mergeSort_perm _ _
  · rename_i hall
    rw [List.filter_eq_self.mpr fun e he => by simpa using fun h => hall (List.any_eq_true.mpr ⟨e, he, h⟩)]
    exact registry.cached

theorem named_specsFor (kind : RequestKind) (name : String) :
    named name (registry.specsFor kind) = ((registry.getFor kind name).map Tool.spec).toList := by
  rw [named_of_perm (fun _ => rfl) (registry.specsFor_perm kind), getFor,
    Option.map_map]
  cases h : (lookup registry.byName name).filter (·.modes.includes kind) with
  | none => rfl
  | some e =>
    have he := registry.entries e (mem_of_lookup (Option.filter_eq_some_iff.mp h).1)
    simp only [Option.map_some, Function.comp_apply]
    rw [he]
    rfl

end ToolRegistry

structure DynamicToolSource where
  specs : List ToolSpec
  get : String → Option RegisteredTool
  specsFor : RequestKind → List ToolSpec := fun _ => specs
  getFor : RequestKind → String → Option RegisteredTool := fun _ => get

inductive SharedTool
  | builtin (tool : Tool)
  | dynamic (tool : RegisteredTool)

def SharedTool.spec : SharedTool → ToolSpec
  | .builtin tool => tool.spec
  | .dynamic tool => tool.spec

structure ToolBox where
  builtins : ToolRegistry
  dynamic : DynamicToolSource

namespace ToolBox

def specsFor (toolbox : ToolBox) (kind : RequestKind) : List ToolSpec :=
  let builtins := toolbox.builtins.specsFor kind
  let dynamic := toolbox.dynamic.specsFor kind
  if dynamic.isEmpty then builtins
  else if builtins.isEmpty then dynamic
  else builtins ++ dynamic

def getFor (toolbox : ToolBox) (kind : RequestKind) (name : String) : Option SharedTool :=
  match toolbox.builtins.getFor kind name with
  | some tool => some (.builtin tool)
  | none => (toolbox.dynamic.getFor kind name).map .dynamic

/-- What is offered under a name is what a call of the name is dispatched to. -/
structure Offered (toolbox : ToolBox) (kind : RequestKind) (name : String) : Prop where
  listed : (toolbox.getFor kind name).isSome ↔ ∃ spec ∈ toolbox.specsFor kind, spec.name.asStr = name
  described : ∀ tool, toolbox.getFor kind name = some tool →
    named name (toolbox.specsFor kind) = [tool.spec]
  shadowed : ∀ tool, toolbox.builtins.get name = some tool → tool.modes.includes kind = false →
    ∀ dynamic, toolbox.getFor kind name ≠ some (.dynamic dynamic)

variable {toolbox : ToolBox} {kind : RequestKind} {name : String}

theorem specsFor_eq (toolbox : ToolBox) (kind : RequestKind) :
    toolbox.specsFor kind = toolbox.builtins.specsFor kind ++ toolbox.dynamic.specsFor kind := by
  unfold specsFor
  dsimp only
  split
  · rename_i h
    rw [List.isEmpty_iff.mp h, List.append_nil]
  · split
    · rename_i h
      rw [List.isEmpty_iff.mp h, List.nil_append]
    · rfl

theorem mem_named {specs : List ToolSpec} :
    (∃ spec ∈ specs, spec.name.asStr = name) ↔ named name specs ≠ [] := by
  simp [named, List.filter_eq_nil_iff]

theorem listed_and_described
    (h : named name (toolbox.specsFor kind) = ((toolbox.getFor kind name).map (·.spec)).toList) :
    ((toolbox.getFor kind name).isSome ↔ ∃ spec ∈ toolbox.specsFor kind, spec.name.asStr = name) ∧
    ∀ tool, toolbox.getFor kind name = some tool →
      named name (toolbox.specsFor kind) = [tool.spec] := by
  rw [mem_named, h]
  cases toolbox.getFor kind name with
  | none => simp
  | some tool => simp

variable (h : named name (toolbox.dynamic.specsFor kind)
  = ((toolbox.dynamic.getFor kind name).map (·.spec)).toList)
include h

theorem named_specsFor : named name (toolbox.specsFor kind)
    = ((toolbox.builtins.getFor kind name).map (·.spec)).toList
      ++ ((toolbox.dynamic.getFor kind name).map (·.spec)).toList := by
  rw [specsFor_eq, ← h, ← ToolRegistry.named_specsFor, named, named, named, List.filter_append]

theorem offered_builtin {tool : Tool} (hbuiltin : toolbox.builtins.getFor kind name = some tool) :
    toolbox.Offered kind name ↔ toolbox.dynamic.getFor kind name = none := by
  have hget : toolbox.getFor kind name = some (.builtin tool) := by rw [getFor, hbuiltin]
  have hnamed := named_specsFor h
  rw [hbuiltin] at hnamed
  constructor
  · intro hoffered
    have hone := hnamed.symm.trans (hoffered.described _ hget)
    cases hdynamic : toolbox.dynamic.getFor kind name with
    | none => rfl
    | some dynamic => simp [hdynamic] at hone
  · intro hdynamic
    rw [hdynamic] at hnamed
    have hone : named name (toolbox.specsFor kind) =
        ((toolbox.getFor kind name).map (·.spec)).toList := by
      rw [hnamed, hget]
      rfl
    obtain ⟨hlisted, hdescribed⟩ := listed_and_described hone
    refine ⟨hlisted, hdescribed, fun _ _ _ dynamic hd => ?_⟩
    rw [hget] at hd
    cases hd

theorem offered_dynamic (hbuiltin : toolbox.builtins.getFor kind name = none) :
    toolbox.Offered kind name ↔
      ((toolbox.builtins.get name).isSome → toolbox.dynamic.getFor kind name = none) := by
  have hget : toolbox.getFor kind name = (toolbox.dynamic.getFor kind name).map .dynamic := by
    rw [getFor, hbuiltin]
  have hnamed := named_specsFor h
  have hone : named name (toolbox.specsFor kind) =
      ((toolbox.getFor kind name).map (·.spec)).toList := by
    rw [hnamed, hbuiltin, hget, Option.map_map]
    rfl
  obtain ⟨hlisted, hdescribed⟩ := listed_and_described hone
  rw [toolbox.builtins.getFor_eq, Option.filter_eq_none_iff] at hbuiltin
  constructor
  · intro hoffered hsome
    obtain ⟨tool, htool⟩ := Option.isSome_iff_exists.mp hsome
    refine Option.eq_none_iff_forall_ne_some.mpr fun dynamic hdynamic => ?_
    refine hoffered.shadowed tool htool (by simpa using hbuiltin tool htool) dynamic ?_
    rw [hget, hdynamic, Option.map_some]
  · intro hnone
    refine ⟨hlisted, hdescribed, fun tool htool _ dynamic hd => ?_⟩
    rw [hget, hnone (Option.isSome_iff_exists.mpr ⟨tool, htool⟩)] at hd
    cases hd

theorem offered_iff : toolbox.Offered kind name ↔
    ((toolbox.builtins.get name).isSome → toolbox.dynamic.getFor kind name = none) := by
  cases hbuiltin : toolbox.builtins.getFor kind name with
  | none => exact offered_dynamic h hbuiltin
  | some tool =>
    have hget : (toolbox.builtins.get name).isSome := by
      rw [toolbox.builtins.getFor_eq] at hbuiltin
      exact Option.isSome_iff_exists.mpr ⟨tool, (Option.filter_eq_some_iff.mp hbuiltin).1⟩
    rw [offered_builtin h hbuiltin, forall_prop_of_true hget]

end ToolBox

end Patom.Tools
