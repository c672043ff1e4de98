/-
Names that lead from node to node.

A node has entries, which are names of other nodes. Whoever may change a node can make a name
lead elsewhere, so what a name leads to is known only as long as the nodes it leads through stay
as they are. Some nodes are fixed: the others leave them alone (`Keeps`). A list of names that
leads through fixed nodes leads to the same node from then on (`Leads.keeps`), whatever happens to
the other nodes meanwhile.
-/
import Mathlib.Data.List.Basic

set_option autoImplicit false

namespace WasmRuntime.NameTree

variable {I N V : Type} {fixed : V → Prop} {entry : V → N → Option I} {nodes nodes' : I → Option V}

/-- From `i` the names lead to `k`. Each of them is an entry of a fixed node; `k` itself need not be
fixed. -/
inductive Leads (fixed : V → Prop) (entry : V → N → Option I) (nodes : I → Option V) :
    I → List N → I → Prop where
  | here (i : I) : Leads fixed entry nodes i [] i
  | through {i j k : I} {v : V} {name : N} {names : List N} (hnode : nodes i = some v)
      (hfixed : fixed v) (hentry : entry v name = some j)
      (rest : Leads fixed entry nodes j names k) : Leads fixed entry nodes i (name :: names) k

/-- Fixed nodes stay as they are. -/
def Keeps (fixed : V → Prop) (nodes nodes' : I → Option V) : Prop :=
  ∀ i v, nodes i = some v → fixed v → nodes' i = some v

theorem Keeps.refl (nodes : I → Option V) : Keeps fixed nodes nodes := fun _ _ h _ => h

theorem Keeps.trans {nodes'' : I → Option V} (h : Keeps fixed nodes nodes')
    (h' : Keeps fixed nodes' nodes'') : Keeps fixed nodes nodes'' :=
  fun i v hnode hfixed => h' i v (h i v hnode hfixed) hfixed

/-- Where names lead, they lead. -/
theorem Leads.keeps {i k : I} {names : List N} (h : Leads fixed entry nodes i names k)
    (hkeeps : Keeps fixed nodes nodes') : Leads fixed entry nodes' i names k := by
  induction h with
  | here i => exact .here i
  | through hnode hfixed hentry _ ih => exact .through (hkeeps _ _ hnode hfixed) hfixed hentry ih

/-- One name more. -/
theorem Leads.snoc {i j k : I} {v : V} {names : List N} {name : N}
    (h : Leads fixed entry nodes i names j) (hnode : nodes j = some v) (hfixed : fixed v)
    (hentry : entry v name = some k) : Leads fixed entry nodes i (names ++ [name]) k := by
  induction h with
  | here i => exact .through hnode hfixed hentry (.here k)
  | through hnode' hfixed' hentry' _ ih => exact .through hnode' hfixed' hentry' (ih hnode)

end WasmRuntime.NameTree
