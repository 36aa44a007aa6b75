import Mathlib.Data.List.Forall2
import Mathlib.Data.List.Nodup
import PropertyGraph.Graph.Layout

/-!
# Orders of emission

A property map has no order, while a written dump names the entries of each map one after the
other. A layout lists a dump (`Layout.Lists`) if it has the same nodes and edges and emits each
property map in some order. So do the layouts that show the dump and repeat no key, and no others
(`Layout.lists_iff`).
-/

namespace PropertyGraph

/-! ## Entries in any order -/

namespace Table

variable {α : Type} {entries : List (String × α)}

/-- Where no key repeats, the collected entries are the entries. -/
theorem get?_ofList_eq_some_iff (distinct : (entries.map (·.1)).Nodup) {k : String} {v : α} :
    (ofList entries).get? k = some v ↔ (k, v) ∈ entries := by
  rw [get?_ofList]
  refine ⟨fun found => List.mem_reverse.1 (mem_of_find? found), fun mem => ?_⟩
  cases found : find? k entries.reverse with
  | none => exact absurd (List.mem_reverse.2 mem) (find?_eq_none_iff.1 found v)
  | some w =>
    have mem' : (k, w) ∈ entries := List.mem_reverse.1 (mem_of_find? found)
    rw [(Prod.mk.inj (List.inj_on_of_nodup_map distinct mem mem' rfl)).2]

/-- **The orders of a table's entries** are the lists without a repeated key that collect to it. -/
theorem perm_toList_iff {t : Table α} :
    entries.Perm t.toList ↔ ofList entries = t ∧ (entries.map (·.1)).Nodup := by
  constructor
  · intro perm
    have distinct : (entries.map (·.1)).Nodup := (perm.map _).nodup_iff.2 t.nodup_keys
    refine ⟨ext_get? fun k => Option.ext fun v => ?_, distinct⟩
    rw [get?_ofList_eq_some_iff distinct, perm.mem_iff, mem_toList_iff]
  · rintro ⟨rfl, distinct⟩
    refine (List.perm_ext_iff_of_nodup (.of_map _ distinct) (.of_map _ (nodup_keys _))).2 ?_
    rintro ⟨k, v⟩
    rw [mem_toList_iff, get?_ofList_eq_some_iff distinct]

end Table

/-! ## Layouts of a dump -/

/-- No key repeats. -/
def PropertyLayout.Distinct (entries : PropertyLayout) : Prop := (entries.map (·.1)).Nodup

/-- **A node is listed** with its properties in some order. -/
structure NodeLayout.Lists (n : NodeLayout) (m : ListedNode) : Prop where
  uid : n.uid = m.uid
  label : n.label = m.label
  properties : n.properties.Perm m.properties.toList
  inEdges : n.inEdges = m.inEdges
  outEdges : n.outEdges = m.outEdges

/-- **An edge is listed** with its properties in some order. -/
structure EdgeLayout.Lists (l : EdgeLayout) (e : Edge) : Prop where
  uid : l.uid = e.uid
  source : l.source = e.source
  label : l.label = e.label
  target : l.target = e.target
  properties : l.properties.Perm e.properties.toList

/-- **A dump is listed**: the same nodes and edges one after the other, and the entries of each
property map in some order. -/
structure Layout.Lists (l : Layout) (d : Dump) : Prop where
  nodes : List.Forall₂ NodeLayout.Lists l.nodes d.nodes
  edges : List.Forall₂ EdgeLayout.Lists l.edges d.edges

/-- No property map repeats a key. -/
def Layout.Distinct (l : Layout) : Prop :=
  (∀ n ∈ l.nodes, PropertyLayout.Distinct n.properties) ∧
    ∀ e ∈ l.edges, PropertyLayout.Distinct e.properties

instance : DecidablePred PropertyLayout.Distinct := fun entries =>
  inferInstanceAs (Decidable (entries.map (·.1)).Nodup)

instance : DecidablePred Layout.Distinct := fun _ => inferInstanceAs (Decidable (_ ∧ _))

/-- A node is listed by the layouts with distinct keys that make up the node. -/
theorem NodeLayout.lists_iff {n : NodeLayout} {m : ListedNode} :
    n.Lists m ↔ PropertyLayout.Distinct n.properties ∧ n.listed = m := by
  obtain ⟨uid, label, properties, inEdges, outEdges⟩ := m
  constructor
  · rintro ⟨rfl, rfl, perm, rfl, rfl⟩
    obtain ⟨rfl, distinct⟩ := Table.perm_toList_iff.1 perm
    exact ⟨distinct, rfl⟩
  · rintro ⟨distinct, ⟨⟩⟩
    exact ⟨rfl, rfl, Table.perm_toList_iff.2 ⟨rfl, distinct⟩, rfl, rfl⟩

theorem EdgeLayout.lists_iff {l : EdgeLayout} {e : Edge} :
    l.Lists e ↔ PropertyLayout.Distinct l.properties ∧ l.edge = e := by
  obtain ⟨uid, source, label, target, properties⟩ := e
  constructor
  · rintro ⟨rfl, rfl, rfl, rfl, perm⟩
    obtain ⟨rfl, distinct⟩ := Table.perm_toList_iff.1 perm
    exact ⟨distinct, rfl⟩
  · rintro ⟨distinct, ⟨⟩⟩
    exact ⟨rfl, rfl, rfl, rfl, Table.perm_toList_iff.2 ⟨rfl, distinct⟩⟩

/-- If being related is to be mapped, lists are related exactly if one is mapped to the other. -/
theorem forall₂_iff_map_eq {α β : Type} {R : α → β → Prop} {P : α → Prop} {f : α → β}
    (h : ∀ a b, R a b ↔ P a ∧ f a = b) {l : List α} {m : List β} :
    List.Forall₂ R l m ↔ (∀ a ∈ l, P a) ∧ l.map f = m := by
  obtain rfl : R = fun a b => P a ∧ f a = b := funext₂ fun a b => propext (h a b)
  rw [List.forall₂_and_left, ← List.forall₂_map_left_iff (R := Eq), List.forall₂_eq_eq_eq]

/-- **The layouts of a dump** are those that show it and repeat no key. -/
theorem Layout.lists_iff {l : Layout} {d : Dump} : l.Lists d ↔ l.Distinct ∧ l.dump = d := by
  have nodes := forall₂_iff_map_eq (@NodeLayout.lists_iff) (l := l.nodes) (m := d.nodes)
  have edges := forall₂_iff_map_eq (@EdgeLayout.lists_iff) (l := l.edges) (m := d.edges)
  constructor
  · rintro ⟨hn, he⟩
    obtain ⟨distinctN, eqN⟩ := nodes.1 hn
    obtain ⟨distinctE, eqE⟩ := edges.1 he
    refine ⟨⟨distinctN, distinctE⟩, ?_⟩
    rw [Layout.dump, eqN, eqE]
  · rintro ⟨⟨distinctN, distinctE⟩, rfl⟩
    exact ⟨nodes.2 ⟨distinctN, rfl⟩, edges.2 ⟨distinctE, rfl⟩⟩

end PropertyGraph
