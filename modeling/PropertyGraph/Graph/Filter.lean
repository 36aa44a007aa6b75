import PropertyGraph.Graph.Basic

/-!
# Filters

A filter selects nodes or edges by label and by property. Of its labels one must be carried, and
any will do when it names none; of its properties all must be there with exactly the required
encoding (`Filter.accepts_iff`).
-/

namespace PropertyGraph

/-- What a node or edge must be to be selected. -/
structure Filter where
  /-- The labels that will do; all of them when none is named. -/
  labels : List String
  /-- For each required property, the encoding that its value must have. -/
  properties : Table (List UInt8)
  deriving DecidableEq

namespace Filter

/-- The filter that selects everything. -/
def all : Filter := ⟨[], .empty⟩

/-- Admits one more label. -/
def withLabel (f : Filter) (label : String) : Filter := { f with labels := f.labels ++ [label] }

/-- Requires an encoding under a key, in place of what was required there. -/
def withEncoded (f : Filter) (key : String) (encoding : List UInt8) : Filter :=
  { f with properties := f.properties.insert key encoding }

/-- Requires a value under a key, in place of what was required there. -/
def withProperty (f : Filter) (key : String) (value : Value) : Filter :=
  f.withEncoded key value.encode

/-- Whether nothing at all is required. -/
def isUnrestricted (f : Filter) : Bool := f.labels.isEmpty && f.properties.isEmpty

/-- Whether a property map has the required encoding under one key. -/
def entryMatches (properties : PropertyMap) (key : String) (encoding : List UInt8) : Bool :=
  match properties.get? key with
  | some value => value.hasEncoding encoding
  | none => false

/-- Whether a label with properties is selected. -/
def accepts (f : Filter) (label : String) (properties : PropertyMap) : Bool :=
  (f.labels.isEmpty || f.labels.contains label) &&
    f.properties.toList.all (fun e => entryMatches properties e.1 e.2)

/-- Whether a node is selected. -/
def acceptsNode (f : Filter) (n : Node) : Bool := f.accepts n.label n.properties

/-- Whether an edge is selected. -/
def acceptsEdge (f : Filter) (e : Edge) : Bool := f.accepts e.label e.properties

theorem entryMatches_iff {properties : PropertyMap} {key : String} {encoding : List UInt8} :
    entryMatches properties key encoding ↔
      ∃ value, properties.get? key = some value ∧ value.encode = encoding := by
  unfold entryMatches
  split <;> simp_all [Value.hasEncoding]

/-- **What a filter selects.** One of its labels, if it names any, and every required property
with the required encoding. -/
theorem accepts_iff {f : Filter} {label : String} {properties : PropertyMap} :
    f.accepts label properties ↔
      (f.labels = [] ∨ label ∈ f.labels) ∧
      ∀ key encoding, f.properties.get? key = some encoding →
        ∃ value, properties.get? key = some value ∧ value.encode = encoding := by
  simp only [accepts, Bool.and_eq_true, Bool.or_eq_true, List.isEmpty_iff, List.contains_iff_mem,
    List.all_eq_true, Prod.forall, entryMatches_iff, Table.mem_toList_iff]

/-- A filter that names one label, and nothing else, selects what carries it. -/
theorem accepts_all_withLabel {wanted label : String} {properties : PropertyMap} :
    (all.withLabel wanted).accepts label properties ↔ label = wanted := by
  rw [accepts_iff]
  simp [all, withLabel]

/-- One of the requirements of a filter and the others. -/
theorem accepts_iff_erase {f : Filter} {label : String} {properties : PropertyMap} {key : String}
    {encoding : List UInt8} (required : f.properties.get? key = some encoding) :
    f.accepts label properties ↔
      accepts { f with properties := f.properties.erase key } label properties ∧
        entryMatches properties key encoding := by
  rw [accepts_iff, accepts_iff, entryMatches_iff, and_assoc]
  refine and_congr_right fun _ => ?_
  constructor
  · intro all
    refine ⟨fun k e he => all k e ?_, all key encoding required⟩
    rw [Table.get?_erase] at he
    split at he
    next => cases he
    next => exact he
  · rintro ⟨others, this⟩ k e he
    by_cases same : k = key
    · subst same
      obtain rfl := Option.some.inj (required.symm.trans he)
      exact this
    · exact others k e (by rw [Table.get?_erase, if_neg same, he])

end Filter

end PropertyGraph
