import PropertyGraph.Graph.Saved
import PropertyGraph.Proofs.Graph.Orders
import PropertyGraph.Proofs.Json.Containers

/-!
# The JSON form of a dump

The reader of each kind of thing that a dump is made of understands its tree, from values up to the
whole (`Layout.reader_delimits`). So a dump comes back from its JSON text, compact or indented,
whatever it holds and in whatever order its property maps were emitted.

What a dump lists of adjacency may be missing from its text, key and all. It can be so for each list
of each node on its own (`Layout.treeKeeping`), and what is read then is the dump with empty lists
in these places (`Dump.restoreJson_treeKeeping`).
-/

namespace PropertyGraph

open Json

/-! ## Values -/

/-- A value is an object with one member, the name of which is its kind. -/
theorem Value.reader_understands (v : Value) : Understands Value.reader v.tree v := by
  cases v with
  | string text => exact payloadVariant_understands rfl ((text_understands _ text).map string)
  | integer number => exact payloadVariant_understands rfl ((int64_understands number).map integer)
  | boolean truth => exact payloadVariant_understands rfl ((boolean_understands truth).map boolean)
  | bytes payload =>
    exact payloadVariant_understands rfl ((list_understands byte_understands payload).map bytes)

theorem PropertyLayout.reader_understands (properties : PropertyLayout) :
    Understands PropertyLayout.reader (PropertyLayout.tree properties) properties :=
  map_understands Value.reader_understands properties

theorem readTexts_understands (texts : List String) : Understands readTexts (.texts texts) texts :=
  list_understands (text_understands _) texts

/-! ## Nodes -/

/-- A node as JSON with only those of its adjacency lists that are kept. Where a list is left out,
its key is too. -/
def NodeLayout.treeKeeping (kept : Endpoint → Bool) (n : NodeLayout) : Tree :=
  .object ([("uid", .string n.uid), ("label", .string n.label),
    ("properties", PropertyLayout.tree n.properties)] ++
    ((if kept .target then [("in_edges", .texts n.inEdges)] else []) ++
      if kept .source then [("out_edges", .texts n.outEdges)] else []))

/-- A node with only those of its adjacency lists that are kept. -/
def NodeLayout.keeping (kept : Endpoint → Bool) (n : NodeLayout) : NodeLayout :=
  { n with
    inEdges := if kept .target then n.inEdges else []
    outEdges := if kept .source then n.outEdges else [] }

/-- **A node is understood without its adjacency lists.** One that is left out is read as empty. -/
theorem NodeLayout.reader_understands_treeKeeping (kept : Endpoint → Bool) (n : NodeLayout) :
    Understands NodeLayout.reader (n.treeKeeping kept) (n.keeping kept) := by
  -- each field is found under its name and has not been given before, by evaluation
  have heading : Collects (NodeFields.record "NodeRecord") [("uid", .string n.uid),
      ("label", .string n.label), ("properties", PropertyLayout.tree n.properties)]
      ⟨none, none, none, none, none⟩ ⟨n.uid, n.label, n.properties, none, none⟩ := by
    refine .cons rfl rfl ((text_understands _ n.uid).bind_pure _) ?_
    refine .cons rfl rfl ((text_understands _ n.label).bind_pure _) ?_
    exact .cons rfl rfl ((PropertyLayout.reader_understands n.properties).bind_pure _) .nil
  have into : ∀ c : NodeFields, c.inEdges = none → Collects (NodeFields.record "NodeRecord")
      [("in_edges", .texts n.inEdges)] c { c with inEdges := n.inEdges } := fun c fresh =>
    .cons rfl (congrArg Option.isSome fresh)
      ((readTexts_understands n.inEdges).bind_pure _) .nil
  have out : ∀ c : NodeFields, c.outEdges = none → Collects (NodeFields.record "NodeRecord")
      [("out_edges", .texts n.outEdges)] c { c with outEdges := n.outEdges } := fun c fresh =>
    .cons rfl (congrArg Option.isSome fresh)
      ((readTexts_understands n.outEdges).bind_pure _) .nil
  refine record_understands (heading.append (((into _ rfl).optional (kept .target)).append
    ((out _ ?_).optional (kept .source)))) ?_
  · cases kept .target <;> rfl
  · unfold keeping
    cases kept .target <;> cases kept .source <;> rfl

theorem NodeLayout.reader_understands (n : NodeLayout) : Understands NodeLayout.reader n.tree n :=
  reader_understands_treeKeeping (fun _ => true) n

/-! ## Edges -/

theorem EdgeLayout.reader_understands (e : EdgeLayout) :
    Understands EdgeLayout.reader e.tree e := by
  refine record_understands (c := ⟨e.uid, e.source, e.label, e.target, e.properties⟩) ?_ rfl
  refine .cons rfl rfl ((text_understands _ e.uid).bind_pure _) ?_
  refine .cons rfl rfl ((text_understands _ e.source).bind_pure _) ?_
  refine .cons rfl rfl ((text_understands _ e.label).bind_pure _) ?_
  refine .cons rfl rfl ((text_understands _ e.target).bind_pure _) ?_
  exact .cons rfl rfl ((PropertyLayout.reader_understands e.properties).bind_pure _) .nil

/-! ## Layouts -/

/-- The reader of dumps delimits an object with a list of nodes that it understands. -/
theorem Layout.reader_delimits_of_forall₂ (style : Style) {trees : List Tree}
    {nodes : List NodeLayout} (h : List.Forall₂ (Understands NodeLayout.reader) trees nodes)
    (edges : List EdgeLayout) : Delimits EndsEarly Layout.reader (Utf8.encode ((Tree.object
      [("nodes", .list trees), ("edges", .list (edges.map EdgeLayout.tree))]).write style))
      ⟨nodes, edges⟩ := by
  refine record_delimits (c := ⟨nodes, edges⟩) style 0 ?_ rfl
  refine .cons rfl rfl ((list_understands_of_forall₂ h).bind_pure _) ?_
  exact .cons rfl rfl ((list_understands EdgeLayout.reader_understands edges).bind_pure _) .nil

/-- **The reader of dumps delimits their texts**, in either style. -/
theorem Layout.reader_delimits (style : Style) (l : Layout) :
    Delimits EndsEarly Layout.reader (Utf8.encode (l.text style)) l := by
  have nodes : List.Forall₂ (Understands NodeLayout.reader) (l.nodes.map NodeLayout.tree) l.nodes :=
    List.forall₂_map_left_iff.2 (List.forall₂_same.2 fun n _ => n.reader_understands)
  exact reader_delimits_of_forall₂ style nodes l.edges

/-- A dump as JSON with only those adjacency lists that are kept. Which ones are, may differ from
node to node. -/
def Layout.treeKeeping (kept : Nat → Endpoint → Bool) (l : Layout) : Tree :=
  .object [("nodes", .list (l.nodes.mapIdx fun i n => n.treeKeeping (kept i))),
    ("edges", .list (l.edges.map EdgeLayout.tree))]

/-- A dump with only those adjacency lists that are kept. -/
def Layout.keeping (kept : Nat → Endpoint → Bool) (l : Layout) : Layout :=
  { l with nodes := l.nodes.mapIdx fun i n => n.keeping (kept i) }

/-- **Reading a layout stops exactly at its end**, whichever adjacency lists were kept. -/
theorem Layout.reader_delimits_treeKeeping (style : Style) (kept : Nat → Endpoint → Bool)
    (l : Layout) : Delimits EndsEarly Layout.reader
      (Utf8.encode ((l.treeKeeping kept).write style)) (l.keeping kept) := by
  have nodes : List.Forall₂ (Understands NodeLayout.reader)
      (l.nodes.mapIdx fun i n => n.treeKeeping (kept i)) (l.keeping kept).nodes := by
    refine List.forall₂_iff_get.2 ⟨by simp [keeping], fun i _ _ => ?_⟩
    simpa [keeping] using NodeLayout.reader_understands_treeKeeping (kept i) _
  exact reader_delimits_of_forall₂ style nodes l.edges

/-! ## Dumps -/

namespace Dump

/-- **A dump can be read from a text without adjacency lists.** -/
theorem restoreJson_treeKeeping (style : Style) (kept : Nat → Endpoint → Bool) (l : Layout) :
    restoreJson (Utf8.encode ((l.treeKeeping kept).write style)) = .ok (l.keeping kept).dump := by
  rw [restoreJson, all_of_delimits (Layout.reader_delimits_treeKeeping style kept l)]
  rfl

/-- **A layout as a text is read back**, in either style. -/
theorem restoreJson_text (style : Style) (l : Layout) :
    restoreJson (Utf8.encode (l.text style)) = .ok l.dump := by
  rw [restoreJson, all_of_delimits (Layout.reader_delimits style l)]
  rfl

/-- **A dump comes back from its JSON form**: from the bytes that are saved, and from either text,
read as a text or as a file, whatever the order in which its property maps were emitted. -/
theorem restore_json (d : Dump) (l : Layout) (lists : l.Lists d) :
    restore .json (l.save .json) = .ok d ∧
      ∀ style, restoreJson (Utf8.ofString (String.ofList (l.text style))) = .ok d ∧
        restore .json (Utf8.ofString (String.ofList (l.text style))) = .ok d := by
  obtain ⟨-, rfl⟩ := Layout.lists_iff.1 lists
  constructor
  · rw [restore, Layout.save, restoreJson_text]
    rfl
  · intro style
    rw [restore, Utf8.ofString, String.toList_ofList, restoreJson_text]
    exact ⟨rfl, rfl⟩

/-- A uid that is listed twice and holds a quote, a backslash, a control character and what is not
ASCII; adjacency that no graph has; and values of all kinds, the integers at both limits, under keys
that descend. -/
theorem restore_json_of_odd_dump :
    let l : Layout :=
      ⟨[⟨"\"\\\u0001é😀", "", [("k", .integer (-9223372036854775808)),
          ("j", .integer 9223372036854775807), ("b", .boolean false), ("a", .bytes [0, 10, 255]),
          ("", .string "\n\t\u007f")], ["x", "", "x"], ["z", "y"]⟩,
        ⟨"\"\\\u0001é😀", "M", [], [], []⟩],
        [⟨"x", "/", "K", "nowhere", []⟩]⟩
    l.Lists l.dump ∧ restore .json (l.save .json) = .ok l.dump ∧
      restoreJson (Utf8.ofString (String.ofList (l.text .indented))) = .ok l.dump ∧
      restore .json (Utf8.ofString (String.ofList (l.text .indented))) = .ok l.dump := by
  intro l
  have lists : l.Lists l.dump := Layout.lists_iff.2 ⟨by decide, rfl⟩
  obtain ⟨saved, texts⟩ := restore_json l.dump l lists
  exact ⟨lists, saved, texts .indented⟩

end Dump

end PropertyGraph
