import PropertyGraph.Graph.Saved
import PropertyGraph.Proofs.Binary.Undoing
import PropertyGraph.Proofs.Graph.Orders

/-!
# The binary form of a dump

The reader of each kind of thing that a dump is made of undoes its writer, from values up to the
whole (`Layout.read_undoes`). So a dump comes back from its binary form in whatever order its
property maps were emitted and whatever stands behind it, and bytes that are read as a dump are the
binary form of one, with the property maps in the order of the bytes.
-/

namespace PropertyGraph

open Binary

/-! ## Values -/

/-- The lengths in a value can be written. -/
def Value.Fits : Value → Prop
  | string text => TextFits text
  | bytes payload => ListFits (fun _ => True) payload
  | integer _ | boolean _ => True

instance : DecidablePred Value.Fits
  | .string text => inferInstanceAs (Decidable (TextFits text))
  | .bytes payload => inferInstanceAs (Decidable (ListFits (fun _ => True) payload))
  | .integer _ | .boolean _ => .isTrue trivial

/-- Kinds are listed in the order of the numbers that stand for them. -/
theorem Kind.getElem?_all_eq_some_iff {k : Kind} {i : Nat} : all[i]? = some k ↔ k.index = i := by
  match i with
  | 0 | 1 | 2 | 3 => cases k <;> decide
  | i + 4 =>
    refine iff_of_false (fun h => nomatch h) fun h => ?_
    cases k <;> nomatch h

/-- A payload is read back once its kind is known. -/
theorem Value.readPayload_undoes (k : Kind) :
    Undoes (readPayload k) payloadBytes fun v => v.kind = k ∧ v.Fits := by
  cases k with
  | string =>
    refine readText_undoes.map (fun v h => ?_) fun text fits => ⟨⟨rfl, fits⟩, rfl⟩
    cases v with
    | string text => exact ⟨text, h.2, rfl⟩
    | _ => nomatch h.1
  | integer =>
    refine readInt64_undoes.map (fun v h => ?_) fun number fits => ⟨⟨rfl, fits⟩, rfl⟩
    cases v with
    | integer number => exact ⟨number, trivial, rfl⟩
    | _ => nomatch h.1
  | boolean =>
    refine readTruth_undoes.map (fun v h => ?_) fun truth fits => ⟨⟨rfl, fits⟩, rfl⟩
    cases v with
    | boolean truth => exact ⟨truth, trivial, rfl⟩
    | _ => nomatch h.1
  | bytes =>
    refine (readList_undoes readByte_undoes).map (fun v h => ?_)
      fun payload fits => ⟨⟨rfl, fits⟩, rfl⟩
    cases v with
    | bytes payload => exact ⟨payload, h.2, rfl⟩
    | _ => nomatch h.1

/-- The number of its kind in front says how the payload of a value is read. -/
theorem Value.read_undoes : Undoes Value.read Value.write Value.Fits := by
  refine readVariant_undoes (fun v : Value => v.kind.index) ?_ (fun v => ?_) fun i r there => ?_
  · decide
  · rw [List.length_map]
    exact (List.getElem?_eq_some_iff.1 (Kind.getElem?_all_eq_some_iff.2 rfl)).1
  · rw [List.getElem?_map, Option.map_eq_some_iff] at there
    obtain ⟨k, hk, rfl⟩ := there
    obtain rfl := Kind.getElem?_all_eq_some_iff.1 hk
    refine (readPayload_undoes k).congr (fun _ => rfl) fun v => and_congr_left' ?_
    rw [← Kind.getElem?_all_eq_some_iff, hk, Option.some.injEq, eq_comm]

/-! ## Property maps -/

/-- The lengths in an entry of a property map can be written. -/
def PropertyFits (e : String × Value) : Prop := TextFits e.1 ∧ e.2.Fits

instance : DecidablePred PropertyFits := fun e => inferInstanceAs (Decidable (_ ∧ e.2.Fits))

theorem readProperty_undoes : Undoes readProperty writeProperty PropertyFits :=
  (readText_undoes.field (fun _ => True) Prod.fst fun key =>
    Value.read_undoes.lastField _ Prod.snd (by simp [Prod.ext_iff])).congr
    (fun _ => rfl) fun _ => (true_and _).to_iff.symm

theorem PropertyLayout.read_undoes :
    Undoes PropertyLayout.read PropertyLayout.write (ListFits PropertyFits) :=
  readList_undoes readProperty_undoes

/-! ## Records -/

/-- The lengths in a node can be written. -/
def NodeLayout.Fits (n : NodeLayout) : Prop :=
  TextFits n.uid ∧ TextFits n.label ∧ ListFits PropertyFits n.properties ∧
    ListFits TextFits n.inEdges ∧ ListFits TextFits n.outEdges

/-- The lengths in an edge can be written. -/
def EdgeLayout.Fits (e : EdgeLayout) : Prop :=
  TextFits e.uid ∧ TextFits e.source ∧ TextFits e.label ∧ TextFits e.target ∧
    ListFits PropertyFits e.properties

/-- The lengths in a dump can be written. -/
def Layout.Fits (l : Layout) : Prop :=
  ListFits NodeLayout.Fits l.nodes ∧ ListFits EdgeLayout.Fits l.edges

instance : DecidablePred NodeLayout.Fits := fun _ => inferInstanceAs (Decidable (_ ∧ _))

instance : DecidablePred EdgeLayout.Fits := fun _ => inferInstanceAs (Decidable (_ ∧ _))

instance : DecidablePred Layout.Fits := fun _ => inferInstanceAs (Decidable (_ ∧ _))

theorem NodeLayout.read_undoes : Undoes NodeLayout.read NodeLayout.write NodeLayout.Fits := by
  refine (readText_undoes.field (fun _ => True) uid fun u =>
    readText_undoes.field _ label fun l =>
    PropertyLayout.read_undoes.field _ properties fun p =>
    (readList_undoes readText_undoes).field _ inEdges fun i =>
    (readList_undoes readText_undoes).lastField _ outEdges fun o n => ?_).congr (fun n => ?_)
      fun n => (true_and _).to_iff.symm
  · cases n
    simp only [true_and, and_assoc, NodeLayout.mk.injEq]
  · simp only [NodeLayout.write, List.append_assoc]

theorem EdgeLayout.read_undoes : Undoes EdgeLayout.read EdgeLayout.write EdgeLayout.Fits := by
  refine (readText_undoes.field (fun _ => True) uid fun u =>
    readText_undoes.field _ source fun s =>
    readText_undoes.field _ label fun l =>
    readText_undoes.field _ target fun t =>
    PropertyLayout.read_undoes.lastField _ properties fun p e => ?_).congr (fun e => ?_)
      fun e => (true_and _).to_iff.symm
  · cases e
    simp only [true_and, and_assoc, EdgeLayout.mk.injEq]
  · simp only [EdgeLayout.write, List.append_assoc]

/-- **A layout in binary is read back as it was written**, if the lengths in it fit, and nothing
else is read as this layout. -/
theorem Layout.read_undoes : Undoes Layout.read Layout.write Layout.Fits := by
  refine ((readList_undoes NodeLayout.read_undoes).field (fun _ => True) nodes fun n =>
    (readList_undoes EdgeLayout.read_undoes).lastField _ edges fun e l => ?_).congr
      (fun _ => rfl) fun l => (true_and _).to_iff.symm
  cases l
  simp only [true_and, Layout.mk.injEq]

/-! ## Dumps -/

namespace Dump

/-- What is restored is the dump of the layout that the bytes hold. -/
theorem restoreBinary_eq_ok_iff {bytes rest : List UInt8} {d : Dump} :
    restoreBinary bytes = .ok (d, rest) ↔
      ∃ l, Layout.read bytes = .ok (l, rest) ∧ l.dump = d := by
  rw [restoreBinary, map_eq_ok_iff, Prod.exists]
  constructor
  · rintro ⟨l, _, read, ⟨⟩⟩
    exact ⟨l, read, rfl⟩
  · rintro ⟨l, read, rfl⟩
    exact ⟨l, rest, read, rfl⟩

/-- **The binary form of a dump.** A dump comes back from it whatever the order in which its
property maps were emitted, and what stands behind it is left alone. Nothing else is read as a dump:
the bytes that were taken are those of the layout that they show, and if that repeats no key, it is
the dump with its property maps in the order of the bytes. -/
theorem restoreBinary_exact (d : Dump) (rest : List UInt8) :
    (∀ l : Layout, l.Lists d → l.Fits →
      restoreBinary (l.save .binary ++ rest) = .ok (d, rest)) ∧
    ∀ bytes, restoreBinary bytes = .ok (d, rest) →
      ∃ l : Layout, Layout.read bytes = .ok (l, rest) ∧ bytes = l.save .binary ++ rest ∧ l.Fits ∧
        l.dump = d ∧ (l.Distinct → l.Lists d) := by
  constructor
  · intro l lists fits
    obtain ⟨-, rfl⟩ := Layout.lists_iff.1 lists
    exact restoreBinary_eq_ok_iff.2 ⟨l, Layout.read_undoes.read_eq_ok_iff.2 ⟨fits, rfl⟩, rfl⟩
  · intro bytes ok
    obtain ⟨l, read, rfl⟩ := restoreBinary_eq_ok_iff.1 ok
    obtain ⟨fits, written⟩ := Layout.read_undoes.written read
    exact ⟨l, read, written, fits, rfl, fun distinct => Layout.lists_iff.2 ⟨distinct, rfl⟩⟩

/-- Values of all kinds under keys that descend, a uid that is listed twice and adjacency that no
graph has; behind the dump stands what could be the start of another. -/
theorem restoreBinary_exact_of_odd_dump :
    let l : Layout :=
      ⟨[⟨"é", "", [("k", .integer (-1)), ("b", .boolean true), ("a", .bytes [0, 255]),
          ("", .string "\"\n")], ["x", "x"], ["z", "y"]⟩, ⟨"é", "M", [], [], []⟩],
        [⟨"x", "é", "K", "nowhere", []⟩]⟩
    let rest : List UInt8 := [2, 0, 0]
    l.Lists l.dump ∧ l.Fits ∧ restoreBinary (l.save .binary ++ rest) = .ok (l.dump, rest) ∧
      ∃ l' : Layout, l'.Fits ∧ l.save .binary ++ rest = l'.save .binary ++ rest ∧
        l'.dump = l.dump := by
  intro l rest
  have lists : l.Lists l.dump := Layout.lists_iff.2 ⟨by decide, rfl⟩
  have fits : l.Fits := by decide
  obtain ⟨written, taken⟩ := restoreBinary_exact l.dump rest
  have read := written l lists fits
  obtain ⟨l', -, eq, fits', same, -⟩ := taken _ read
  exact ⟨lists, fits, read, l', fits', eq, same⟩

end Dump

end PropertyGraph
