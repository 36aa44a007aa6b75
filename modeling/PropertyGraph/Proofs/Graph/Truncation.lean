import PropertyGraph.Proofs.Graph.BinaryForm
import PropertyGraph.Proofs.Graph.JsonForm

/-!
# Dumps that were cut off

No part of a saved dump is taken for a smaller dump. Wherever a file was cut off, the reader comes
to its end before it finds any other fault: a JSON text ends too early, and binary is truncated.
-/

namespace PropertyGraph.Dump

open Json

/-- **A JSON text that is cut short ends early** as far as its reader can tell, wherever the cut is.
-/
theorem restore_json_truncated (style : Style) (l : Layout) {p : List UInt8}
    (front : p <+: Utf8.encode (l.text style)) (ne : p ≠ Utf8.encode (l.text style)) :
    ∃ e, e.category = .unfinished ∧ restore .json p = .error (.json e) := by
  obtain ⟨e, early, fails⟩ := all_of_front (Layout.reader_delimits style l) front ne
  refine ⟨e, early, ?_⟩
  rw [restore, restoreJson, fails]
  rfl

/-- **A binary dump that is cut short** lacks bytes that its reader needs, wherever the cut is. -/
theorem restore_binary_truncated {l : Layout} (fits : l.Fits) {p : List UInt8}
    (front : p <+: l.save .binary) (ne : p ≠ l.save .binary) :
    restore .binary p = .error (.binary .truncated) := by
  obtain ⟨e, rfl, fails⟩ := (Layout.read_undoes.delimits fits).runsShort_of_front front ne
  rw [restore, restoreBinary, fails]
  rfl

/-- **Of the beginnings of a file only the whole is accepted**, whatever dump it holds and in
whatever order its property maps were emitted. -/
theorem restore_truncated (l : Layout) (p : List UInt8) :
    (∀ style, p <+: Utf8.encode (l.text style) →
      if p = Utf8.encode (l.text style) then restore .json p = .ok l.dump
      else ∃ e, e.category = .unfinished ∧ restore .json p = .error (.json e)) ∧
    (l.Fits → p <+: l.save .binary →
      if p = l.save .binary then restore .binary p = .ok l.dump
      else restore .binary p = .error (.binary .truncated)) := by
  constructor
  · intro style front
    split
    next whole =>
      rw [restore, whole, restoreJson_text]
      rfl
    next part => exact restore_json_truncated style l front part
  · intro fits front
    split
    next whole =>
      have read := (Layout.read_undoes.delimits fits).whole []
      rw [List.append_nil] at read
      rw [restore, whole, Layout.save, restoreBinary, read]
      rfl
    next part => exact restore_binary_truncated fits front part

/-- Cuts inside of a character, an escape and a number of a text, and inside of a length. -/
theorem restore_truncated_of_cuts :
    let l : Layout := ⟨[⟨"é", "\u0001", [("k", .integer (-12))], [], []⟩], []⟩
    let text := Utf8.encode (l.text .compact)
    (∀ n ∈ [19, 35, 70], ∃ e, e.category = .unfinished ∧
        restore .json (text.take n) = .error (.json e)) ∧
      restore .binary ((l.save .binary).take 12) = .error (.binary .truncated) := by
  intro l text
  have parts : ∀ n ∈ [19, 35, 70], text.take n ≠ text := by decide
  have part : (l.save .binary).take 12 ≠ l.save .binary := by decide
  constructor
  · intro n hn
    have read := (restore_truncated l (text.take n)).1 .compact <| List.take_prefix n text
    rwa [if_neg (parts n hn)] at read
  · have read := (restore_truncated l _).2 (by decide) <| List.take_prefix 12 (l.save .binary)
    rwa [if_neg part] at read

end PropertyGraph.Dump
