import Mathlib
import Idyl.Proofs.Token.Places

/-!
# Texts of line feeds

A text that is made of line feeds has as many lines, and one more, as it has bytes, so no text has
more lines for its length.  There is nothing to read in it but the end of the file, which stands on
its last line.  These are the texts in which lines outgrow their numbers first.

## Main definitions

* `Idyl.lineFeeds` — a number of line feeds.

## Main results

* `Idyl.lineFeedsBefore_lineFeeds` — the lines of such a text.
* `Idyl.scan_lineFeeds` — its only token.
-/

set_option autoImplicit false

namespace Idyl

/-- A text of `n` line feeds. -/
def lineFeeds (n : Nat) : String := String.ofList (List.replicate n '\n')

/-- The end of a file of `n` line feeds. -/
def endOfLineFeeds (n : Nat) (file : String) : Token :=
  ⟨.endOfFile, "", ⟨n, n, UInt32.ofNat (n + 1), 1⟩, file⟩

/-- The characters of a text of line feeds. -/
lemma toList_lineFeeds (n : Nat) : (lineFeeds n).toList = List.replicate n '\n' :=
  String.toList_ofList

/-- A line feed takes one byte. -/
lemma byteLength_replicate (n : Nat) : byteLength (List.replicate n '\n') = n := by
  induction n with
  | zero => rfl
  | succ n ih =>
    rw [List.replicate_succ, byteLength_cons, ih, Nat.add_comm]
    rfl

/-- The bytes of a text of line feeds. -/
lemma utf8ByteSize_lineFeeds (n : Nat) : (lineFeeds n).utf8ByteSize = n := by
  rw [← byteLength_toList, toList_lineFeeds, byteLength_replicate]

/-- One line feed more. -/
lemma lineFeeds_append (n : Nat) : lineFeeds n ++ "\n" ++ "" = lineFeeds (n + 1) := by
  rw [← String.toList_inj]
  simp [toList_lineFeeds, List.replicate_succ']

/-- **The lines of a text of line feeds** are as many as its bytes, and one more. -/
lemma lineFeedsBefore_lineFeeds (n : Nat) : lineFeedsBefore (lineFeeds n) n = n := by
  have hbefore := charsBefore_byteLength (List.replicate n '\n') []
  rw [byteLength_replicate, List.append_nil] at hbefore
  rw [lineFeedsBefore, toList_lineFeeds, hbefore, List.count_replicate_self]

/-- Line feeds are blanks. -/
lemma blankLength_replicate (n : Nat) : blankLength false (List.replicate n '\n') = n := by
  induction n with
  | zero => rfl
  | succ n ih =>
    rw [List.replicate_succ, blankLength.eq_def]
    exact congrArg (· + 1) ih

/-- The position behind line feeds. -/
lemma Position.after_replicate (n : Nat) :
    origin.after (List.replicate n '\n') = ⟨n, UInt32.ofNat (n + 1), 1⟩ := by
  induction n with
  | zero => rfl
  | succ n ih =>
    rw [List.replicate_succ', after_concat, ih, next, if_pos rfl, UInt32.ofNat_add (n + 1)]
    rfl

/-- **The end of the file is all there is** to be read in a text of line feeds. -/
lemma scan_lineFeeds (n : Nat) (file : String) :
    scan (lineFeeds n) file = .ok [endOfLineFeeds n file] := by
  have hskip : (Scanner.ofText (lineFeeds n) file).skipBlanks =
      ⟨file, ⟨n, UInt32.ofNat (n + 1), 1⟩, []⟩ := by
    rw [Scanner.skipBlanks, Scanner.skip, Scanner.ofText, toList_lineFeeds, blankLength_replicate,
      List.take_of_length_le (by simp), List.drop_of_length_le (by simp),
      Position.after_replicate]
  have hnext : (Scanner.ofText (lineFeeds n) file).next.1 = .ok (endOfLineFeeds n file) := by
    rw [Scanner.next, hskip]
    rfl
  have hend : (Scanner.ofText (lineFeeds n) file).atEnd = true := by
    rw [Scanner.atEnd, hskip]
    rfl
  rw [scan, Scanner.steps, if_pos hend, hnext]
  rfl

end Idyl
