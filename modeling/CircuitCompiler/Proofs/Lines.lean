import CircuitCompiler.Vhdl.Line

/-!
# Lines with lists in them

Emitted text is read back as the lines it was written from, as long as none of them has a line break
of its own. What the lines of a part of a design unit have in common goes through putting parts one
behind the other and deeper, so it holds of a whole unit as soon as it holds of single lines and of
lists in parentheses.

* `Vhdl.linesOf_renderLines`: the lines of an emitted text;
* `Vhdl.Items`, `Vhdl.Listed`: the lists in parentheses among lines;
* `Vhdl.Block`: lines that have something on them, with their lists.
-/

namespace CircuitCompiler.Vhdl

/-! ## The lines of a text -/

/-- The lines of a text, each up to its line break. -/
def linesOf (text : String) : List String := ((text.toList.splitOn '\n').map String.ofList).dropLast

/-- The text stays on one line. -/
def NoBreak (s : String) : Prop := '\n' ∉ s.toList

instance (s : String) : Decidable (NoBreak s) := inferInstanceAs (Decidable (¬_))

@[simp] theorem noBreak_append {s t : String} : NoBreak (s ++ t) ↔ NoBreak s ∧ NoBreak t := by
  simp [NoBreak, String.toList_append, not_or]

/-- Lines without breaks in them are the lines of their text. -/
theorem linesOf_join {ls : List String} (whole : ∀ l ∈ ls, NoBreak l) :
    linesOf (String.join (ls.map (· ++ "\n"))) = ls := by
  have split : (String.join (ls.map (· ++ "\n"))).toList.splitOn '\n' =
      ls.map String.toList ++ [[]] := by
    induction ls with
    | nil => rfl
    | cons l rest ih =>
      obtain ⟨here, later⟩ := List.forall_mem_cons.mp whole
      have lineBreak : "\n".toList = ['\n'] := by decide
      have chars : (String.join ((l :: rest).map (· ++ "\n"))).toList =
          l.toList ++ '\n' :: (String.join (rest.map (· ++ "\n"))).toList := by
        simp only [String.toList_join, List.map_cons, List.flatMap_cons, String.toList_append,
          lineBreak, List.append_assoc, List.singleton_append]
      rw [chars, List.splitOn_append_cons_self, List.splitOn_eq_singleton here, ih later]
      rfl
  have back : (ls.map String.toList).map String.ofList = ls := by
    rw [List.map_map]
    exact (List.map_congr_left fun l _ => String.ofList_toList).trans (List.map_id ls)
  rw [linesOf, split, List.map_append, back, List.map_singleton, List.dropLast_concat]

/-- The line as it is written, without its break. -/
def Line.shown (step : Nat) : Line → String
  | text depth body => Text.spaces (depth * step) ++ body
  | blank => ""

theorem renderLines_eq (step : Nat) (ls : List Line) :
    renderLines step ls = String.join ((ls.map (Line.shown step)).map (· ++ "\n")) := by
  rw [renderLines, List.map_map]
  refine congrArg String.join (List.map_congr_left fun l _ => ?_)
  cases l <;> rfl

/-- What stands on a line behind its indentation: something that does not start with a blank and
stays on the line. -/
structure IsBody (s : String) : Prop where
  starts : s.toList.head?.any (· != ' ') = true
  whole : NoBreak s

theorem IsBody.append {s t : String} (hs : IsBody s) (ht : NoBreak t) : IsBody (s ++ t) := by
  refine ⟨?_, noBreak_append.mpr ⟨hs.whole, ht⟩⟩
  have starts := hs.starts
  rw [String.toList_append]
  cases chars : s.toList with
  | nil =>
    rw [chars] at starts
    cases starts
  | cons c cs =>
    rw [chars] at starts
    exact starts

theorem IsBody.of_decide {s : String}
    (h : (s.toList.head?.any (· != ' ') && s.toList.all (· != '\n')) = true) : IsBody s := by
  obtain ⟨starts, whole⟩ := Bool.and_eq_true_iff.mp h
  refine ⟨starts, fun lineBreak => ?_⟩
  simpa using List.all_eq_true.mp whole _ lineBreak

theorem IsBody.ne_nil {s : String} (h : IsBody s) : s.toList ≠ [] := by
  intro none
  have starts := h.starts
  rw [none] at starts
  cases starts

/-- The last character of a text. -/
def lastChar (s : String) : Option Char := s.toList.getLast?

theorem lastChar_append {s t : String} (filled : t.toList ≠ []) :
    lastChar (s ++ t) = lastChar t := by
  rw [lastChar, String.toList_append, List.getLast?_append]
  cases last : t.toList.getLast? with
  | none => exact absurd (List.getLast?_eq_none_iff.mp last) filled
  | some c => exact last.symm

theorem noBreak_spaces (n : Nat) : NoBreak (Text.spaces n) := by
  intro lineBreak
  rw [Text.spaces, String.toList_ofList] at lineBreak
  exact absurd (List.eq_of_mem_replicate lineBreak) (by decide)

/-- The lines of an emitted text. -/
theorem linesOf_renderLines {step : Nat} {ls : List Line}
    (bodies : ∀ k body, Line.text k body ∈ ls → IsBody body) :
    linesOf (renderLines step ls) = ls.map (Line.shown step) := by
  rw [renderLines_eq, linesOf_join]
  intro s hs
  obtain ⟨l, hl, rfl⟩ := List.mem_map.mp hs
  cases l with
  | blank => exact List.not_mem_nil
  | text k body => exact noBreak_append.mpr ⟨noBreak_spaces _, (bodies k body hl).whole⟩

/-! ## Lists in parentheses -/

/-- The items of a list in parentheses: all but the last end with the separator, and the last does
not. -/
structure Items (sep : Char) (items : List String) : Prop where
  filled : items ≠ []
  bodies : ∀ item ∈ items, IsBody item
  separated : ∀ item ∈ items.dropLast, lastChar item = some sep
  last : ∀ item ∈ items.getLast?, lastChar item ≠ some sep

/-- An item before a separator is put behind it. -/
structure IsItem (s : String) : Prop where
  body : IsBody s
  ends : ∀ c ∈ lastChar s, c ∉ ['(', ',', ';']

theorem separated_spec {sep : String} {mark : Char} (one : sep.toList = [mark])
    (known : mark = ',' ∨ mark = ';') {items : List String} (filled : items ≠ [])
    (good : ∀ item ∈ items, IsItem item) :
    Items mark (separated sep items) ∧
      ∀ item ∈ separated sep items, lastChar item ≠ some '(' := by
  have marked : ∀ s, lastChar (s ++ sep) = some mark := by
    intro s
    rw [lastChar_append (by rw [one]; exact List.cons_ne_nil _ _), lastChar, one]
    rfl
  have opening : mark ≠ '(' := by
    rcases known with rfl | rfl <;> decide
  have unbroken : NoBreak sep := by
    rw [NoBreak, one]
    rcases known with rfl | rfl <;> decide
  have ends : ∀ item, IsItem item → lastChar item ≠ some mark ∧ lastChar item ≠ some '(' := by
    intro item good
    refine ⟨fun last => good.ends mark last ?_, fun last => good.ends '(' last (by decide)⟩
    rcases known with rfl | rfl <;> decide
  induction items with
  | nil => exact absurd rfl filled
  | cons item rest ih =>
    obtain ⟨here, later⟩ := List.forall_mem_cons.mp good
    obtain ⟨unmarked, closed⟩ := ends item here
    cases rest with
    | nil =>
      have single : separated sep [item] = [item] := rfl
      rw [single]
      refine ⟨⟨filled, List.forall_mem_singleton.mpr here.body, fun _ none => ?_, ?_⟩,
        List.forall_mem_singleton.mpr closed⟩
      · cases none
      · intro last found
        rw [← Option.some_inj.mp found]
        exact unmarked
    | cons next rest =>
      obtain ⟨behind, open_⟩ := ih (List.cons_ne_nil _ _) later
      have front : separated sep (item :: next :: rest) =
          (item ++ sep) :: separated sep (next :: rest) := rfl
      have closed : lastChar (item ++ sep) ≠ some '(' := by
        rw [marked item]
        exact fun same => opening (Option.some_inj.mp same)
      rw [front]
      refine ⟨⟨List.cons_ne_nil _ _, ?_, ?_, ?_⟩, List.forall_mem_cons.mpr ⟨closed, open_⟩⟩
      · exact List.forall_mem_cons.mpr ⟨here.body.append unbroken, behind.bodies⟩
      · rw [List.dropLast_cons_of_ne_nil behind.filled]
        exact List.forall_mem_cons.mpr ⟨marked item, behind.separated⟩
      · rw [List.getLast?_cons_of_ne_nil behind.filled]
        exact behind.last

/-- The words before a list, each with what separates the items. -/
def listHeads : List (String × Char) :=
  [("generic", ';'), ("port", ';'), ("generic map", ','), ("port map", ',')]

/-- The text at a depth opens a list: its items follow one step deeper, and the parenthesis that
closes it stands at the depth again. -/
def OpensList (k : Nat) (body : String) (after : List Line) : Prop :=
  ∃ head sep items tail rest, (head, sep) ∈ listHeads ∧ body = head ++ " (" ∧
    after = items.map (Line.text (k + 1)) ++ .text k (")" ++ tail) :: rest ∧ Items sep items

/-- All lines that end with an opening parenthesis open a list. -/
def Listed (ls : List Line) : Prop :=
  ∀ before k body after, ls = before ++ .text k body :: after → lastChar body = some '(' →
    OpensList k body after

namespace Listed

theorem nil : Listed [] := fun before k body after split _ => by
  cases before <;> cases split

theorem cons {l : Line} {ls : List Line} (h : Listed ls)
    (here : ∀ k body, l = .text k body → lastChar body = some '(' → OpensList k body ls) :
    Listed (l :: ls) := by
  intro before k body after split opens
  cases before with
  | nil =>
    obtain ⟨rfl, rfl⟩ := List.cons_eq_cons.mp split
    exact here k body rfl opens
  | cons l' before =>
    obtain ⟨-, split⟩ := List.cons_eq_cons.mp split
    exact h before k body after split opens

theorem append {ls ls' : List Line} (h : Listed ls) (h' : Listed ls') : Listed (ls ++ ls') := by
  intro before k body after split opens
  rcases List.append_eq_append_iff.mp split with ⟨between, rfl, behind⟩ | ⟨between, rfl, behind⟩
  · exact h' between k body after behind opens
  · cases between with
    | nil => exact h' [] k body after behind.symm opens
    | cons l between =>
      obtain ⟨rfl, rfl⟩ := List.cons_eq_cons.mp behind
      obtain ⟨head, sep, items, tail, rest, known, text, rfl, good⟩ :=
        h before k body between rfl opens
      exact ⟨head, sep, items, tail, rest ++ ls', known, text, List.append_assoc _ _ _, good⟩

theorem indented {ls : List Line} (h : Listed ls) : Listed (indented ls) := by
  intro before k body after split opens
  obtain ⟨before, behind, rfl, -, split⟩ := List.map_eq_append_iff.mp split
  obtain ⟨l, after, rfl, here, rfl⟩ := List.map_eq_cons_iff.mp split
  cases l with
  | blank => cases here
  | text depth body =>
    cases here
    obtain ⟨head, sep, items, tail, rest, known, text, rfl, good⟩ :=
      h before depth body after rfl opens
    refine ⟨head, sep, items, tail, rest.map Line.deeper, known, text, ?_, good⟩
    rw [List.map_append, List.map_map]
    rfl

/-- Lines that do not end with an opening parenthesis. -/
theorem of_closed {ls : List Line} (closed : ∀ k body, Line.text k body ∈ ls →
    lastChar body ≠ some '(') : Listed ls := by
  intro before k body after split opens
  exact absurd opens (closed k body (split ▸ List.mem_append_right _ List.mem_cons_self))

end Listed

/-! ## Blocks -/

/-- Lines with something on each of them, on which all that ends with an opening parenthesis opens a
list. -/
structure Block (ls : List Line) : Prop where
  bodies : ∀ l ∈ ls, ∃ k body, l = .text k body ∧ IsBody body
  listed : Listed ls

namespace Block

theorem nil : Block [] := ⟨fun _ none => absurd none List.not_mem_nil, .nil⟩

theorem append {ls ls' : List Line} (h : Block ls) (h' : Block ls') : Block (ls ++ ls') where
  bodies := List.forall_mem_append.mpr ⟨h.bodies, h'.bodies⟩
  listed := h.listed.append h'.listed

theorem indented {ls : List Line} (h : Block ls) : Block (indented ls) where
  bodies := by
    intro l hl
    obtain ⟨l', hl', rfl⟩ := List.mem_map.mp hl
    obtain ⟨k, body, rfl, good⟩ := h.bodies l' hl'
    exact ⟨k + 1, body, rfl, good⟩
  listed := h.listed.indented

theorem flatMap {α : Type} {f : α → List Line} {as : List α} (h : ∀ a ∈ as, Block (f a)) :
    Block (as.flatMap f) := by
  induction as with
  | nil => exact nil
  | cons a as ih =>
    obtain ⟨here, later⟩ := List.forall_mem_cons.mp h
    rw [List.flatMap_cons]
    exact here.append (ih later)

/-- Lines of their own. -/
theorem of_flush {ls : List Line}
    (h : ∀ l ∈ ls, ∃ body, l = flush body ∧ IsBody body ∧ lastChar body ≠ some '(') :
    Block ls where
  bodies := fun l hl =>
    let ⟨body, text, good, _⟩ := h l hl
    ⟨0, body, text, good⟩
  listed := .of_closed fun k body mem => by
    obtain ⟨body', same, -, closed⟩ := h _ mem
    cases same
    exact closed

theorem line {body : String} (h : IsBody body) (closed : lastChar body ≠ some '(') :
    Block [flush body] :=
  .of_flush (List.forall_mem_singleton.mpr ⟨body, rfl, h, closed⟩)

/-- A list in parentheses. -/
theorem clause {head sep tail : String} (mark : Char) (known : (head, mark) ∈ listHeads)
    (one : sep.toList = [mark]) (ends : tail = "" ∨ tail = ";") {items : List String}
    (good : ∀ item ∈ items, IsItem item) : Block (clause head items sep tail) := by
  unfold Vhdl.clause
  by_cases none : items = []
  · subst none
    exact nil
  have some_ : items.isEmpty = false := by simpa using none
  have marks : mark = ',' ∨ mark = ';' := by
    simp only [listHeads, List.mem_cons, Prod.mk.injEq, List.not_mem_nil, or_false] at known
    rcases known with ⟨-, rfl⟩ | ⟨-, rfl⟩ | ⟨-, rfl⟩ | ⟨-, rfl⟩ <;> simp
  obtain ⟨items', closed⟩ := separated_spec one marks none good
  have heads : IsBody (head ++ " (") := by
    simp only [listHeads, List.mem_cons, Prod.mk.injEq, List.not_mem_nil, or_false] at known
    rcases known with ⟨rfl, -⟩ | ⟨rfl, -⟩ | ⟨rfl, -⟩ | ⟨rfl, -⟩ <;> exact .of_decide (by decide)
  have close : IsBody (")" ++ tail) ∧ lastChar (")" ++ tail) ≠ some '(' := by
    rcases ends with rfl | rfl
    · exact ⟨.of_decide (by decide), by decide⟩
    · exact ⟨.of_decide (by decide), by decide⟩
  have inner : Vhdl.indented ((separated sep items).map flush) =
      (separated sep items).map (Line.text 1) := by
    rw [Vhdl.indented, List.map_map]
    rfl
  rw [some_, if_neg Bool.false_ne_true, inner, List.cons_append]
  refine ⟨?_, Listed.cons (.of_closed ?_) fun k body same _ => ?_⟩
  · refine List.forall_mem_cons.mpr ⟨⟨0, _, rfl, heads⟩, List.forall_mem_append.mpr ⟨?_, ?_⟩⟩
    · exact List.forall_mem_map.mpr fun item hi => ⟨1, item, rfl, items'.bodies item hi⟩
    · exact List.forall_mem_singleton.mpr ⟨0, _, rfl, close.1⟩
  · intro k body mem
    rcases List.mem_append.mp mem with item | last
    · obtain ⟨item, hi, same⟩ := List.mem_map.mp item
      cases same
      exact closed body hi
    · cases List.mem_singleton.mp last
      exact close.2
  · cases same
    exact ⟨head, mark, separated sep items, tail, [], known, rfl, rfl, items'⟩

end Block

/-! ## Written lines -/

/-- Lines of which some may be empty. -/
structure Sheet (ls : List Line) : Prop where
  bodies : ∀ k body, Line.text k body ∈ ls → IsBody body
  listed : Listed ls

theorem Block.sheet {ls : List Line} (h : Block ls) : Sheet ls where
  bodies := by
    intro k body mem
    obtain ⟨k', body', same, good⟩ := h.bodies _ mem
    cases same
    exact good
  listed := h.listed

/-- Whether the line is not indented. -/
def isFlush : Line → Bool
  | .text 0 _ | .blank => true
  | .text (_ + 1) _ => false

@[simp] theorem isFlush_flush (body : String) : isFlush (flush body) = true := rfl

@[simp] theorem isFlush_blank : isFlush .blank = true := rfl

theorem Block.filter_indented {ls : List Line} (h : Block ls) :
    (Vhdl.indented ls).filter isFlush = [] := by
  refine List.filter_eq_nil_iff.mpr fun l hl => ?_
  obtain ⟨l', hl', rfl⟩ := List.mem_map.mp hl
  obtain ⟨k, body, rfl, -⟩ := h.bodies l' hl'
  exact Bool.false_ne_true

/-- The written line is indented. -/
def startsBlank (line : String) : Bool := line.toList.head? == some ' '

/-- The written line opens a list in parentheses: its items follow one step deeper, and the
parenthesis that closes it stands below the line. -/
def ListBehind (step : Nat) (line : String) (after : List String) : Prop :=
  ∃ depth head sep items tail rest, (head, sep) ∈ listHeads ∧
    line = Text.spaces (depth * step) ++ (head ++ " (") ∧
    after = items.map (Text.spaces ((depth + 1) * step) ++ ·) ++
      (Text.spaces (depth * step) ++ (")" ++ tail)) :: rest ∧ Items sep items

@[simp] theorem shown_blank (step : Nat) : Line.blank.shown step = "" := rfl

@[simp] theorem shown_flush (step : Nat) (body : String) : (flush body).shown step = body := by
  show Text.spaces (0 * step) ++ body = body
  rw [Nat.zero_mul]
  exact String.empty_append

namespace Sheet

variable {ls ls' : List Line}

theorem append (h : Sheet ls) (h' : Sheet ls') : Sheet (ls ++ ls') where
  bodies := fun k body mem => (List.mem_append.mp mem).elim (h.bodies k body) (h'.bodies k body)
  listed := h.listed.append h'.listed

theorem blank : Sheet [.blank] where
  bodies := fun k body mem => by cases List.mem_singleton.mp mem
  listed := .of_closed fun k body mem => by cases List.mem_singleton.mp mem

/-- What is indented is written behind blanks, and nothing else is. -/
theorem startsBlank_shown (h : Sheet ls) {step : Nat} (wide : 1 ≤ step) {l : Line} (hl : l ∈ ls) :
    startsBlank (l.shown step) = !isFlush l := by
  cases l with
  | blank => rfl
  | text k body =>
    have starts := (h.bodies k body hl).starts
    cases k with
    | zero =>
      rw [show Line.text 0 body = flush body from rfl, shown_flush, startsBlank]
      cases chars : body.toList with
      | nil => rfl
      | cons c cs =>
        rw [chars, List.head?_cons, Option.any_some, bne_iff_ne] at starts
        simpa [flush, isFlush] using starts
    | succ k =>
      obtain ⟨n, count⟩ : ∃ n, (k + 1) * step = n + 1 :=
        Nat.exists_eq_succ_of_ne_zero (Nat.mul_ne_zero (Nat.succ_ne_zero k) (by omega))
      rw [Line.shown, startsBlank, String.toList_append, count, Text.spaces, String.toList_ofList,
        List.replicate_succ]
      rfl

/-- Every written line that ends with an opening parenthesis opens a list. -/
theorem listBehind (h : Sheet ls) {step : Nat} {before after : List String} {line : String}
    (split : ls.map (Line.shown step) = before ++ line :: after)
    (opens : lastChar line = some '(') : ListBehind step line after := by
  obtain ⟨before, behind, rfl, -, split⟩ := List.map_eq_append_iff.mp split
  obtain ⟨l, after, rfl, rfl, rfl⟩ := List.map_eq_cons_iff.mp split
  cases l with
  | blank => cases opens
  | text k body =>
    have good := h.bodies k body (by simp)
    rw [Line.shown, lastChar_append good.ne_nil] at opens
    obtain ⟨head, sep, items, tail, rest, known, rfl, rfl, separated⟩ :=
      h.listed before k body after rfl opens
    refine ⟨k, head, sep, items, tail, rest.map (Line.shown step), known, rfl, ?_, separated⟩
    rw [List.map_append, List.map_cons, List.map_map]
    rfl

end Sheet
end CircuitCompiler.Vhdl
