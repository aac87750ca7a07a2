import CircuitCompiler.Diagnostic.Bag
import CircuitCompiler.Proofs.Lexeme
import Mathlib

/-!
# One diagnostic for each finding

A bag is shown in order and without repetitions. Sorting is stable and puts the graver of two
diagnostics at one place first, so of those that report one finding the first that stays is the
gravest, and of equally grave ones the first that was reported.

* `Bag.ranksBefore_iff`: the order, as that of `Bag.rank`;
* `Bag.findingKey_inj`: the text that tells findings apart;
* `Bag.mem_sort_dedup_iff`: what stays of a bag is its canonical diagnostics;
* `Bag.within_run`: whatever is done with a bag, it stays within its limit;
* `Bag.shows_canonical`: all of this together.
-/

namespace CircuitCompiler.Bag

/-! ## The order of diagnostics -/

/-- What diagnostics are sorted by: the file, the start and the end of the place, then the graver
first, then the code. -/
def rank (d : Diagnostic) : Nat ×ₗ Nat ×ₗ Nat ×ₗ Natᵒᵈ ×ₗ Nat :=
  toLex (d.primary.file, toLex (d.primary.start, toLex (d.primary.stop,
    toLex (OrderDual.toDual d.severity.rank, d.code.number))))

theorem ranksBefore_iff {d e : Diagnostic} : ranksBefore d e = true ↔ rank d ≤ rank e := by
  have grave : d.severity = e.severity ↔ d.severity.rank = e.severity.rank :=
    ⟨congrArg Severity.rank, fun same => congrArg Severity.mk same⟩
  simp only [rank, Prod.Lex.toLex_le_toLex, OrderDual.toDual_lt_toDual, OrderDual.toDual_inj]
  unfold ranksBefore
  simp only [bne_iff_ne, ne_eq, grave]
  split_ifs <;> simp only [decide_eq_true_eq] <;> omega

theorem ranksBefore_trans (d e f : Diagnostic) (h : ranksBefore d e = true)
    (h' : ranksBefore e f = true) : ranksBefore d f = true :=
  ranksBefore_iff.mpr ((ranksBefore_iff.mp h).trans (ranksBefore_iff.mp h'))

theorem ranksBefore_total (d e : Diagnostic) : (ranksBefore d e || ranksBefore e d) = true := by
  rw [Bool.or_eq_true, ranksBefore_iff, ranksBefore_iff]
  exact le_total _ _

theorem sort_sorted (b : Bag) : b.sort.items.Pairwise fun d e => rank d ≤ rank e :=
  (List.pairwise_mergeSort ranksBefore_trans ranksBefore_total b.items).imp ranksBefore_iff.mp

theorem sort_perm (b : Bag) : b.sort.items.Perm b.items := List.mergeSort_perm _ _

/-- Diagnostics that tie keep their order. -/
theorem filter_sort (b : Bag) {p : Diagnostic → Bool}
    (ties : ∀ d e, p d = true → p e = true → rank d ≤ rank e) :
    b.sort.items.filter p = b.items.filter p := by
  have tied : (b.items.filter p).Pairwise fun d e => ranksBefore d e = true := by
    refine List.pairwise_of_forall_mem_list fun d hd e he => ranksBefore_iff.mpr ?_
    exact ties d e (List.mem_filter.mp hd).2 (List.mem_filter.mp he).2
  have inside : (b.items.filter p).Sublist b.sort.items :=
    List.sublist_mergeSort ranksBefore_trans ranksBefore_total tied List.filter_sublist
  have inside : (b.items.filter p).Sublist (b.sort.items.filter p) := by
    simpa [List.filter_filter] using inside.filter p
  exact (inside.eq_of_length (b.sort_perm.filter p).length_eq.symm).symm

/-! ## Findings -/

/-- The code and the place that a diagnostic reports. -/
def finding (d : Diagnostic) : Code × Span := (d.code, d.primary)

/-- A number in front of a mark is read off the text. -/
theorem number_append_inj {m n : Nat} {sep s t : String} {mark : Char} (one : sep.toList = [mark])
    (other : mark.isDigit = false) (same : toString m ++ sep ++ s = toString n ++ sep ++ t) :
    m = n ∧ s = t := by
  have chars := congrArg String.toList same
  simp only [String.toList_append, one, List.append_assoc, List.singleton_append] at chars
  obtain ⟨numbers, rest⟩ := run_append_inj (fun _ => isDigit_of_mem_number)
    (fun _ => isDigit_of_mem_number) (by simpa using other) (by simpa using other) chars
  exact ⟨Nat.repr_injective (String.toList_inj.mp numbers),
    String.toList_inj.mp (List.cons_inj_right mark |>.mp rest)⟩

/-- The text tells findings apart. -/
theorem findingKey_inj {d e : Diagnostic} (same : findingKey d = findingKey e) :
    finding d = finding e := by
  have colon : ":".toList = [':'] := by decide
  have dash : "-".toList = ['-'] := by decide
  have place : ∀ s : Span, s.text =
      toString s.file ++ ":" ++ (toString s.start ++ "-" ++ toString s.stop) := by
    intro s
    simp only [Span.text, String.append_assoc]
  rw [findingKey, findingKey, place, place] at same
  obtain ⟨code, same⟩ := number_append_inj colon (by decide) same
  obtain ⟨file, same⟩ := number_append_inj colon (by decide) same
  obtain ⟨start, stop⟩ := number_append_inj dash (by decide) same
  exact Prod.ext (congrArg Code.mk code)
    (Span.mk.injEq .. ▸ ⟨file, start, Nat.repr_injective stop⟩)

theorem sameFinding_iff {d e : Diagnostic} : sameFinding d e = true ↔ finding d = finding e := by
  rw [sameFinding, beq_iff_eq]
  refine ⟨findingKey_inj, fun same => ?_⟩
  obtain ⟨code, place⟩ := Prod.mk.inj same
  rw [findingKey, findingKey, code, place]

/-- Of two diagnostics that report one finding the graver comes first. -/
theorem rank_le_iff {d e : Diagnostic} (same : finding d = finding e) :
    rank d ≤ rank e ↔ e.severity.rank ≤ d.severity.rank := by
  obtain ⟨code, place⟩ := Prod.mk.inj same
  simp only [rank, Prod.Lex.toLex_le_toLex, OrderDual.toDual_lt_toDual, OrderDual.toDual_inj, code,
    place, lt_irrefl, true_and, false_or, le_refl, and_true]
  omega

/-! ## Repetitions -/

theorem mem_dedupItems_iff {ds : List Diagnostic} {d : Diagnostic} :
    d ∈ dedupItems ds ↔
      ∃ before after, ds = before ++ d :: after ∧ ∀ e ∈ before, finding e ≠ finding d := by
  induction ds with
  | nil => simp [dedupItems]
  | cons a rest ih =>
    rw [dedupItems, List.mem_cons, List.mem_filter, ih, Bool.not_eq_true', ← Bool.not_eq_true,
      sameFinding_iff]
    constructor
    · rintro (rfl | ⟨⟨before, after, rfl, first⟩, other⟩)
      · exact ⟨[], rest, rfl, fun e he => absurd he List.not_mem_nil⟩
      · exact ⟨a :: before, after, rfl, List.forall_mem_cons.mpr ⟨other, first⟩⟩
    · rintro ⟨before, after, split, first⟩
      cases before with
      | nil => exact .inl (List.cons_eq_cons.mp split).1.symm
      | cons b before =>
        obtain ⟨rfl, rfl⟩ := List.cons_eq_cons.mp split
        obtain ⟨other, first⟩ := List.forall_mem_cons.mp first
        exact .inr ⟨⟨before, after, rfl, first⟩, other⟩

theorem dedupItems_sublist (ds : List Diagnostic) : (dedupItems ds).Sublist ds := by
  induction ds with
  | nil => exact List.Sublist.refl _
  | cons a rest ih => exact (List.filter_sublist.trans ih).cons_cons a

/-- No finding is left twice. -/
theorem nodup_dedupItems (ds : List Diagnostic) : ((dedupItems ds).map finding).Nodup := by
  induction ds with
  | nil => exact List.nodup_nil
  | cons a rest ih =>
    rw [dedupItems, List.map_cons, List.nodup_cons]
    refine ⟨fun again => ?_, ih.sublist (List.filter_sublist.map finding)⟩
    obtain ⟨e, he, same⟩ := List.mem_map.mp again
    have other := (List.mem_filter.mp he).2
    rw [Bool.not_eq_true', ← Bool.not_eq_true, sameFinding_iff] at other
    exact other same.symm

/-- No finding is lost. -/
theorem mem_findings_dedupItems {ds : List Diagnostic} {f : Code × Span} :
    f ∈ (dedupItems ds).map finding ↔ f ∈ ds.map finding := by
  induction ds with
  | nil => exact Iff.rfl
  | cons a rest ih =>
    rw [dedupItems, List.map_cons, List.mem_cons, List.map_cons, List.mem_cons, ← ih]
    by_cases first : f = finding a
    · simp [first]
    · refine or_congr_right ⟨fun mem => (List.filter_sublist.map finding).subset mem, fun mem => ?_⟩
      obtain ⟨e, he, rfl⟩ := List.mem_map.mp mem
      refine List.mem_map_of_mem (List.mem_filter.mpr ⟨he, ?_⟩)
      rw [Bool.not_eq_true', ← Bool.not_eq_true, sameFinding_iff]
      exact fun same => first same.symm

theorem dedupItems_of_nodup {ds : List Diagnostic} (nodup : (ds.map finding).Nodup) :
    dedupItems ds = ds := by
  induction ds with
  | nil => rfl
  | cons a rest ih =>
    rw [List.map_cons, List.nodup_cons] at nodup
    rw [dedupItems, ih nodup.2, List.filter_eq_self.mpr]
    intro e he
    rw [Bool.not_eq_true', ← Bool.not_eq_true, sameFinding_iff]
    exact fun same => nodup.1 (same ▸ List.mem_map_of_mem he)

/-! ## Canonical diagnostics -/

/-- Among those that report its finding, the diagnostic is the gravest, and of equally grave ones
the first. -/
def Canonical (ds : List Diagnostic) (d : Diagnostic) : Prop :=
  ∃ before after, ds = before ++ d :: after ∧
    (∀ e ∈ before, finding e = finding d → e.severity.rank < d.severity.rank) ∧
    ∀ e ∈ after, finding e = finding d → e.severity.rank ≤ d.severity.rank

theorem Canonical.unique {ds : List Diagnostic} {d e : Diagnostic} (hd : Canonical ds d)
    (he : Canonical ds e) (same : finding d = finding e) : d = e := by
  obtain ⟨before, after, rfl, graver, atLeast⟩ := hd
  obtain ⟨before', after', split, graver', atLeast'⟩ := he
  -- the one that comes first is at least as grave, the other one strictly graver
  rcases List.append_eq_append_iff.mp split with ⟨between, rfl, behind⟩ | ⟨between, rfl, behind⟩
  · cases between with
    | nil => exact (List.cons_eq_cons.mp behind).1
    | cons b between =>
      obtain ⟨rfl, rfl⟩ := List.cons_eq_cons.mp behind
      have less := graver' d (by simp) same
      have more := atLeast e (by simp) same.symm
      omega
  · cases between with
    | nil => exact (List.cons_eq_cons.mp behind).1.symm
    | cons b between =>
      obtain ⟨rfl, rfl⟩ := List.cons_eq_cons.mp behind
      have less := graver e (by simp) same.symm
      have more := atLeast' d (by simp) same
      omega

/-- What is left of a sorted bag is canonical in the bag as it was before. -/
theorem canonical_of_mem {b : Bag} {d : Diagnostic} (h : d ∈ b.sort.dedup.items) :
    Canonical b.items d := by
  obtain ⟨before, after, split, first⟩ := mem_dedupItems_iff.mp h
  -- no diagnostic of the finding is graver
  have most : ∀ e ∈ b.items, finding e = finding d → e.severity.rank ≤ d.severity.rank := by
    intro e he same
    have mem : e ∈ before ++ d :: after := split ▸ b.sort_perm.mem_iff.mpr he
    rcases List.mem_append.mp mem with earlier | later
    · exact absurd same (first e earlier)
    · rcases List.mem_cons.mp later with rfl | later
      · exact Nat.le_refl _
      · have sorted := b.sort_sorted
        rw [split, List.pairwise_append] at sorted
        exact (rank_le_iff same.symm).mp (List.rel_of_pairwise_cons sorted.2.1 later)
  -- those that tie with it stand in their old order, so it is the first of them there, too
  let ties (e : Diagnostic) : Bool :=
    decide (finding e = finding d ∧ e.severity.rank = d.severity.rank)
  have kept : b.sort.items.filter ties = b.items.filter ties := by
    refine b.filter_sort fun e e' he he' => ?_
    obtain ⟨same, rank⟩ := of_decide_eq_true he
    obtain ⟨same', rank'⟩ := of_decide_eq_true he'
    exact (rank_le_iff (same.trans same'.symm)).mpr (rank'.trans rank.symm).le
  have head : b.sort.items.filter ties = d :: after.filter ties := by
    have none : before.filter ties = [] := by
      refine List.filter_eq_nil_iff.mpr fun e he tied => ?_
      exact first e he (of_decide_eq_true tied).1
    rw [split, List.filter_append, none, List.nil_append, List.filter_cons_of_pos (by simp [ties])]
  obtain ⟨earlier, later, split', untied, -, -⟩ :=
    List.filter_eq_cons_iff.mp (kept.symm.trans head)
  refine ⟨earlier, later, split', fun e he same => ?_, fun e he same => ?_⟩
  · refine Nat.lt_of_le_of_ne (most e (by simp [split', he]) same) fun rank => ?_
    exact untied e he (decide_eq_true ⟨same, rank⟩)
  · exact most e (by simp [split', he]) same

theorem mem_findings_dedup (b : Bag) {f : Code × Span} :
    f ∈ b.sort.dedup.items.map finding ↔ f ∈ b.items.map finding :=
  mem_findings_dedupItems.trans (b.sort_perm.map finding).mem_iff

/-- What is left of a sorted bag is exactly what is canonical in it. -/
theorem mem_sort_dedup_iff {b : Bag} {d : Diagnostic} :
    d ∈ b.sort.dedup.items ↔ Canonical b.items d := by
  refine ⟨canonical_of_mem, fun canonical => ?_⟩
  have mem : d ∈ b.items := by
    obtain ⟨before, after, split, -⟩ := canonical
    simp [split]
  obtain ⟨e, he, same⟩ := List.mem_map.mp (b.mem_findings_dedup.mpr (List.mem_map_of_mem mem))
  rwa [canonical.unique (canonical_of_mem he) same.symm]

theorem sort_dedup_sorted (b : Bag) :
    b.sort.dedup.items.Pairwise fun d e => rank d ≤ rank e :=
  b.sort_sorted.sublist (dedupItems_sublist _)

/-- A bag that is sorted and has no repetitions stays as it is. -/
theorem sort_dedup_idem (b : Bag) : b.sort.dedup.sort.dedup = b.sort.dedup := by
  have sorted : b.sort.dedup.sort = b.sort.dedup := by
    have ranks := b.sort_dedup_sorted.imp ranksBefore_iff.mpr
    rw [sort, List.mergeSort_of_pairwise ranks]
  have kept : dedupItems b.sort.dedup.items = b.sort.dedup.items :=
    dedupItems_of_nodup (nodup_dedupItems _)
  rw [sorted]
  show { b.sort.dedup with items := dedupItems b.sort.dedup.items } = b.sort.dedup
  rw [kept]

/-! ## Limits -/

/-- What can be done with a bag. -/
inductive Step where
  | add (d : Diagnostic)
  | merge (other : Bag)
  | sort
  | dedup

/-- The bag behind a step. -/
def step (b : Bag) : Step → Bag
  | .add d => b.add d
  | .merge other => b.merge other
  | .sort => b.sort
  | .dedup => b.dedup

/-- The bag behind steps one after the other. -/
def run (b : Bag) (steps : List Step) : Bag := steps.foldl step b

/-- The bag has no limit, or holds no more than its limit. -/
def Within (b : Bag) : Prop := b.limit ≤ 0 ∨ (b.items.length : Int) ≤ b.limit

theorem within_step {b : Bag} (h : b.Within) (s : Step) : (b.step s).Within := by
  cases s with
  | add d =>
    show (b.add d).Within
    unfold add isFull
    split
    · exact h
    · next room =>
      simp only [Bool.and_eq_true, decide_eq_true_eq, not_and, Int.not_le] at room
      simp only [Within, List.length_append, List.length_singleton]
      omega
  | merge other =>
    simp only [step, merge, Within, List.length_append, Bool.and_eq_true, decide_eq_true_eq]
    split <;> omega
  | sort =>
    rwa [step, Within, b.sort_perm.length_eq]
  | dedup =>
    have shorter := (dedupItems_sublist b.items).length_le
    exact h.imp_right fun fits => (Int.ofNat_le.mpr shorter).trans fits

theorem within_run {b : Bag} (h : b.Within) (steps : List Step) : (b.run steps).Within := by
  induction steps generalizing b with
  | nil => exact h
  | cons s rest ih => exact ih (within_step h s)

/-- A positive limit stays positive. -/
theorem limit_run {b : Bag} (h : 0 < b.limit) (steps : List Step) : 0 < (b.run steps).limit := by
  induction steps generalizing b with
  | nil => exact h
  | cons s rest ih =>
    refine ih ?_
    cases s with
    | add d =>
      show 0 < (b.add d).limit
      unfold add
      split <;> exact h
    | merge other =>
      simp only [step, merge, Bool.and_eq_true, decide_eq_true_eq]
      split <;> omega
    | sort | dedup => exact h

/-- A bag that is sorted and rid of repetitions is in order, and for each finding in it before it
holds one diagnostic, which is the gravest that reports it and of equally grave ones the first.
Doing so again changes nothing. And whatever is done with a new bag, it never holds more than its
limit at that time, and a limit that is positive stays so. -/
theorem shows_canonical (b : Bag) :
    (b.sort.dedup.items.Pairwise fun d e => rank d ≤ rank e) ∧
      (b.sort.dedup.items.map finding).Nodup ∧
      (∀ f, f ∈ b.sort.dedup.items.map finding ↔ f ∈ b.items.map finding) ∧
      (∀ d, d ∈ b.sort.dedup.items ↔ Canonical b.items d) ∧
      b.sort.dedup.sort.dedup = b.sort.dedup ∧
      ∀ (limit : Int) (steps : List Step), 0 < limit →
        0 < ((new limit).run steps).limit ∧
          (((new limit).run steps).items.length : Int) ≤ ((new limit).run steps).limit := by
  refine ⟨b.sort_dedup_sorted, nodup_dedupItems _, fun _ => b.mem_findings_dedup,
    fun _ => mem_sort_dedup_iff, b.sort_dedup_idem, fun limit steps positive => ?_⟩
  have kept : 0 < ((new limit).run steps).limit := limit_run positive steps
  have start : (new limit).Within := .inr positive.le
  exact ⟨kept, (within_run start steps).resolve_left (Int.not_le.mpr kept)⟩

theorem shows_canonical_thrice :
    let first := Diagnostic.ofError .unexpectedToken ⟨0, 4, 5⟩ "expected a name"
    let second := Diagnostic.ofError .unexpectedToken ⟨0, 4, 5⟩ "expected a type"
    let lenient := { first with severity := .warning }
    let steps := [Step.add lenient, .merge ⟨1, [first, second]⟩, .dedup, .add second]
    let b : Bag := ⟨3, [lenient, first, second]⟩
    first ∈ b.sort.dedup.items ∧
      (0 : Int) < 2 ∧ (((new 2).run steps).items.length : Int) ≤ ((new 2).run steps).limit := by
  intro first second lenient steps b
  have canonical : Canonical b.items first := by
    refine ⟨[lenient], [second], rfl, ?_, ?_⟩
    · exact List.forall_mem_singleton.mpr fun _ => by decide
    · exact List.forall_mem_singleton.mpr fun _ => by decide
  have shown := shows_canonical b
  exact ⟨(shown.2.2.2.1 first).mpr canonical, by decide,
    (shown.2.2.2.2.2 2 steps (by decide)).2⟩

end CircuitCompiler.Bag
