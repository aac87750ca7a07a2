import CircuitCompiler.Notation.Pattern
import CircuitCompiler.Proofs.Numbering

/-!
# Matches of patterns

A pattern is matched by computing all places where a match can end. Here a match is a relation
between two places of a text, given by the shape of the pattern, and the places that are computed
are those the relation has. For a repetition this takes as many rounds as the text has places:
either a round finds nothing new, or all places are found.

* `Pattern.Matches`: from where to where a pattern matches;
* `Pattern.mem_ends_iff`: the places that are computed;
* `Pattern.isIn_iff`: a text has a match;
* `Pattern.run_iff`: the texts of a set of characters.
-/

namespace CircuitCompiler.Notation.Pattern

open Relation

/-- In a text, a pattern matches what stands between two places. -/
inductive Matches (cs : List Char) : Pattern → Nat → Nat → Prop
  | empty (i : Nat) : Matches cs .empty i i
  | char {s : CharSet} {i : Nat} {c : Char} (here : cs[i]? = some c)
      (inside : s.contains c = true) : Matches cs (.char s) i (i + 1)
  | start : Matches cs .start 0 0
  | finish : Matches cs .finish cs.length cs.length
  | edge {present : Bool} {i : Nat} (here : isEdge cs i = present) : Matches cs (.edge present) i i
  | sequence {a b : Pattern} {i j k : Nat} (first : Matches cs a i j) (second : Matches cs b j k) :
      Matches cs (.sequence a b) i k
  | left {a b : Pattern} {i k : Nat} (h : Matches cs a i k) : Matches cs (.either a b) i k
  | right {a b : Pattern} {i k : Nat} (h : Matches cs b i k) : Matches cs (.either a b) i k
  | none {p : Pattern} (i : Nat) : Matches cs (.many p) i i
  | more {p : Pattern} {i j k : Nat} (first : Matches cs p i j) (later : Matches cs (.many p) j k) :
      Matches cs (.many p) i k

/-! ## Repetition -/

section Reach

variable {step : Nat → List Nat}

theorem reach_succ (n : Nat) (reached : List Nat) :
    reach step (n + 1) reached =
      if ((reached.flatMap step ++ reached).eraseDups.length == reached.length) = true then reached
      else reach step n (reached.flatMap step ++ reached).eraseDups := rfl

/-- The places of a round: those that one more step reaches, and those before. -/
theorem mem_round {reached : List Nat} {k : Nat} :
    k ∈ (reached.flatMap step ++ reached).eraseDups ↔
      (∃ i ∈ reached, k ∈ step i) ∨ k ∈ reached := by
  rw [List.mem_eraseDups, List.mem_append, List.mem_flatMap]

theorem reach_subset (n : Nat) : ∀ reached, reached ⊆ reach step n reached := by
  induction n with
  | zero => exact fun reached k mem => mem
  | succ n ih =>
    intro reached k mem
    rw [reach_succ]
    split
    · exact mem
    · exact ih _ (mem_round.mpr (.inr mem))

/-- What is found is reached by steps. -/
theorem reach_sound (n : Nat) : ∀ reached k, k ∈ reach step n reached →
    ∃ i ∈ reached, ReflTransGen (fun i k => k ∈ step i) i k := by
  induction n with
  | zero => exact fun reached k mem => ⟨k, mem, .refl⟩
  | succ n ih =>
    intro reached k mem
    rw [reach_succ] at mem
    split at mem
    · exact ⟨k, mem, .refl⟩
    · obtain ⟨j, round, way⟩ := ih _ k mem
      rcases mem_round.mp round with ⟨i, before, next⟩ | before
      · exact ⟨i, before, .head next way⟩
      · exact ⟨j, before, way⟩

/-- Where there are `m` places and a round for each that is not yet reached, what is found is closed
under steps. -/
theorem reach_closed {m : Nat} (bounded : ∀ i < m, ∀ k ∈ step i, k < m) (n : Nat) :
    ∀ reached, reached.Nodup → (∀ i ∈ reached, i < m) → m ≤ reached.length + n →
      ∀ i ∈ reach step n reached, ∀ k ∈ step i, k ∈ reach step n reached := by
  induction n with
  | zero =>
    intro reached distinct inside rounds i mem k next
    -- all places are reached
    have all : reached.Perm (List.range m) := by
      refine (distinct.subperm fun j hj => List.mem_range.mpr (inside j hj)).perm_of_length_le ?_
      rw [List.length_range]
      exact rounds
    exact all.mem_iff.mpr (List.mem_range.mpr (bounded i (inside i mem) k next))
  | succ n ih =>
    intro reached distinct inside rounds i mem k next
    have behind : reached.Subperm (reached.flatMap step ++ reached).eraseDups :=
      distinct.subperm fun j hj => mem_round.mpr (.inr hj)
    rw [reach_succ] at mem ⊢
    split at mem
    · next still =>
      -- the round has found nothing, so its places are the old ones
      rw [if_pos still]
      have same := behind.perm_of_length_le (Nat.le_of_eq (eq_of_beq still))
      exact same.mem_iff.mpr (mem_round.mpr (.inl ⟨i, mem, next⟩))
    · next grown =>
      rw [if_neg grown]
      have longer := lt_of_le_of_ne behind.length_le fun same => grown (by simp [← same])
      refine ih _ (Design.nodup_eraseDups _) ?_ (by omega) i mem k next
      intro j round
      rcases mem_round.mp round with ⟨i, before, next⟩ | before
      · exact bounded i (inside i before) j next
      · exact inside j before

/-- With a round for each place, the places found are those that steps reach. -/
theorem mem_reach_iff {m i k : Nat} (bounded : ∀ i < m, ∀ k ∈ step i, k < m) (inside : i < m) :
    k ∈ reach step m [i] ↔ ReflTransGen (fun i k => k ∈ step i) i k := by
  constructor
  · intro mem
    obtain ⟨j, start, way⟩ := reach_sound m [i] k mem
    rwa [List.mem_singleton.mp start] at way
  · intro way
    induction way with
    | refl => exact reach_subset m [i] List.mem_cons_self
    | tail _ next ih =>
      refine reach_closed bounded m [i] (List.nodup_singleton i) ?_ (by simp) _ ih _ next
      exact List.forall_mem_singleton.mpr inside

end Reach

section Shapes

variable {cs : List Char} {a b p : Pattern} {i k : Nat}

theorem matches_empty_iff : Matches cs .empty i k ↔ k = i :=
  ⟨fun | .empty _ => rfl, fun | rfl => .empty _⟩

theorem matches_char_iff {s : CharSet} :
    Matches cs (.char s) i k ↔ (∃ c, cs[i]? = some c ∧ s.contains c = true) ∧ k = i + 1 :=
  ⟨fun | .char here inside => ⟨⟨_, here, inside⟩, rfl⟩,
    fun ⟨⟨_, here, inside⟩, next⟩ => next ▸ .char here inside⟩

theorem matches_start_iff : Matches cs .start i k ↔ i = 0 ∧ k = i := by
  constructor
  · rintro ⟨⟩
    exact ⟨rfl, rfl⟩
  · rintro ⟨rfl, rfl⟩
    exact .start

theorem matches_finish_iff : Matches cs .finish i k ↔ i = cs.length ∧ k = i := by
  constructor
  · rintro ⟨⟩
    exact ⟨rfl, rfl⟩
  · rintro ⟨rfl, rfl⟩
    exact .finish

theorem matches_edge_iff {present : Bool} :
    Matches cs (.edge present) i k ↔ isEdge cs i = present ∧ k = i :=
  ⟨fun | .edge here => ⟨here, rfl⟩, fun | ⟨here, rfl⟩ => .edge here⟩

theorem matches_sequence_iff :
    Matches cs (.sequence a b) i k ↔ ∃ j, Matches cs a i j ∧ Matches cs b j k :=
  ⟨fun | .sequence first second => ⟨_, first, second⟩,
    fun | ⟨_, first, second⟩ => .sequence first second⟩

theorem matches_either_iff :
    Matches cs (.either a b) i k ↔ Matches cs a i k ∨ Matches cs b i k :=
  ⟨fun | .left h => .inl h | .right h => .inr h, fun | .inl h => .left h | .inr h => .right h⟩

theorem matches_many_iff : Matches cs (.many p) i k ↔ ReflTransGen (Matches cs p) i k := by
  constructor
  · intro h
    generalize same : Pattern.many p = q at h
    induction h with
    | none i => exact .refl
    | more first _ _ ih =>
      cases same
      exact .head first (ih rfl)
    | _ => cases same
  · intro way
    induction way using ReflTransGen.head_induction_on with
    | refl => exact .none k
    | head first _ ih => exact .more first ih

end Shapes

/-! ## The places that are computed -/

theorem le_of_way {cs : List Char} {p : Pattern} {i k : Nat}
    (bounded : ∀ i ≤ cs.length, ∀ k ∈ ends cs p i, k ≤ cs.length) (inside : i ≤ cs.length)
    (way : ReflTransGen (fun i k => k ∈ ends cs p i) i k) : k ≤ cs.length := by
  induction way with
  | refl => exact inside
  | tail _ next before => exact bounded _ before _ next

/-- A match ends inside the text. -/
theorem ends_le {cs : List Char} (p : Pattern) :
    ∀ i ≤ cs.length, ∀ k ∈ ends cs p i, k ≤ cs.length := by
  induction p with
  | empty =>
    intro i inside k mem
    rwa [List.mem_singleton.mp mem]
  | start | finish | edge =>
    intro i inside k mem
    unfold ends at mem
    split at mem
    · rwa [List.mem_singleton.mp mem]
    · cases mem
  | char s =>
    intro i _ k mem
    unfold ends at mem
    split at mem
    · next here =>
      obtain ⟨c, found, -⟩ := (Option.any_eq_true _ _).mp here
      obtain ⟨inside, -⟩ := List.getElem?_eq_some_iff.mp found
      rwa [List.mem_singleton.mp mem]
    · cases mem
  | sequence a b first second =>
    intro i inside k mem
    rw [ends, List.mem_eraseDups, List.mem_flatMap] at mem
    obtain ⟨j, mem, later⟩ := mem
    exact second j (first i inside j mem) k later
  | either a b left right =>
    intro i inside k mem
    rw [ends, List.mem_eraseDups, List.mem_append] at mem
    exact mem.elim (left i inside k) (right i inside k)
  | many p ih =>
    intro i inside k mem
    obtain ⟨j, start, way⟩ := reach_sound _ _ k mem
    rw [List.mem_singleton.mp start] at way
    exact le_of_way ih inside way

/-- The places where a match can end are those up to which the pattern matches. -/
theorem mem_ends_iff {cs : List Char} (p : Pattern) :
    ∀ i ≤ cs.length, ∀ k, k ∈ ends cs p i ↔ Matches cs p i k := by
  induction p with
  | empty =>
    intro i _ k
    rw [ends, List.mem_singleton, matches_empty_iff]
  | char s =>
    intro i _ k
    rw [ends, List.mem_ite_nil_right, List.mem_singleton, Option.any_eq_true, matches_char_iff]
  | start =>
    intro i _ k
    rw [ends, List.mem_ite_nil_right, List.mem_singleton, beq_iff_eq, matches_start_iff]
  | finish =>
    intro i _ k
    rw [ends, List.mem_ite_nil_right, List.mem_singleton, beq_iff_eq, matches_finish_iff]
  | edge present =>
    intro i _ k
    rw [ends, List.mem_ite_nil_right, List.mem_singleton, beq_iff_eq, matches_edge_iff]
  | sequence a b first second =>
    intro i inside k
    rw [ends, List.mem_eraseDups, List.mem_flatMap, matches_sequence_iff]
    refine exists_congr fun j => ?_
    rw [first i inside j]
    refine and_congr_right fun here => second j (ends_le a i inside j ?_) k
    exact (first i inside j).mpr here
  | either a b left right =>
    intro i inside k
    rw [ends, List.mem_eraseDups, List.mem_append, left i inside k, right i inside k,
      matches_either_iff]
  | many p ih =>
    intro i inside k
    have bounded : ∀ i < cs.length + 1, ∀ k ∈ ends cs p i, k < cs.length + 1 :=
      fun i inside k mem => Nat.lt_succ_of_le (ends_le p i (Nat.le_of_lt_succ inside) k mem)
    rw [ends, mem_reach_iff bounded (Nat.lt_succ_of_le inside), matches_many_iff]
    -- the steps stay inside the text, where those computed are those of the pattern
    constructor
    · intro way
      induction way with
      | refl => exact .refl
      | tail before next steps =>
        exact steps.tail ((ih _ (le_of_way (ends_le p) inside before) _).mp next)
    · intro way
      induction way with
      | refl => exact .refl
      | tail _ next before =>
        exact before.tail ((ih _ (le_of_way (ends_le p) inside before) _).mpr next)

/-- A text has a match where the pattern matches between two of its places. -/
theorem isIn_iff {p : Pattern} {text : String} :
    p.isIn text = true ↔ ∃ i ≤ text.toList.length, ∃ k, Matches text.toList p i k := by
  have found : ∀ places : List Nat, (!places.isEmpty) = true ↔ ∃ k, k ∈ places := by
    intro places
    rw [Bool.not_eq_true', List.isEmpty_eq_false_iff_exists_mem]
  simp only [isIn, List.any_eq_true, List.mem_range, Nat.lt_succ_iff, found,
    String.length_toList]
  refine exists_congr fun i => and_congr_right fun inside => exists_congr fun k => ?_
  exact mem_ends_iff p i (by rwa [String.length_toList]) k

/-- A text has a match of a pattern that is given by its own text. -/
def IsLike (pattern text : String) : Prop :=
  ∃ p, parse? pattern = some p ∧ ∃ i ≤ text.toList.length, ∃ k, Matches text.toList p i k

/-! ## Patterns of whole texts -/

/-- A set is repeated up to the end of a text where all that is left is of the set. -/
theorem matches_run_iff {cs : List Char} {i : Nat} {s : CharSet} (inside : i ≤ cs.length) :
    Matches cs (.many (.char s)) i cs.length ↔ ∀ c ∈ cs.drop i, s.contains c = true := by
  constructor
  · rw [matches_many_iff]
    intro way
    clear inside
    induction way using ReflTransGen.head_induction_on with
    | refl => simp
    | head first _ ih =>
      obtain ⟨⟨c, here, mem⟩, rfl⟩ := matches_char_iff.mp first
      obtain ⟨less, rfl⟩ := List.getElem?_eq_some_iff.mp here
      rw [List.drop_eq_getElem_cons less, List.forall_mem_cons]
      exact ⟨mem, ih⟩
  · -- on what is left
    intro all
    induction left : cs.drop i generalizing i with
    | nil =>
      have last : i = cs.length := Nat.le_antisymm inside (List.drop_eq_nil_iff.mp left)
      subst last
      exact .none _
    | cons c rest ih =>
      have less : i < cs.length := by
        refine lt_of_le_of_ne inside fun last => ?_
        rw [last, List.drop_length] at left
        cases left
      have split := List.drop_eq_getElem_cons less
      rw [split] at all left
      obtain ⟨rfl, rest'⟩ := List.cons.inj left
      obtain ⟨mem, later⟩ := List.forall_mem_cons.mp all
      exact .more (.char (List.getElem?_eq_getElem less) mem) (ih less later rest')

/-- The text is a character of one set, then characters of another. -/
def Heads (first others : CharSet) (text : String) : Prop :=
  ∃ c rest, text.toList = c :: rest ∧ first.contains c = true ∧
    ∀ x ∈ rest, others.contains x = true

theorem heads_iff {first others : CharSet} {text : String} :
    Heads first others text ↔
      (∃ c, text.toList[0]? = some c ∧ first.contains c = true) ∧
        Matches text.toList (.many (.char others)) 1 text.toList.length := by
  unfold Heads
  cases text.toList with
  | nil => simp
  | cons c rest =>
    rw [matches_run_iff (by simp)]
    simp

end CircuitCompiler.Notation.Pattern
