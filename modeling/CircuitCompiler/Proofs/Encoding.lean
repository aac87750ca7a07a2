import CircuitCompiler.Proofs.Keys
import CircuitCompiler.Proofs.Schema

/-!
# The byte string of a key

The byte string that a key is a digest of is the content followed by one record for each dependency,
in the order of the names. A record starts with the length of its name, so where it ends is told by
its front, and a string of records is read back in one way only. The order in which dependencies are
given does not show, as different names have one order.

* `Key.dependencyBytes_append_inj`: the front of a byte string determines its first record;
* `Key.dependencies_inj`: a byte string determines the records it is made of;
* `Key.sortDependencies_eq_iff`: what sorting keeps of dependencies;
* `Key.combine_eq_iff`: when keys are equal.
-/

namespace CircuitCompiler

/-- Four bytes determine a 32-bit number. -/
theorem Digest.littleEndian32_inj {m n : Nat} (hm : m < 2 ^ 32) (hn : n < 2 ^ 32)
    (h : littleEndian32 m = littleEndian32 n) : m = n := by
  simp only [littleEndian32, List.cons.injEq, and_true] at h
  obtain ⟨b0, b1, b2, b3⟩ := h
  have b0 := congrArg UInt8.toNat b0
  have b1 := congrArg UInt8.toNat b1
  have b2 := congrArg UInt8.toNat b2
  have b3 := congrArg UInt8.toNat b3
  simp only [UInt8.toNat_ofNat'] at b0 b1 b2 b3
  omega

namespace Key

variable {ds ds' : List Dependency}

/-- The length of the name fits into its four bytes. -/
def IsShort (d : Dependency) : Prop := (Bytes.ofString d.name).length < 2 ^ 32

instance (d : Dependency) : Decidable (IsShort d) :=
  inferInstanceAs (Decidable ((Bytes.ofString d.name).length < 2 ^ 32))

/-! ## Records -/

/-- The front of a byte string determines the record that it starts with, and so where the rest
starts. -/
theorem dependencyBytes_append_inj {d d' : Dependency} {rest rest' : Bytes} (short : IsShort d)
    (short' : IsShort d') (h : dependencyBytes d ++ rest = dependencyBytes d' ++ rest') :
    d = d' ∧ rest = rest' := by
  simp only [dependencyBytes, List.append_assoc] at h
  obtain ⟨lengths, h⟩ := List.append_inj h rfl
  have lengths := Digest.littleEndian32_inj short short' lengths
  obtain ⟨names, h⟩ := List.append_inj h lengths
  obtain ⟨keys, rests⟩ := List.append_inj h (d.key.size.trans d'.key.size.symm)
  refine ⟨?_, rests⟩
  cases d
  cases d'
  cases Bytes.ofString_injective names
  cases digest_ext keys
  rfl

theorem dependencyBytes_ne_nil (d : Dependency) (rest : Bytes) : dependencyBytes d ++ rest ≠ [] := by
  intro empty
  have length := congrArg List.length empty
  rw [List.length_append, length_dependencyBytes] at length
  simp at length

/-- The records one behind the other determine the dependencies. -/
theorem dependencies_inj (short : ∀ d ∈ ds, IsShort d) (short' : ∀ d ∈ ds', IsShort d)
    (h : ds.flatMap dependencyBytes = ds'.flatMap dependencyBytes) : ds = ds' := by
  induction ds generalizing ds' with
  | nil =>
    cases ds' with
    | nil => rfl
    | cons d' rest' => exact absurd h.symm (dependencyBytes_ne_nil d' _)
  | cons d rest ih =>
    cases ds' with
    | nil => exact absurd h (dependencyBytes_ne_nil d _)
    | cons d' rest' =>
      obtain ⟨here, later⟩ := List.forall_mem_cons.mp short
      obtain ⟨here', later'⟩ := List.forall_mem_cons.mp short'
      rw [List.flatMap_cons, List.flatMap_cons] at h
      obtain ⟨rfl, behind⟩ := dependencyBytes_append_inj here here' h
      rw [ih later later' behind]

/-! ## Order -/

theorem sortDependencies_of_nodup (once : (ds.map (·.name)).Nodup) :
    sortDependencies ds = ds.mergeSort fun a b => nameLe a.name b.name :=
  if_pos (.inr once)

theorem sortDependencies_perm (once : (ds.map (·.name)).Nodup) : (sortDependencies ds).Perm ds := by
  rw [sortDependencies_of_nodup once]
  exact List.mergeSort_perm _ _

theorem sortDependencies_sorted (once : (ds.map (·.name)).Nodup) :
    (sortDependencies ds).Pairwise fun a b => a.name ≤ b.name := by
  rw [sortDependencies_of_nodup once]
  refine (List.pairwise_mergeSort (fun a b c hab hbc => ?_) (fun a b => ?_) ds).imp fun le => ?_
  · simp only [nameLe, decide_eq_true_eq] at *
    exact String.le_trans hab hbc
  · simp only [nameLe, Bool.or_eq_true, decide_eq_true_eq]
    exact String.le_total a.name b.name
  · simpa [nameLe] using le

/-- Sorting dependencies with different names forgets their order and nothing else. -/
theorem sortDependencies_eq_iff (once : (ds.map (·.name)).Nodup)
    (once' : (ds'.map (·.name)).Nodup) :
    sortDependencies ds = sortDependencies ds' ↔ ds.Perm ds' := by
  constructor
  · intro same
    exact (sortDependencies_perm once).symm.trans (same ▸ sortDependencies_perm once')
  · intro perm
    have sorted := ((sortDependencies_perm once).trans perm).trans (sortDependencies_perm once').symm
    refine sorted.eq_of_pairwise (fun a b ha hb le le' => ?_) (sortDependencies_sorted once)
      (sortDependencies_sorted once')
    -- both stand among the same dependencies, of which the name leaves only one
    exact List.inj_on_of_nodup_map once' (perm.mem_iff.mp ((sortDependencies_perm once).mem_iff.mp ha))
      ((sortDependencies_perm once').mem_iff.mp hb) (String.le_antisymm le le')

/-! ## Keys -/

/-- As far as the digest keeps the two byte strings apart, keys are equal exactly if the contents
are equal and the dependencies are the same up to their order. -/
theorem combine_eq_iff {content content' : Digest} (once : (ds.map (·.name)).Nodup)
    (once' : (ds'.map (·.name)).Nodup) (short : ∀ d ∈ ds, IsShort d)
    (short' : ∀ d ∈ ds', IsShort d)
    (apart : Set.InjOn Digest.ofBytes {combinedBytes content ds, combinedBytes content' ds'}) :
    combine content ds = combine content' ds' ↔ content = content' ∧ ds.Perm ds' := by
  constructor
  · intro same
    have bytes := apart (Set.mem_insert _ _) (Set.mem_insert_of_mem _ rfl) same
    obtain ⟨contents, records⟩ := combinedBytes_inj bytes
    have sorted := dependencies_inj
      (fun d mem => short d ((sortDependencies_perm once).mem_iff.mp mem))
      (fun d mem => short' d ((sortDependencies_perm once').mem_iff.mp mem)) records
    exact ⟨contents, (sortDependencies_eq_iff once once').mp sorted⟩
  · rintro ⟨rfl, perm⟩
    rw [combine, combine, combinedBytes, combinedBytes, (sortDependencies_eq_iff once once').mpr perm]

/-- A dependency with the key of zeros. -/
def named (name : String) : Dependency := ⟨name, .zero⟩

/-- Names that are the same one behind the other make other keys if they part elsewhere, and the
order of the dependencies does not show. -/
theorem combine_eq_iff_parted :
    combine .zero [named "ab", named "c"] ≠ combine .zero [named "a", named "bc"] ∧
      combine .zero [named "ab", named "c"] = combine .zero [named "c", named "ab"] := by
  have short : ∀ d ∈ [named "ab", named "c"], IsShort d := of_decide_eq_true (by cbv)
  have bytes : combinedBytes .zero [named "ab", named "c"] =
      List.replicate 32 0 ++ [2, 0, 0, 0, 97, 98] ++ List.replicate 32 0 ++ [1, 0, 0, 0, 99] ++
        List.replicate 32 0 := by cbv
  have bytes' : combinedBytes .zero [named "a", named "bc"] =
      List.replicate 32 0 ++ [1, 0, 0, 0, 97] ++ List.replicate 32 0 ++ [2, 0, 0, 0, 98, 99] ++
        List.replicate 32 0 := by cbv
  constructor
  · have apart : Set.InjOn Digest.ofBytes {combinedBytes .zero [named "ab", named "c"],
        combinedBytes .zero [named "a", named "bc"]} := by
      have digest : (Digest.ofBytes (combinedBytes .zero [named "ab", named "c"])).bytes.head? =
          some 0x39 := by
        rw [bytes]
        decide +kernel
      have digest' : (Digest.ofBytes (combinedBytes .zero [named "a", named "bc"])).bytes.head? =
          some 0xd9 := by
        rw [bytes']
        decide +kernel
      have digests : Digest.ofBytes (combinedBytes .zero [named "ab", named "c"]) ≠
          Digest.ofBytes (combinedBytes .zero [named "a", named "bc"]) := by
        intro same
        rw [same, digest'] at digest
        cases digest
      rintro m (rfl | rfl) m' (rfl | rfl) same
      · rfl
      · exact absurd same digests
      · exact absurd same.symm digests
      · rfl
    rw [Ne, combine_eq_iff (by decide) (by decide) short (of_decide_eq_true (by cbv))
      apart]
    decide
  · have apart : Set.InjOn Digest.ofBytes {combinedBytes .zero [named "ab", named "c"],
        combinedBytes .zero [named "c", named "ab"]} := by
      have bytes : combinedBytes .zero [named "ab", named "c"] =
          combinedBytes .zero [named "c", named "ab"] := by cbv
      rw [bytes]
      simp
    exact (combine_eq_iff (by decide) (by decide) short (of_decide_eq_true (by cbv))
      apart).mpr ⟨rfl, by decide⟩

end Key
end CircuitCompiler
