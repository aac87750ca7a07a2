/-!
# Sorting by partition

A quicksort in place that looks for patterns: runs that are in order already are left as they are,
descending ones are turned around, and where the pivots divide badly a few elements are moved and in
the end a heap takes over. It is not stable, so elements that are equal come out in an order of its
own; digests that were taken of a sorted list depend on it.

Every step only swaps elements, so the result is a permutation of what was given. Positions are
counted from zero, and a range `a, b` ends before `b`.
-/

namespace CircuitCompiler.PatternSort

/-- Elements and their order. -/
structure Table (α : Type) where
  less : α → α → Bool
  items : Array α

namespace Table

variable {α : Type}

/-- The table with two elements swapped. -/
def swap (t : Table α) (i j : Nat) : Table α := { t with items := t.items.swapIfInBounds i j }

/-- Whether one element is less than another. -/
def below (t : Table α) (i j : Nat) : Bool :=
  match t.items[i]?, t.items[j]? with
  | some x, some y => t.less x y
  | _, _ => false

/-! ## Short ranges -/

/-- Moves the element at a position down to its place, not below `a`. -/
def sink (t : Table α) (a : Nat) : Nat → Table α
  | 0 => t
  | i + 1 => if a ≤ i && t.below (i + 1) i then (t.swap (i + 1) i).sink a i else t

/-- Moves the element before a position up to its place, over `fuel` elements at most. -/
def rise (t : Table α) : Nat → Nat → Table α
  | 0, _ => t
  | fuel + 1, i => if t.below i (i - 1) then (t.swap i (i - 1)).rise fuel (i + 1) else t

/-- Sorts a range by insertion. -/
def insertion (t : Table α) (a b : Nat) : Table α :=
  (List.range' (a + 1) (b - a - 1)).foldl (·.sink a ·) t

/-- The first position from `i` on, over `fuel` positions at most, where a condition fails. -/
def firstWithout (p : Nat → Bool) : Nat → Nat → Nat
  | 0, i => i
  | fuel + 1, i => if p i then firstWithout p fuel (i + 1) else i

/-- Sorts a range if at most `steps` elements are out of place; says whether it is sorted then. In
short ranges no element is moved. -/
def mend (t : Table α) (a b : Nat) : Nat → Nat → Table α × Bool
  | 0, _ => (t, false)
  | steps + 1, i =>
    let i := firstWithout (fun k => !t.below k (k - 1)) (b - i) i
    if i == b then (t, true)
    else if b - a < 50 then (t, false)
    else
      let t := t.swap i (i - 1)
      let t := if 2 ≤ i - a then t.sink 0 (i - 1) else t
      let t := if 2 ≤ b - i then t.rise (b - i - 1) (i + 1) else t
      t.mend a b steps i

/-! ## Heaps -/

/-- Moves an element of the heap of `size` elements behind `first` down to its place. -/
def siftDown (t : Table α) (first size : Nat) : Nat → Nat → Table α
  | 0, _ => t
  | fuel + 1, root =>
    let child := 2 * root + 1
    if size ≤ child then t
    else
      let child :=
        if child + 1 < size && t.below (first + child) (first + child + 1) then child + 1 else child
      if t.below (first + root) (first + child) then
        (t.swap (first + root) (first + child)).siftDown first size fuel child
      else t

/-- Sorts a range by a heap. -/
def heapSort (t : Table α) (a b : Nat) : Table α :=
  let size := b - a
  let roots := (List.range ((size - 1) / 2 + 1)).reverse
  let heap := roots.foldl (fun t i => t.siftDown a size size i) t
  (List.range size).reverse.foldl (fun t i => (t.swap a (a + i)).siftDown a i size 0) heap

/-! ## Pivots -/

/-- Three positions in the order of their elements, and how many swaps it takes beyond `swaps`: the
middle one. -/
def median (t : Table α) (i j k swaps : Nat) : Nat × Nat :=
  let (i, j, swaps) := if t.below j i then (j, i, swaps + 1) else (i, j, swaps)
  let (j, swaps) := if t.below k j then (k, swaps + 1) else (j, swaps)
  if t.below j i then (i, swaps + 1) else (j, swaps)

/-- The position of a pivot for a range, and how many swaps it took to find it. -/
def pivot (t : Table α) (a b : Nat) : Nat × Nat :=
  let quarter := (b - a) / 4
  let (i, j, k) := (a + quarter, a + 2 * quarter, a + 3 * quarter)
  if b - a < 50 then t.median i j k 0
  else
    let (i, swaps) := t.median (i - 1) i (i + 1) 0
    let (j, swaps) := t.median (j - 1) j (j + 1) swaps
    let (k, swaps) := t.median (k - 1) k (k + 1) swaps
    t.median i j k swaps

/-- The number of swaps that says that a range descends. -/
def descending : Nat := 12

/-- Turns a range around. -/
def turn (t : Table α) (a b : Nat) : Table α :=
  (List.range ((b - a) / 2)).foldl (fun t i => t.swap (a + i) (b - 1 - i)) t

/-- The next number of a sequence that looks random. -/
def shuffled (r : UInt64) : UInt64 :=
  let r := r ^^^ (r <<< 13)
  let r := r ^^^ (r >>> 7)
  r ^^^ (r <<< 17)

/-- Swaps three elements around the middle of a range with others. -/
def stir (t : Table α) (a b : Nat) : Table α :=
  let length := b - a
  let modulus := Nat.pow 2 (length.log2 + 1)
  let middle := a + length / 4 * 2 - 1
  let place (r : UInt64) : Nat :=
    let other := r.toNat % modulus
    a + if length ≤ other then other - length else other
  let r := shuffled (UInt64.ofNat length)
  let s := shuffled r
  ((t.swap (middle - 1) (place r)).swap middle (place s)).swap (middle + 1) (place (shuffled s))

/-! ## Partition -/

/-- The last position from `j` down to `i` where a condition fails, or the one before `i`. -/
def lastWithout (p : Nat → Bool) (i : Nat) : Nat → Nat
  | 0 => 0
  | j + 1 => if i ≤ j + 1 && p (j + 1) then lastWithout p i j else j + 1

/-- Brings the elements below the one at `a` before the others, between `i` and `j`; the place where
the two parts meet, and whether nothing had to be moved. -/
def divideFrom (t : Table α) (a : Nat) (tidy : Bool) : Nat → Nat → Nat → Table α × Nat × Bool
  | 0, _, j => (t, j, tidy)
  | fuel + 1, i, j =>
    let i := firstWithout (t.below · a) (j + 1 - i) i
    let j := lastWithout (!t.below · a) i j
    if j < i then (t.swap j a, j, tidy)
    else (t.swap i j).divideFrom a false fuel (i + 1) (j - 1)

/-- Divides a range into elements below that at the pivot, this one, and the others. -/
def divide (t : Table α) (a b pivot : Nat) : Table α × Nat × Bool :=
  (t.swap a pivot).divideFrom a true (b - a) (a + 1) (b - 1)

/-- Brings the elements equal to the one at `a` before the greater ones, between `i` and `j`; the
place of the first greater one. -/
def gatherFrom (t : Table α) (a : Nat) : Nat → Nat → Nat → Table α × Nat
  | 0, i, _ => (t, i)
  | fuel + 1, i, j =>
    let i := firstWithout (!t.below a ·) (j + 1 - i) i
    let j := lastWithout (t.below a ·) i j
    if j < i then (t, i) else (t.swap i j).gatherFrom a fuel (i + 1) (j - 1)

/-- Divides a range without elements below that at the pivot. -/
def gather (t : Table α) (a b pivot : Nat) : Table α × Nat :=
  (t.swap a pivot).gatherFrom a (b - a) (a + 1) (b - 1)

/-! ## The sort -/

/-- Sorts a range. After `limit` bad divisions a heap is used; `balanced` and `tidy` say how the
last division went. -/
def sortRange (t : Table α) (limit : Nat) (balanced tidy : Bool) : Nat → Nat → Nat → Table α
  | 0, _, _ => t
  | fuel + 1, a, b =>
    if b - a ≤ 12 then t.insertion a b
    else if limit == 0 then t.heapSort a b
    else
      let (t, limit) := if balanced then (t, limit) else (t.stir a b, limit - 1)
      let (p, swaps) := t.pivot a b
      let (t, p) := if swaps == descending then (t.turn a b, b - 1 - (p - a)) else (t, p)
      let (t, done) :=
        if balanced && tidy && (swaps == 0 || swaps == descending) then t.mend a b 5 (a + 1)
        else (t, false)
      if done then t
      else if 0 < a && !t.below (a - 1) p then
        let (t, mid) := t.gather a b p
        t.sortRange limit balanced tidy fuel mid b
      else
        let (t, mid, tidy) := t.divide a b p
        if mid - a < b - mid then
          (t.sortRange limit true true fuel a mid).sortRange
            limit ((b - a) / 8 ≤ mid - a) tidy fuel (mid + 1) b
        else
          (t.sortRange limit true true fuel (mid + 1) b).sortRange
            limit ((b - a) / 8 ≤ b - mid) tidy fuel a mid

end Table

/-- Sorts a list by an order that is given by its strict part. -/
def sort {α : Type} (less : α → α → Bool) (xs : List α) : List α :=
  let t : Table α := ⟨less, xs.toArray⟩
  (t.sortRange (xs.length.log2 + 1) true true (xs.length + 1) 0 xs.length).items.toList

end CircuitCompiler.PatternSort
