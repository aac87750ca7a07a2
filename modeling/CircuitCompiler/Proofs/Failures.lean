import CircuitCompiler.Proofs.Keys
import CircuitCompiler.Proofs.Spelling

/-!
# Which failures an analysis keeps

An analysis has a complaint for every chunk whose component it does not register and for every
component that the check fails. They are recorded by label, and a label keeps its first error. A
chunk that cannot be read goes by the name that was guessed for it, and another chunk, or a
component that is registered, may have the same name: then a complaint is lost.

* `Build.Analysis.complaints`: all that should be recorded;
* `Build.Registration.Recorded.add`, `Build.Analysis.recorded`: what registering records;
* `Build.losesNothing_iff`: nothing is lost if and only if the labels of the chunks that cannot be
  read and the names of the components that the check fails are distinct.
-/

namespace CircuitCompiler

/-! ## Labels -/

/-- The digits at the end of a label, last first, and what stands before them. -/
def ending (label : String) : List Char × Option Char :=
  (label.toList.reverse.takeWhile Char.isDigit,
    (label.toList.reverse.dropWhile Char.isDigit).head?)

theorem ending_numbered (front sep : String) {mark : Char} (one : sep.toList = [mark])
    (other : mark.isDigit = false) (n : Nat) :
    ending (front ++ sep ++ toString n) = ((Nat.toDigits 10 n).reverse, some mark) := by
  have digits : ∀ c ∈ (Nat.toDigits 10 n).reverse, c.isDigit = true := by
    intro c hc
    exact Nat.isDigit_of_mem_toDigits (by decide) (by decide) (List.mem_reverse.mp hc)
  have back : (front ++ sep ++ toString n).toList.reverse =
      (Nat.toDigits 10 n).reverse ++ mark :: front.toList.reverse := by
    simp [String.toList_append, one]
  rw [ending, back, List.takeWhile_append_of_pos digits, List.dropWhile_append_of_pos digits,
    List.takeWhile_cons_of_neg (by simp [other]), List.dropWhile_cons_of_neg (by simp [other]),
    List.append_nil]
  rfl

/-- A name does not end like a numbered label. -/
theorem IsName.ending_ne {s : String} (name : IsName s) (mark : Char)
    (other : isNameChar mark = false) : (ending s).2 ≠ some mark := by
  intro same
  have mem : mark ∈ s.toList.reverse.dropWhile Char.isDigit := List.mem_of_head? same
  have mem := (List.dropWhile_sublist _).subset mem
  have := name.chars mark (List.mem_reverse.mp mem)
  rw [other] at this
  cases this

namespace Chunk

/-- What a chunk may be named: nothing, or a word that can be a name. -/
def IsGuess (name : String) : Prop := name = "" ∨ IsName name

namespace Cutting

/-- All cuts made so far have such names. -/
def Proper (s : Cutting) : Prop := ∀ c ∈ s.cuts, IsGuess c.name

theorem Proper.begun {s : Cutting} (proper : s.Proper) : s.begun.Proper := by
  unfold Cutting.begun
  split
  · intro c hc
    rw [List.mem_singleton.mp hc]
    exact .inl rfl
  · exact proper

theorem Proper.cut {s : Cutting} (proper : s.Proper) (start : Nat) {name : String}
    (guess : IsGuess name) : (s.cut start name).Proper := by
  intro c hc
  rcases List.mem_append.mp hc with old | new
  · exact proper c old
  · rw [List.mem_singleton.mp new]
    exact guess

theorem isGuess_nameIn {ts : List Token} (spelled : ∀ t ∈ ts, t.Spelled) : IsGuess (nameIn ts) := by
  cases ts with
  | nil => exact .inl rfl
  | cons t rest =>
    show IsGuess (if t.kind = .ident then t.name else "")
    by_cases ident : t.kind = .ident
    · obtain ⟨same, name⟩ := (spelled t List.mem_cons_self).ident ident
      rw [if_pos ident, same]
      exact .inr name
    · rw [if_neg ident]
      exact .inl rfl

theorem Proper.walk {s : Cutting} (proper : s.Proper) {ts : List Token}
    (spelled : ∀ t ∈ ts, t.Spelled) : (s.walk ts).Proper := by
  induction ts generalizing s with
  | nil => exact proper
  | cons t rest ih =>
    have later : ∀ u ∈ rest, u.Spelled := fun u hu => spelled u (List.mem_cons_of_mem t hu)
    unfold Cutting.walk
    split
    · exact ih (Proper.begun proper) later
    · exact ih (Proper.begun proper) later
    · split
      · exact ih (proper.cut _ (isGuess_nameIn later)) later
      · exact ih proper.begun later
    · exact ih proper.begun later

theorem Proper.walkFile {f : SourceFile} {s : Cutting} (proper : s.Proper) (fuel pos : Nat) :
    (walkFile f fuel pos s).Proper := by
  induction fuel generalizing pos s with
  | zero => exact proper
  | succ fuel ih =>
    have walked : (s.walk (Stream.scan f.id pos (f.content.drop pos)).tokens).Proper :=
      proper.walk Stream.scan_spelled
    simp only [Cutting.walkFile]
    split
    · exact walked
    · split
      · exact walked.begun
      · exact ih walked.begun _

end Cutting

theorem names_between (f : SourceFile) (index : Nat) (cs : List Cut) :
    (between f index cs).map (·.name) = cs.map (·.name) := by
  induction cs generalizing index with
  | nil => rfl
  | cons c rest ih =>
    cases rest with
    | nil => rfl
    | cons d rest => exact congrArg (c.name :: ·) (ih (index + 1))

/-- The chunks of a file have such names. -/
theorem isGuess_of_mem_split {f : SourceFile} {c : Chunk} (hc : c ∈ split f) : IsGuess c.name := by
  have named : c.name ∈ (split f).map (·.name) := List.mem_map_of_mem hc
  rw [split, names_between] at named
  obtain ⟨cut, hcut, same⟩ := List.mem_map.mp named
  have proper : (Cutting.walkFile f (f.content.length + 1) 0 {}).Proper :=
    Cutting.Proper.walkFile (fun _ none => by cases none) _ _
  exact same ▸ proper cut hcut

/-- The label of such a chunk does not end like that of a duplicate. -/
theorem ending_label_ne {c : Chunk} (guess : IsGuess c.name) : (ending c.label).2 ≠ some '@' := by
  unfold label
  by_cases none : c.name = ""
  · rw [if_pos (by simpa using none)]
    have numbered : ending (c.path ++ "#" ++ toString c.index) =
        ((Nat.toDigits 10 c.index).reverse, some '#') := ending_numbered c.path "#" rfl (by decide) _
    rw [numbered]
    exact fun same => absurd (Option.some.inj same) (by decide)
  · rw [if_neg (by simpa using none)]
    exact (guess.resolve_left none).ending_ne '@' (by decide)

/-- What a chunk is read as has a name. -/
theorem isName_of_parse {f : SourceFile} {keepText : Bool} {c : Chunk} {comp : Component}
    (read : c.parse f keepText = .ok comp) : IsName comp.name := by
  obtain ⟨used, span, scanned, spells⟩ := (parse_eq_ok_iff f keepText c comp).mp read
  obtain ⟨word, title, opening, body, close, split, -, ident, named, -⟩ := spells.framed
  have mem : title ∈ (Stream.scan f.id (Cursor.ofRange f c.start c.stop).off (c.text f)).tokens := by
    rw [scanned, split]
    simp
  obtain ⟨same, name⟩ := (Stream.scan_spelled title mem).ident ident
  rw [← named, same]
  exact name

end Chunk

namespace Build

/-! ## Recording -/

namespace Failures

/-- Records one error after the other. -/
def recordAll (fs : Failures) (es : Failures) : Failures :=
  es.foldl (fun fs e => fs.record e.1 e.2) fs

theorem record_of_mem {fs : Failures} {label : String} (old : label ∈ fs.map (·.1))
    (e : CompileError) : fs.record label e = fs := by
  obtain ⟨f, hf, same⟩ := List.mem_map.mp old
  exact if_pos (List.any_eq_true.mpr ⟨f, hf, by simpa using same⟩)

theorem record_of_new {fs : Failures} {label : String} (new : label ∉ fs.map (·.1))
    (e : CompileError) : fs.record label e = fs ++ [(label, e)] := by
  refine if_neg fun old => ?_
  obtain ⟨f, hf, same⟩ := List.any_eq_true.mp old
  exact new (List.mem_map.mpr ⟨f, hf, by simpa using same⟩)

theorem record_labels_nodup {fs : Failures} (nodup : (fs.map (·.1)).Nodup) (label : String)
    (e : CompileError) : ((fs.record label e).map (·.1)).Nodup := by
  by_cases old : label ∈ fs.map (·.1)
  · rwa [record_of_mem old]
  · rw [record_of_new old, List.map_append]
    exact List.nodup_append.mpr ⟨nodup, List.nodup_singleton _, fun l hl m hm => by
      rw [List.mem_singleton.mp hm]
      rintro rfl
      exact old hl⟩

theorem prefix_record (fs : Failures) (label : String) (e : CompileError) :
    fs <+: fs.record label e := by
  by_cases old : label ∈ fs.map (·.1)
  · rw [record_of_mem old]
  · rw [record_of_new old]
    exact List.prefix_append _ _

/-- A label is recorded once. -/
theorem recordAll_labels_nodup (fs : Failures) (nodup : (fs.map (·.1)).Nodup) (es : Failures) :
    ((fs.recordAll es).map (·.1)).Nodup := by
  induction es generalizing fs with
  | nil => exact nodup
  | cons e rest ih => exact ih _ (record_labels_nodup nodup e.1 e.2)

/-- Errors with distinct labels are all recorded. -/
theorem recordAll_of_nodup {fs es : Failures} (nodup : ((fs ++ es).map (·.1)).Nodup) :
    fs.recordAll es = fs ++ es := by
  induction es generalizing fs with
  | nil => exact (List.append_nil fs).symm
  | cons e rest ih =>
    rw [List.append_cons] at nodup ⊢
    have new : e.1 ∉ fs.map (·.1) := by
      rw [List.map_append, List.map_append, List.append_assoc] at nodup
      intro old
      exact (List.nodup_append.mp nodup).2.2 _ old _ (by simp) rfl
    show (fs.record e.1 e.2).recordAll rest = _
    rw [record_of_new new]
    exact ih nodup

end Failures

/-! ## Complaints -/

namespace Analysis

open Registration (Entry)

/-- The chunks with what was read of them, and their numbers. -/
def entryList (a : Analysis) : List Entry := entries a.chunks a.results

/-- The names of the components that were read from the first chunks. -/
def declaredBefore (a : Analysis) (n : Nat) : List String :=
  (a.results.take n).filterMap fun r => r.toOption.map (·.name)

/-- The complaint about a chunk, by label: it cannot be read, or its component was declared before.
-/
def complaint? (a : Analysis) (e : Entry) : Option (String × CompileError) :=
  match e.result with
  | .error err => some (e.chunk.label, err)
  | .ok c =>
    if c.name ∈ a.declaredBefore e.number then
      some (e.chunk.label ++ "@" ++ toString e.number, ⟨.duplicateComponent c.name, c.nameSpan⟩)
    else none

/-- All complaints in the order of their discovery: about chunks, then about components that the
check fails. -/
def complaints (a : Analysis) : Failures := a.entryList.filterMap a.complaint? ++ a.verdict.failed

/-- The component that was read from a chunk is registered. -/
def Registers (a : Analysis) (e : Entry) : Prop :=
  ∃ c, e.result = .ok c ∧ c ∈ a.design.components ∧ (c.name, e.chunk) ∈ a.registration.origins

/-- No failure is lost: every chunk has its component registered or its own error recorded, every
failed component has the error of the check recorded, and there is one entry for each of them. -/
structure LosesNothing (a : Analysis) : Prop where
  chunks : ∀ e ∈ a.entryList, a.Registers e ∨ ∃ f, a.complaint? e = some f ∧ f ∈ a.failures
  failed : ∀ f ∈ a.verdict.failed, f ∈ a.failures
  all : a.complaints <+: a.failures

end Analysis

/-! ## Registering -/

namespace Registration

variable {a : Analysis}

/-- The state behind some of the chunks of an analysis. -/
structure Recorded (a : Analysis) (done : List Entry) (s : Registration) : Prop where
  failures : s.failures = Failures.recordAll [] (done.filterMap a.complaint?)
  names : ∀ name, name ∈ s.design.names ↔ name ∈ a.declaredBefore done.length
  registered : ∀ e ∈ done, a.complaint? e = none →
    ∃ c, e.result = .ok c ∧ c ∈ s.design.components ∧ (c.name, e.chunk) ∈ s.origins

theorem recordAll_concat (fs es : Failures) (f : String × CompileError) :
    fs.recordAll (es ++ [f]) = (fs.recordAll es).record f.1 f.2 := by
  rw [Failures.recordAll, List.foldl_append]
  rfl

theorem declaredBefore_succ {n : Nat} {r : Except CompileError Component}
    (result : a.results[n]? = some r) (name : String) :
    name ∈ a.declaredBefore (n + 1) ↔
      name ∈ a.declaredBefore n ∨ ∃ c, r = .ok c ∧ c.name = name := by
  unfold Analysis.declaredBefore
  rw [List.take_add_one, result, List.filterMap_append, List.mem_append]
  refine or_congr_right ?_
  cases r with
  | error err => simp [Except.toOption]
  | ok c => simp [Except.toOption, eq_comm]

variable {done : List Entry} {s : Registration} {e : Entry}

/-- A complaint is recorded behind those about the chunks before. -/
theorem Recorded.complain (recorded : Recorded a done s) {f : String × CompileError}
    (complaint : a.complaint? e = some f) (duplicates : List CompileError)
    (names : ∀ name, name ∈ a.declaredBefore (done.length + 1) ↔
      name ∈ a.declaredBefore done.length) :
    Recorded a (done ++ [e])
      { s with failures := s.failures.record f.1 f.2, duplicates := duplicates } where
  failures := by
    rw [List.filterMap_append, List.filterMap_cons_some complaint, List.filterMap_nil,
      recordAll_concat, recorded.failures]
  names := fun name => by
    rw [List.length_append, List.length_singleton, names]
    exact recorded.names name
  registered := fun e' he' calm => by
    rcases List.mem_append.mp he' with old | last
    · exact recorded.registered e' old calm
    · rw [List.mem_singleton.mp last, complaint] at calm
      cases calm

/-- A component with a new name is registered without a complaint. -/
theorem Recorded.register (recorded : Recorded a done s) {c : Component} {d : Design}
    (ok : e.result = .ok c) (result : a.results[done.length]? = some e.result)
    (calm : a.complaint? e = none) (added : s.design.add? c = some d) :
    Recorded a (done ++ [e])
      { s with design := d, origins := s.origins ++ [(c.name, e.chunk)] } where
  failures := by
    rw [List.filterMap_append, List.filterMap_cons_none calm, List.filterMap_nil,
      List.append_nil]
    exact recorded.failures
  names := fun name => by
    rw [List.length_append, List.length_singleton, declaredBefore_succ result, ok,
      ← recorded.names, Design.names, Design.components_of_add? added, List.map_append,
      List.mem_append]
    refine or_congr_right ?_
    simp [eq_comm]
  registered := fun e' he' calm' => by
    rw [Design.components_of_add? added]
    rcases List.mem_append.mp he' with old | last
    · obtain ⟨c', ok', mem, origin⟩ := recorded.registered e' old calm'
      exact ⟨c', ok', List.mem_append_left _ mem, List.mem_append_left _ origin⟩
    · rw [List.mem_singleton.mp last]
      exact ⟨c, ok, List.mem_append_right _ List.mem_cons_self,
        List.mem_append_right _ List.mem_cons_self⟩

theorem Recorded.add (recorded : Recorded a done s) (number : e.number = done.length)
    (result : a.results[done.length]? = some e.result) : Recorded a (done ++ [e]) (s.add e) := by
  cases read : e.result with
  | error err =>
    have complaint : a.complaint? e = some (e.chunk.label, err) := by
      simp only [Analysis.complaint?, read]
    have added : s.add e = { s with failures := s.failures.record e.chunk.label err } := by
      simp only [Registration.add, read]
    rw [added]
    refine recorded.complain complaint s.duplicates fun name => ?_
    rw [declaredBefore_succ result, read]
    simp
  | ok c =>
    by_cases taken : c.name ∈ s.design.names
    · have before : c.name ∈ a.declaredBefore done.length := (recorded.names c.name).mp taken
      have complaint : a.complaint? e = some (e.chunk.label ++ "@" ++ toString e.number,
          ⟨.duplicateComponent c.name, c.nameSpan⟩) := by
        simp only [Analysis.complaint?, read, number, before, if_true]
      have none : s.design.add? c = none := dif_pos (Design.has_iff.mpr taken)
      have added : s.add e = { s with
          failures := s.failures.record (e.chunk.label ++ "@" ++ toString e.number)
            ⟨.duplicateComponent c.name, c.nameSpan⟩
          duplicates := s.duplicates ++ [⟨.duplicateComponent c.name, c.nameSpan⟩] } := by
        simp only [Registration.add, read, none]
      rw [added]
      refine recorded.complain complaint _ fun name => ?_
      rw [declaredBefore_succ result, read]
      refine or_iff_left_of_imp ?_
      rintro ⟨c', same, rfl⟩
      cases same
      exact before
    · have new : c.name ∉ a.declaredBefore done.length := fun h =>
        taken ((recorded.names c.name).mpr h)
      have calm : a.complaint? e = none := by
        simp only [Analysis.complaint?, read, number, new, if_false]
      have free : ¬s.design.has c.name = true := fun h => taken (Design.has_iff.mp h)
      obtain ⟨d, some⟩ : ∃ d, s.design.add? c = some d := ⟨_, dif_neg free⟩
      have added : s.add e =
          { s with design := d, origins := s.origins ++ [(c.name, e.chunk)] } := by
        simp only [Registration.add, read, some]
      rw [added]
      exact recorded.register read result calm some

/-- After registering the first chunks, their complaints are recorded. -/
theorem recorded_ofEntries {rest : List Entry} (split : a.entryList = done ++ rest) :
    Recorded a done (ofEntries done) := by
  induction done using List.reverseRecOn generalizing rest with
  | nil => exact ⟨rfl, by simp [ofEntries, Design.names, Analysis.declaredBefore], by simp⟩
  | append_singleton done e ih =>
    rw [List.append_assoc] at split
    have here : a.entryList[done.length]? = some e := by
      rw [split, List.getElem?_append_right (Nat.le_refl _)]
      simp
    obtain ⟨number, result⟩ : e.number = done.length ∧ a.results[done.length]? = some e.result := by
      simp only [Analysis.entryList, Analysis.entries, List.getElem?_mapIdx,
        Option.map_eq_some_iff, List.getElem?_zip_eq_some] at here
      obtain ⟨⟨chunk, r⟩, ⟨-, found⟩, rfl⟩ := here
      exact ⟨rfl, found⟩
    rw [ofEntries, List.foldl_append]
    exact (ih split).add number result

end Registration

namespace Analysis

open Registration (Entry)

variable {a : Analysis}

/-! ## The labels of complaints -/

/-- The label of a chunk that cannot be read. -/
def unread? (e : Entry) : Option String :=
  match e.result with
  | .error _ => some e.chunk.label
  | .ok _ => none

theorem entryList_numbers (a : Analysis) : a.entryList.Pairwise fun e e' => e.number < e'.number := by
  rw [List.pairwise_iff_getElem]
  intro i j hi hj less
  simp only [entryList, entries, List.getElem_mapIdx]
  exact less

theorem map_entryList (a : Analysis) :
    a.entryList.map (fun e => (e.chunk, e.result)) = a.chunks.zip a.results := by
  apply List.ext_getElem?
  intro i
  simp only [entryList, entries, List.getElem?_map, List.getElem?_mapIdx, Option.map_map]
  cases (a.chunks.zip a.results)[i]? <;> rfl

theorem labels_parseErrors (a : Analysis) :
    a.parseErrors.map (·.1.label) = a.entryList.filterMap unread? := by
  rw [parseErrors, ← map_entryList, List.filterMap_map, List.map_filterMap]
  refine List.filterMap_congr fun e _ => ?_
  unfold unread?
  simp only [Function.comp_apply]
  cases e.result <;> rfl

/-- The complaint about a chunk that cannot be read has its label; any other one has a numbered
label. -/
theorem complaint?_label {e : Entry} {f : String × CompileError} (h : a.complaint? e = some f) :
    unread? e = some f.1 ∨
      unread? e = none ∧ f.1 = e.chunk.label ++ "@" ++ toString e.number := by
  unfold complaint? at h
  unfold unread?
  cases read : e.result with
  | error err =>
    rw [read] at h
    cases h
    exact .inl rfl
  | ok c =>
    rw [read] at h
    simp only at h
    split at h
    · cases h
      exact .inr ⟨rfl, rfl⟩
    · cases h

theorem ending_unread {e : Entry} {label : String} (guess : Chunk.IsGuess e.chunk.name)
    (unread : unread? e = some label) : (ending label).2 ≠ some '@' := by
  unfold unread? at unread
  split at unread
  · cases unread
    exact Chunk.ending_label_ne guess
  · cases unread

theorem ending_duplicate (label : String) (n : Nat) :
    ending (label ++ "@" ++ toString n) = ((Nat.toDigits 10 n).reverse, some '@') :=
  ending_numbered label "@" rfl (by decide) n

/-- Two complaints about chunks have the same label only if neither chunk can be read. -/
theorem complaint?_labels_ne {e e' : Entry} (other : e.number ≠ e'.number)
    (guess : Chunk.IsGuess e.chunk.name) (guess' : Chunk.IsGuess e'.chunk.name)
    (apart : ∀ l, unread? e = some l → ∀ l', unread? e' = some l' → l ≠ l')
    {f f' : String × CompileError} (hf : a.complaint? e = some f)
    (hf' : a.complaint? e' = some f') : f.1 ≠ f'.1 := by
  rcases complaint?_label hf with unread | ⟨-, duplicate⟩ <;>
    rcases complaint?_label hf' with unread' | ⟨-, duplicate'⟩
  · exact apart _ unread _ unread'
  · intro same
    refine ending_unread guess unread ?_
    rw [same, duplicate', ending_duplicate]
  · intro same
    refine ending_unread guess' unread' ?_
    rw [← same, duplicate, ending_duplicate]
  · -- the labels end with the numbers of the chunks
    intro same
    have ends := congrArg ending same
    rw [duplicate, duplicate', ending_duplicate, ending_duplicate] at ends
    have digits : Nat.toDigits 10 e.number = Nat.toDigits 10 e'.number :=
      List.reverse_injective (Prod.mk.inj ends).1
    have repr : (Nat.repr e.number).toList = (Nat.repr e'.number).toList := by
      rw [Nat.toList_repr, Nat.toList_repr, digits]
    exact other (Nat.repr_injective (String.toList_inj.mp repr))

/-- The labels of the complaints about chunks are distinct if those of the chunks that cannot be
read are. -/
theorem nodup_chunkLabels (guesses : ∀ e ∈ a.entryList, Chunk.IsGuess e.chunk.name)
    (unread : (a.entryList.filterMap unread?).Nodup) :
    ((a.entryList.filterMap a.complaint?).map (·.1)).Nodup := by
  rw [List.Nodup, List.pairwise_filterMap] at unread
  rw [List.Nodup, List.pairwise_map, List.pairwise_filterMap]
  refine List.Pairwise.imp_of_mem ?_ (a.entryList_numbers.and unread)
  rintro e e' he he' ⟨less, apart⟩ f hf f' hf'
  exact complaint?_labels_ne (Nat.ne_of_lt less) (guesses e he) (guesses e' he') apart hf hf'

theorem unread_sublist (a : Analysis) :
    (a.entryList.filterMap unread?).Sublist ((a.entryList.filterMap a.complaint?).map (·.1)) := by
  induction a.entryList with
  | nil => exact .slnil
  | cons e rest ih =>
    cases complaint : a.complaint? e with
    | none =>
      have read : unread? e = none := by
        unfold complaint? at complaint
        unfold unread?
        cases result : e.result with
        | error err =>
          rw [result] at complaint
          cases complaint
        | ok c => rfl
      rw [List.filterMap_cons_none complaint, List.filterMap_cons_none read]
      exact ih
    | some f =>
      rw [List.filterMap_cons_some complaint, List.map_cons]
      rcases complaint?_label complaint with unread | ⟨read, -⟩
      · rw [List.filterMap_cons_some unread]
        exact ih.cons_cons f.1
      · rw [List.filterMap_cons_none read]
        exact ih.cons f.1

theorem nodup_labels_iff (guesses : ∀ e ∈ a.entryList, Chunk.IsGuess e.chunk.name)
    (names : ∀ name ∈ a.verdict.failed.map (·.1), IsName name) :
    (a.complaints.map (·.1)).Nodup ↔
      (a.parseErrors.map (·.1.label) ++ a.verdict.failed.map (·.1)).Nodup := by
  rw [complaints, List.map_append, labels_parseErrors]
  constructor
  · exact fun nodup => nodup.sublist (a.unread_sublist.append (List.Sublist.refl _))
  · intro nodup
    obtain ⟨unread, failed, apart⟩ := List.nodup_append.mp nodup
    refine List.nodup_append.mpr ⟨nodup_chunkLabels guesses unread, failed, fun l hl l' hl' => ?_⟩
    obtain ⟨f, hf, rfl⟩ := List.mem_map.mp hl
    obtain ⟨e, he, complaint⟩ := List.mem_filterMap.mp hf
    rcases complaint?_label complaint with unread | ⟨-, duplicate⟩
    · exact apart _ (List.mem_filterMap.mpr ⟨e, he, unread⟩) _ hl'
    · rintro same
      refine (names l' hl').ending_ne '@' (by decide) ?_
      rw [← same, duplicate, ending_duplicate]

/-! ## Whole analyses -/

theorem recorded_registration {sources : Sources} {top : String} {keepText : Bool}
    (same : a = ofSources sources top keepText) :
    Registration.Recorded a a.entryList a.registration := by
  subst same
  exact Registration.recorded_ofEntries (List.append_nil _).symm

/-- What an analysis records: its complaints, and behind them what is wrong with the top-level
component. -/
theorem recordAll_prefix_failures {sources : Sources} {top : String} {keepText : Bool}
    (same : a = ofSources sources top keepText) :
    Failures.recordAll [] a.complaints <+: a.failures ∧ (a.failures.map (·.1)).Nodup := by
  have recorded := recorded_registration same
  have first : Failures.recordAll a.registration.failures a.verdict.failed =
      Failures.recordAll [] a.complaints := by
    rw [complaints, Failures.recordAll, Failures.recordAll, List.foldl_append, recorded.failures]
    rfl
  have nodup := Failures.recordAll_labels_nodup [] List.nodup_nil a.complaints
  rw [← first] at nodup ⊢
  unfold failures
  cases a.verdict.topError with
  | none => exact ⟨List.prefix_refl _, nodup⟩
  | some e => exact ⟨Failures.prefix_record _ _ _, Failures.record_labels_nodup nodup _ _⟩

/-- The complaints are all recorded if and only if their labels are distinct. -/
theorem complaints_kept_iff {sources : Sources} {top : String} {keepText : Bool}
    (same : a = ofSources sources top keepText) :
    a.complaints <+: a.failures ↔ (a.complaints.map (·.1)).Nodup := by
  obtain ⟨kept, once⟩ := recordAll_prefix_failures same
  constructor
  · exact fun all => once.sublist (all.sublist.map _)
  · intro nodup
    have whole : Failures.recordAll [] a.complaints = [] ++ a.complaints :=
      Failures.recordAll_of_nodup nodup
    rwa [whole] at kept

theorem isGuess_of_mem_entryList {sources : Sources} {top : String} {keepText : Bool} {e : Entry}
    (he : e ∈ (ofSources sources top keepText).entryList) : Chunk.IsGuess e.chunk.name := by
  have pair : (e.chunk, e.result) ∈ (ofSources sources top keepText).entryList.map
      fun e => (e.chunk, e.result) := List.mem_map_of_mem he
  rw [map_entryList] at pair
  have cut : e.chunk ∈ chunksOf sources.files := (List.of_mem_zip pair).1
  obtain ⟨f, -, hc⟩ := List.mem_flatMap.mp cut
  exact Chunk.isGuess_of_mem_split hc

theorem Faithful.isName_failed (faithful : a.Faithful) :
    ∀ name ∈ a.verdict.failed.map (·.1), IsName name := by
  intro name failed
  rw [Verdict.failed_names, faithful.verdict] at failed
  have known : name ∈ a.design.names := Design.mem_sortedNames.mp (List.mem_filter.mp failed).1
  obtain ⟨c, hc, rfl⟩ := Design.exists_of_mem_names known
  obtain ⟨chunk, f, keepText, -, -, read⟩ := faithful.chunk hc
  exact Chunk.isName_of_parse read

end Analysis

/-- An analysis loses no failure if and only if no two chunks that cannot be read have the same
label, and none has the name of a registered component that the check fails. -/
theorem losesNothing_iff (sources : Sources) (top : String) (keepText : Bool) :
    let a := Analysis.ofSources sources top keepText
    a.LosesNothing ↔
      (a.parseErrors.map (·.1.label) ++ a.verdict.failed.map (·.1)).Nodup := by
  intro a
  have faithful : a.Faithful := Analysis.ofSources_faithful sources top keepText
  have recorded : Registration.Recorded a a.entryList a.registration :=
    Analysis.recorded_registration rfl
  rw [← Analysis.nodup_labels_iff (fun e he => Analysis.isGuess_of_mem_entryList he)
    faithful.isName_failed, ← Analysis.complaints_kept_iff rfl]
  refine ⟨fun h => h.all, fun kept => ⟨fun e he => ?_, fun f hf => ?_, kept⟩⟩
  · cases complaint : a.complaint? e with
    | none => exact .inl (recorded.registered e he complaint)
    | some f =>
      have mem : f ∈ a.complaints :=
        List.mem_append_left _ (List.mem_filterMap.mpr ⟨e, he, complaint⟩)
      exact .inr ⟨f, rfl, kept.subset mem⟩
  · exact kept.subset (List.mem_append_right _ hf)

/-- A file with two components of one name, neither of which can be read. -/
def twiceBroken : Sources where
  files := ⟨[⟨0, "S", Bytes.ofString "component A\x7bx\x7dcomponent A\x7by\x7d", 0⟩]⟩

/-- The error of the second component is lost. -/
theorem twiceBroken_loses : ¬(Analysis.ofSources twiceBroken "" false).LosesNothing := by
  intro complete
  have distinct := (Analysis.complaints_kept_iff rfl).mp complete.all
  revert distinct
  decide +kernel

end Build
end CircuitCompiler
