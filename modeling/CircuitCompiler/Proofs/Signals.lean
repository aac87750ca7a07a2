import CircuitCompiler.Proofs.Verdict
import CircuitCompiler.Proofs.Wiring

/-!
# Signals that stand for ports

The signal for a port is the name of the instance and that of the port, joined by an underscore.
Both may have underscores themselves, so the names of two ports can run together.

* `Vhdl.Lowers`: what lowering makes of expressions and records in the state, step by step;
* `Vhdl.mem_connections_iff`: the entries of a port map are those of the paths to the instance;
* `Vhdl.signalName_eq_iff`: when two paths have the same signal;
* `Vhdl.portsApart_iff`: ports are kept apart exactly where no names run together.
-/

namespace CircuitCompiler

/-- The path with the signal that stands for it in its place; a plain name stays. -/
def Path.lowered (p : Path) : Path :=
  if p.isPlain then p else { head := ⟨Vhdl.signalName p, p.span⟩ }

/-- The expression with signals in place of its dotted paths. -/
def Expr.lowered : Expr → Expr
  | ref p => ref p.lowered
  | const span value => const span value
  | binary span op left right => binary span op left.lowered right.lowered
  | unary span op operand => unary span op operand.lowered
  | choice span cond yes no => choice span cond.lowered yes.lowered no.lowered
  | index span target bit => index span target.lowered bit.lowered
  | range span target high low => range span target.lowered high.lowered low.lowered

/-- The paths of the dotted references are dotted. -/
theorem Expr.paths_dotted {e : Expr} {p : Path} (h : p ∈ e.paths) : p.tail ≠ [] := by
  have single : ∀ q : Path, p ∈ paths.dotted q → p.tail ≠ [] := by
    intro q hq
    unfold paths.dotted Path.isPlain at hq
    by_cases plain : q.tail.isEmpty = true
    · rw [if_pos plain] at hq
      cases hq
    · rw [if_neg plain] at hq
      obtain rfl := List.mem_singleton.mp hq
      simpa using plain
  induction e with
  | ref q => exact single q h
  | const => cases h
  | binary _ _ _ _ left right =>
    rcases List.mem_append.mp h with h | h
    · exact left h
    · exact right h
  | unary _ _ _ operand => exact operand h
  | choice _ _ _ _ cond yes no =>
    rcases List.mem_append.mp h with h | h
    · rcases List.mem_append.mp h with h | h
      · exact cond h
      · exact yes h
    · exact no h
  | index _ q _ bit =>
    rcases List.mem_append.mp h with h | h
    · exact single q h
    · exact bit h
  | range _ q _ _ high low =>
    rcases List.mem_append.mp h with h | h
    · rcases List.mem_append.mp h with h | h
      · exact single q h
      · exact high h
    · exact low h

theorem Component.dottedPaths_dotted {c : Component} {p : Path} (h : p ∈ c.dottedPaths) :
    p.tail ≠ [] := by
  obtain ⟨⟨target, value⟩, -, h⟩ := List.mem_flatMap.mp h
  rcases List.mem_append.mp h with h | h
  · exact Expr.paths_dotted h
  · exact Expr.paths_dotted h

namespace Vhdl

/-! ## What lowering records -/

/-- A socket behind a path: the port of the path is connected if the path leads to the instance. -/
def Socket.seen (s : Socket) (p : Path) : Socket :=
  if s.inst.name == p.head.name then s.connect (portName p) (signalName p) else s

/-- The state `l'` is `l` behind the dotted paths `ps` and the lowered assignments `done`. -/
structure Records (ps : List Path) (done : List (Expr × Expr)) (l l' : Lowering) : Prop where
  sockets : l'.sockets = l.sockets.map fun s => ps.foldl Socket.seen s
  assigns : l'.assigns = l.assigns ++ done

theorem Records.refl (l : Lowering) : Records [] [] l l where
  sockets := by simp
  assigns := by simp

theorem Records.trans {ps ps' : List Path} {done done' : List (Expr × Expr)}
    {l l' l'' : Lowering} (h : Records ps done l l') (h' : Records ps' done' l' l'') :
    Records (ps ++ ps') (done ++ done') l l'' where
  sockets := by
    rw [h'.sockets, h.sockets, List.map_map]
    refine List.map_congr_left fun s _ => ?_
    rw [Function.comp_apply, List.foldl_append]
  assigns := by rw [h'.assigns, h.assigns, List.append_assoc]

/-- Where the step succeeds, its result is `a`, and it records the paths and the assignments. -/
def Lowers {α : Type} (ps : List Path) (done : List (Expr × Expr)) (p : Lower α) (a : α) : Prop :=
  ∀ l b l', p.run.run l = (.ok b, l') → b = a ∧ Records ps done l l'

namespace Lowers

variable {α β : Type} {ps ps' : List Path} {done done' : List (Expr × Expr)}

theorem pure (a : α) : Lowers [] [] (Pure.pure a) a := by
  intro l b l' h
  cases h
  exact ⟨rfl, .refl l⟩

theorem bind {p : Lower α} {f : α → Lower β} {a : α} {b : β} (first : Lowers ps done p a)
    (second : Lowers ps' done' (f a) b) : Lowers (ps ++ ps') (done ++ done') (p >>= f) b := by
  intro l b' l'' h
  rw [Lower.run_bind] at h
  cases run : p.run.run l with
  | mk result l' =>
    rw [run] at h
    cases result with
    | error e => cases h
    | ok a' =>
      obtain ⟨rfl, records⟩ := first l a' l' run
      obtain ⟨same, records'⟩ := second l' b' l'' h
      exact ⟨same, records.trans records'⟩

theorem map {p : Lower α} {f : α → β} {a : α} (h : Lowers ps done p a) :
    Lowers ps done (p >>= fun x => Pure.pure (f x)) (f a) := by
  have both : Lowers (ps ++ []) (done ++ []) (p >>= fun x => Pure.pure (f x)) (f a) :=
    h.bind (pure (f a))
  rwa [List.append_nil, List.append_nil] at both

theorem wire (p : Path) : Lowers [p] [] (Lower.wire p) (signalName p) := by
  intro l b l' h
  rw [Lower.run_wire] at h
  split at h
  · cases h
  · next s _ =>
    split at h
    · cases h
    · split at h
      · cases h
      · next type _ =>
        cases h
        have kept : ∀ (l : Lowering) (w : Wire),
            (l.addWire w).sockets = l.sockets ∧ (l.addWire w).assigns = l.assigns := by
          intro l w
          unfold Lowering.addWire
          split <;> exact ⟨rfl, rfl⟩
        refine ⟨rfl, (kept _ _).1.trans ?_, (kept _ _).2.trans ?_⟩
        · rfl
        · exact (List.append_nil _).symm

theorem path (p : Path) : Lowers (Expr.paths.dotted p) [] (Lower.path p) p.lowered := by
  unfold Lower.path Path.lowered Expr.paths.dotted
  by_cases plain : p.isPlain = true
  · rw [if_pos plain, if_pos plain, if_pos plain]
    exact pure p
  · rw [if_neg plain, if_neg plain, if_neg plain]
    exact (wire p).map

theorem expr (e : Expr) : Lowers e.paths [] (Lower.expr e) e.lowered := by
  induction e with
  | ref p => exact (path p).map
  | const span value => exact pure _
  | binary span op left right ihl ihr => exact ihl.bind ihr.map
  | unary span op operand ih => exact ih.map
  | choice span cond yes no ihc ihy ihn =>
    rw [Expr.paths, List.append_assoc]
    exact ihc.bind (ihy.bind ihn.map)
  | index span target bit ih => exact (path target).bind ih.map
  | range span target high low ihh ihl =>
    rw [Expr.paths, List.append_assoc]
    exact (path target).bind (ihh.bind ihl.map)

/-- An assignment joins the lowered ones. -/
theorem append (a : Expr × Expr) :
    Lowers [] [a] (modify fun l => { l with assigns := l.assigns ++ [a] }) ⟨⟩ := by
  intro l b l' h
  cases h
  refine ⟨rfl, ?_, rfl⟩
  show l.sockets = _
  simp

theorem assigns (as : List (Expr × Expr)) :
    Lowers (as.flatMap fun a => a.1.paths ++ a.2.paths)
      (as.map fun a => (a.1.lowered, a.2.lowered)) (Lower.assigns as) () := by
  induction as with
  | nil => exact pure ()
  | cons a rest ih =>
    obtain ⟨target, value⟩ := a
    rw [List.flatMap_cons, List.map_cons, List.append_assoc]
    refine bind (expr target) ?_
    refine bind (expr value) ?_
    exact bind (append (target.lowered, value.lowered)) ih

end Lowers

/-! ## Port maps -/

/-- The entry of a port map that connects the port of a path. -/
def connection (p : Path) : Connection := ⟨portName p, signalName p⟩

theorem signalName_eq {p : Path} (dotted : p.tail ≠ []) :
    signalName p = p.head.name ++ "_" ++ portName p := by
  obtain ⟨s, rest, split⟩ := List.exists_cons_of_ne_nil dotted
  simp only [signalName, portName, Path.names, Path.segments, split, List.map_cons]
  rw [String.intercalate_cons_cons]

/-- The signals of a port map are made of the instance and the port. -/
def Socket.Wired (s : Socket) : Prop :=
  ∀ k ∈ s.connections, k.signal = s.inst.name ++ "_" ++ k.port

/-- What a path does to a port map. -/
theorem Socket.seen_spec {s : Socket} (wired : s.Wired) {p : Path} (dotted : p.tail ≠ []) :
    (s.seen p).inst = s.inst ∧ (s.seen p).Wired ∧ ∀ k, k ∈ (s.seen p).connections ↔
      k ∈ s.connections ∨ (s.inst.name = p.head.name ∧ k = connection p) := by
  unfold seen
  by_cases here : s.inst.name = p.head.name
  · rw [if_pos (beq_iff_eq.mpr here)]
    have signal := signalName_eq dotted
    rw [← here] at signal
    unfold connect
    by_cases known : (s.connections.any fun c => c.port == portName p) = true
    · rw [if_pos known]
      refine ⟨rfl, wired, fun k => ⟨.inl, ?_⟩⟩
      rintro (old | ⟨-, rfl⟩)
      · exact old
      · -- the entry for the port is the same one
        obtain ⟨k, hk, port⟩ := List.any_eq_true.mp known
        have port := beq_iff_eq.mp port
        have same : connection p = k := by
          rw [connection, signal, ← port, ← wired k hk]
        rwa [same]
    · rw [if_neg known]
      refine ⟨rfl, ?_, fun k => ?_⟩
      · intro k hk
        rcases List.mem_append.mp hk with old | new
        · exact wired k old
        · obtain rfl := List.mem_singleton.mp new
          exact signal
      · rw [List.mem_append, List.mem_singleton]
        exact or_congr_right (and_iff_right here).symm
  · rw [if_neg (by simpa using here)]
    refine ⟨rfl, wired, fun k => ?_⟩
    simp [here]

/-- What paths do to a port map, one after the other. -/
theorem Socket.foldl_seen {s : Socket} (wired : s.Wired) {ps : List Path}
    (dotted : ∀ p ∈ ps, p.tail ≠ []) :
    (ps.foldl seen s).inst = s.inst ∧ ∀ k, k ∈ (ps.foldl seen s).connections ↔
      k ∈ s.connections ∨ ∃ p ∈ ps, s.inst.name = p.head.name ∧ k = connection p := by
  induction ps generalizing s with
  | nil => simp
  | cons p rest ih =>
    obtain ⟨inst, wired', first⟩ := seen_spec wired (dotted p List.mem_cons_self)
    obtain ⟨inst', later⟩ := ih wired' fun q hq => dotted q (List.mem_cons_of_mem p hq)
    refine ⟨inst'.trans inst, fun k => ?_⟩
    rw [List.foldl_cons, later, first, inst, or_assoc]
    simp only [List.mem_cons, exists_eq_or_imp]

/-- A component that is emitted was lowered, and its text is that of the state lowering ended in. -/
theorem lower_of_emit {g g' : Generator} {c : Component} {text : String}
    (emits : g.emit c = (.ok text, g')) : lower g.library c = (.ok (), g'.work) ∧
      text = renderLines (indentStep g.indent) (unitLines c g'.work) := by
  rw [Generator.emit_eq] at emits
  split at emits
  · cases emits
  · next l run =>
    cases emits
    exact ⟨run, rfl⟩

section Lowered

variable {library : Option Design} {c : Component} {l : Lowering}

/-- The assignments of a component that is lowered have signals for their dotted paths. -/
theorem lower_assigns (h : lower library c = (.ok (), l)) :
    l.assigns = c.assignments.map fun a => (a.1.lowered, a.2.lowered) :=
  (Lowers.assigns c.assignments _ () l h).2.assigns

/-- The entries of the port map of an instance are those of the paths to it. -/
theorem mem_connections_iff (h : lower library c = (.ok (), l)) {s : Socket} (hs : s ∈ l.sockets)
    {k : Connection} : k ∈ s.connections ↔
      ∃ p ∈ c.dottedPaths, s.inst.name = p.head.name ∧ k = connection p := by
  have records := (Lowers.assigns c.assignments _ () l h).2.sockets
  rw [records] at hs
  obtain ⟨s₀, hs₀, rfl⟩ := List.mem_map.mp hs
  obtain ⟨i, -, rfl⟩ := List.mem_map.mp hs₀
  have wired : Socket.Wired ⟨i, interface? library i.type, []⟩ := fun k hk => by cases hk
  have dotted : ∀ p ∈ c.dottedPaths, p.tail ≠ [] := fun p hp => Component.dottedPaths_dotted hp
  obtain ⟨inst, entries⟩ := Socket.foldl_seen wired dotted
  have inst' := congrArg Instance.name inst
  refine (entries k).trans ?_
  simp only [List.not_mem_nil, false_or]
  exact exists_congr fun p => and_congr_right fun _ => by rw [← inst']; rfl

end Lowered

/-! ## Names that run together -/

theorem toList_joined (a b : String) : (a ++ "_" ++ b).toList = a.toList ++ '_' :: b.toList := by
  have underscore : "_".toList = ['_'] := rfl
  rw [String.toList_append, String.toList_append, underscore, List.append_assoc]
  rfl

/-- Where the first part of one name starts with that of the other, it ends there or goes on behind
an underscore. -/
theorem joined_longer {a b c d : String} {front : List Char}
    (same : a.toList ++ '_' :: b.toList = c.toList ++ '_' :: d.toList)
    (longer : c.toList = a.toList ++ front) :
    (a = c ∧ b = d) ∨ ∃ m, b = m ++ "_" ++ d ∧ c = a ++ "_" ++ m := by
  rw [longer, List.append_assoc] at same
  have rest := List.append_cancel_left same
  cases front with
  | nil =>
    rw [List.append_nil] at longer
    have second : b.toList = d.toList := (List.cons_eq_cons.mp rest).2
    exact .inl ⟨(String.toList_inj.mp longer).symm, String.toList_inj.mp second⟩
  | cons first middle =>
    obtain ⟨rfl, second⟩ := List.cons_eq_cons.mp rest
    refine .inr ⟨String.ofList middle, String.toList_inj.mp ?_, String.toList_inj.mp ?_⟩
    · rw [toList_joined, String.toList_ofList]
      exact second
    · rw [toList_joined, String.toList_ofList]
      exact longer

/-- Two joined names are the same if their parts are, or if the first part of one goes on, behind an
underscore, with what the second part of the other starts with. -/
theorem joined_eq_iff {a b c d : String} : a ++ "_" ++ b = c ++ "_" ++ d ↔
    (a = c ∧ b = d) ∨ (∃ m, b = m ++ "_" ++ d ∧ c = a ++ "_" ++ m) ∨
      ∃ m, d = m ++ "_" ++ b ∧ a = c ++ "_" ++ m := by
  constructor
  · intro same
    have same := congrArg String.toList same
    rw [toList_joined, toList_joined] at same
    rcases List.append_eq_append_iff.mp same with ⟨front, longer, -⟩ | ⟨front, longer, -⟩
    · rcases joined_longer same longer with equal | inner
      · exact .inl equal
      · exact .inr (.inl inner)
    · rcases joined_longer same.symm longer with ⟨rfl, rfl⟩ | inner
      · exact .inl ⟨rfl, rfl⟩
      · exact .inr (.inr inner)
  · rintro (⟨rfl, rfl⟩ | ⟨m, rfl, rfl⟩ | ⟨m, rfl, rfl⟩)
    · rfl
    · simp only [String.append_assoc]
    · simp only [String.append_assoc]

end Vhdl

/-- The names of two references to ports run together: the port of `p` starts with what the instance
of `q` ends with, and without that the instances and the ports are the same. -/
def Path.RunsInto (p q : Path) : Prop :=
  ∃ inst middle port, p.names = [inst, middle ++ "_" ++ port] ∧
    q.names = [inst ++ "_" ++ middle, port]

theorem Path.RunsInto.ne {p q : Path} (h : p.RunsInto q) : p.names ≠ q.names := by
  obtain ⟨inst, middle, port, hp, hq⟩ := h
  intro same
  rw [hp, hq] at same
  have length := congrArg String.length (List.cons_eq_cons.mp same).1
  simp only [String.length_append] at length
  have underscore : "_".length = 1 := rfl
  omega

theorem Path.RunsInto.signal {p q : Path} (h : p.RunsInto q) :
    Vhdl.signalName p = Vhdl.signalName q := by
  obtain ⟨inst, middle, port, hp, hq⟩ := h
  simp only [Vhdl.signalName, hp, hq, String.intercalate_cons_cons, String.intercalate_singleton,
    String.append_assoc]

namespace Vhdl

/-- Two references to ports have the same signal where they name the same port of the same instance,
and where their names run together. -/
theorem signalName_eq_iff {p q : Path} {s t : Segment} (hp : p.tail = [s]) (hq : q.tail = [t]) :
    signalName p = signalName q ↔ p.names = q.names ∨ p.RunsInto q ∨ q.RunsInto p := by
  have names : p.names = [p.head.name, s.name] ∧ q.names = [q.head.name, t.name] := by
    simp [Path.names, Path.segments, hp, hq]
  constructor
  · intro same
    simp only [signalName, names, String.intercalate_cons_cons, String.intercalate_singleton]
      at same
    rcases joined_eq_iff.mp same with ⟨inst, port⟩ | ⟨m, port, inst⟩ | ⟨m, port, inst⟩
    · exact .inl (by rw [names.1, names.2, inst, port])
    · refine .inr (.inl ⟨p.head.name, m, t.name, ?_, ?_⟩)
      · rw [names.1, port]
      · rw [names.2, inst]
    · refine .inr (.inr ⟨q.head.name, m, s.name, ?_, ?_⟩)
      · rw [names.2, port]
      · rw [names.1, inst]
  · rintro (same | into | into)
    · rw [signalName, same, signalName]
    · exact into.signal
    · exact into.signal.symm

/-- Lowering keeps the ports of the instances of a component apart: references are replaced by the
same signal where they name the same port of the same instance, and a signal is in the port maps of
one port of one instance only. -/
structure PortsApart (c : Component) (l : Lowering) : Prop where
  signals : ∀ p ∈ c.dottedPaths, ∀ q ∈ c.dottedPaths,
    p.lowered.names = q.lowered.names ↔ p.names = q.names
  portMaps : ∀ s ∈ l.sockets, ∀ t ∈ l.sockets, ∀ j ∈ s.connections, ∀ k ∈ t.connections,
    j.signal = k.signal → s.inst.name = t.inst.name ∧ j.port = k.port

theorem lowered_names {p : Path} (dotted : p.tail ≠ []) : p.lowered.names = [signalName p] := by
  have plain : ¬p.isPlain = true := by simpa [Path.isPlain] using dotted
  rw [Path.lowered, if_neg plain]
  rfl

theorem portsApart_iff {library : Option Design} {c : Component} {l : Lowering}
    (h : lower library c = (.ok (), l)) (short : ∀ p ∈ c.dottedPaths, ∃ s, p.tail = [s]) :
    PortsApart c l ↔ ¬∃ p ∈ c.dottedPaths, ∃ q ∈ c.dottedPaths, p.RunsInto q := by
  have lowered : ∀ p ∈ c.dottedPaths, p.lowered.names = [signalName p] := fun p hp =>
    lowered_names (Component.dottedPaths_dotted hp)
  constructor
  · rintro apart ⟨p, hp, q, hq, into⟩
    refine into.ne ((apart.signals p hp q hq).mp ?_)
    rw [lowered p hp, lowered q hq, into.signal]
  · intro clear
    have same : ∀ p ∈ c.dottedPaths, ∀ q ∈ c.dottedPaths, signalName p = signalName q →
        p.names = q.names := by
      intro p hp q hq signal
      obtain ⟨s, hs⟩ := short p hp
      obtain ⟨t, ht⟩ := short q hq
      rcases (signalName_eq_iff hs ht).mp signal with same | into | into
      · exact same
      · exact absurd ⟨p, hp, q, hq, into⟩ clear
      · exact absurd ⟨q, hq, p, hp, into⟩ clear
    constructor
    · intro p hp q hq
      rw [lowered p hp, lowered q hq, List.cons_eq_cons, and_iff_left rfl]
      refine ⟨same p hp q hq, fun names => ?_⟩
      rw [signalName, names, signalName]
    · intro s hs t ht j hj k hk signal
      obtain ⟨p, hp, inst, rfl⟩ := (mem_connections_iff h hs).mp hj
      obtain ⟨q, hq, inst', rfl⟩ := (mem_connections_iff h ht).mp hk
      have names := same p hp q hq signal
      obtain ⟨head, tail⟩ := List.cons_eq_cons.mp names
      exact ⟨inst.trans (head.trans inst'.symm), congrArg (String.intercalate "_") tail⟩

/-- For a component that passes the check and is emitted, the emitted assignments have signals in
place of the dotted paths, the port maps connect each port to its signal, and ports are kept apart
exactly where no two references have names that run together. -/
theorem emit_portsApart_iff {d : Design} {top : String} {c : Component} {g g' : Generator}
    {text : String} (hc : c ∈ d.components) (passes : c.name ∈ (d.check top).order)
    (emits : g.emit c = (.ok text, g')) :
    g'.work.assigns = c.assignments.map (fun a => (a.1.lowered, a.2.lowered)) ∧
      (∀ s ∈ g'.work.sockets, ∀ k, k ∈ s.connections ↔
        ∃ p ∈ c.dottedPaths, s.inst.name = p.head.name ∧ k = connection p) ∧
      (PortsApart c g'.work ↔ ¬∃ p ∈ c.dottedPaths, ∃ q ∈ c.dottedPaths, p.RunsInto q) := by
  have lowers := (lower_of_emit emits).1
  have short : ∀ p ∈ c.dottedPaths, ∃ s, p.tail = [s] := by
    intro p hp
    obtain ⟨-, sound, -⟩ := Design.mem_order_iff.mp passes
    by_contra deep
    refine sound (.badPath hc hp ?_)
    rintro ⟨i, port, -, one, -⟩
    exact deep ⟨port, one⟩
  exact ⟨lower_assigns lowers, fun s hs k => mem_connections_iff lowers hs,
    portsApart_iff lowers short⟩

/-- A component with one port. -/
def onePort (name port : String) : Component where
  name := name
  nameSpan := .zero
  span := .zero
  file := 0
  items := [.ports .zero [⟨.port .input, port, .zero, .vec, .scalar, .zero⟩]]
  widths := []

/-- A component that drives the port `a_b` of an instance `u` and the port `b` of another one. -/
def portUser (name other : String) : Component where
  name := name
  nameSpan := .zero
  span := .zero
  file := 0
  items := [
    .ports .zero [⟨.port .input, "x", .zero, .vec, .scalar, .zero⟩,
      ⟨.port .input, "y", .zero, .vec, .scalar, .zero⟩],
    .arch ⟨.zero, "", .zero, [
      .inst .zero ⟨"u", .zero, "A", .zero, []⟩,
      .inst .zero ⟨other, .zero, "B", .zero, []⟩,
      .assign .zero (.ref ⟨⟨"u", .zero⟩, [⟨"a_b", .zero⟩]⟩) (.ref ⟨⟨"x", .zero⟩, []⟩),
      .assign .zero (.ref ⟨⟨other, .zero⟩, [⟨"b", .zero⟩]⟩) (.ref ⟨⟨"y", .zero⟩, []⟩)]⟩]
  widths := []

/-- Two users of two ports; with an instance `u_a` the names run together, with `v` they do not. -/
def portUsers : Design where
  components := [onePort "A" "a_b", onePort "B" "b", portUser "S" "u_a", portUser "T" "v"]
  distinct := by decide

/-- What emits the components of the design. -/
def portUsersGenerator : Generator := ⟨some portUsers, 4, default⟩

theorem portUsers_order : (portUsers.check "").order = ["A", "B", "S", "T"] := by cbv

theorem emitted_of_isOk {g : Generator} {c : Component} (h : (g.emit c).1.isOk = true) :
    ∃ text g', g.emit c = (.ok text, g') := by
  cases run : g.emit c with
  | mk result g' =>
    cases result with
    | error e =>
      rw [run] at h
      cases h
    | ok text => exact ⟨text, g', rfl⟩

theorem emit_portsApart_iff_portUser :
    ∃ text g', portUsersGenerator.emit (portUser "T" "v") = (.ok text, g') ∧
      PortsApart (portUser "T" "v") g'.work := by
  have known : portUser "T" "v" ∈ portUsers.components := by decide
  have passes : "T" ∈ (portUsers.check "").order := by
    rw [portUsers_order]
    decide
  have distinct : ∀ p ∈ (portUser "T" "v").dottedPaths,
      ∀ q ∈ (portUser "T" "v").dottedPaths,
        signalName p = signalName q → p.names = q.names := by decide
  obtain ⟨text, g', run⟩ : ∃ text g', portUsersGenerator.emit (portUser "T" "v") =
      (.ok text, g') := emitted_of_isOk (by decide)
  obtain ⟨-, -, apart⟩ := emit_portsApart_iff known passes run
  refine ⟨text, g', run, apart.mpr ?_⟩
  rintro ⟨p, hp, q, hq, into⟩
  exact into.ne (distinct p hp q hq into.signal)

/-- The component passes the check and is emitted, but its two ports share a signal. -/
theorem portUser_not_apart :
    portUser "S" "u_a" ∈ portUsers.components ∧ "S" ∈ (portUsers.check "").order ∧
      ∃ text g', portUsersGenerator.emit (portUser "S" "u_a") = (.ok text, g') ∧
        ¬PortsApart (portUser "S" "u_a") g'.work := by
  obtain ⟨text, g', run⟩ : ∃ text g', portUsersGenerator.emit (portUser "S" "u_a") =
      (.ok text, g') := emitted_of_isOk (by decide)
  refine ⟨by decide, ?_, text, g', run, fun apart => ?_⟩
  · rw [portUsers_order]
    decide
  · have first : (⟨⟨"u", .zero⟩, [⟨"a_b", .zero⟩]⟩ : Path) ∈
        (portUser "S" "u_a").dottedPaths := by decide
    have second : (⟨⟨"u_a", .zero⟩, [⟨"b", .zero⟩]⟩ : Path) ∈
        (portUser "S" "u_a").dottedPaths := by decide
    have same := (apart.signals _ first _ second).mp (by decide)
    revert same
    decide

end Vhdl
end CircuitCompiler
